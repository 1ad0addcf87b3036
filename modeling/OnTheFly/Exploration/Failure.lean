import OnTheFly.Automaton.Basic
import OnTheFly.StateSpace.Growth

/-!
Contract: how a step of an exploration can fail.

Owns: errors, which a caller is expected to meet, and breaches, which a caller
that keeps to the rules never meets.
-/

set_option autoImplicit false

namespace OnTheFly

inductive ExploreError where
  /-- A rule application was cancelled. -/
  | interrupted
  | apply (error : ApplyError)
  | property (error : AutomatonError)
  | missingProperty
  | unknownStart (state : StateId)
deriving DecidableEq, Repr

def ExploreError.message : ExploreError → String
  | .interrupted => "exploration interrupted"
  | .apply error => s!"rule application failed: {error.message}"
  | .property error => s!"malformed property: {error.message}"
  | .missingProperty => "LTL strategy has no property"
  | .unknownStart state => s!"start state {state.render} is not in the state space"

def ExploreError.ofApplyError : ApplyError → ExploreError
  | .interrupted => .interrupted
  | error => .apply error

/-- A condition that an operation relies on and found violated. -/
inductive Breach where
  | matchOutOfRange (position : Nat) (state : StateId)
  | depthUnderflow
  | prototypeInUse
  | exploredAgain
  /-- A 64-bit counter would pass its greatest value. -/
  | overflow
  /-- A handle of another automaton was used. -/
  | missingLocation
deriving DecidableEq, Repr

/-- What a breach says about itself, if it does. -/
def Breach.message? : Breach → Option String
  | .matchOutOfRange position state =>
      some s!"match index {position} out of range for state {state.render}"
  | .depthUnderflow => some "boundary depth underflow"
  | .prototypeInUse => some "boundary prototype used in a search"
  | .exploredAgain => some "explored product state pushed again"
  | .overflow => none
  | .missingLocation => none

inductive Failure where
  | error (error : ExploreError)
  | breach (breach : Breach)
deriving DecidableEq, Repr

def Failure.ofMatchFailure : MatchFailure → Failure
  | .outOfRange position state => .breach (.matchOutOfRange position state)
  | .refused reason => .error (.ofApplyError reason)

/-- One more than any 64-bit counter can hold. -/
def counterLimit : Nat := UInt64.size

/-- The sum of two 64-bit counters. -/
def addCounters (left right : Nat) : Except Breach Nat :=
  if left + right < counterLimit then .ok (left + right) else .error .overflow

end OnTheFly
