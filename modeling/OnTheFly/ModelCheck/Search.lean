import OnTheFly.Exploration.Strategy
import OnTheFly.Product.Synchronous

/-!
Contract: the depth-first search for accepting cycles, as far as its plain and
its bounded form share it.

Owns: the search stack and its colours, expanding a product state, and when
and how a counterexample is reported.

A product state is cyan while it is on the stack. A transition to a cyan state
closes a cycle on the current path; if one of its ends is accepting, the stack
is a counterexample.
-/

set_option autoImplicit false

namespace OnTheFly

/-- An entry of the search stack. -/
structure Frame where
  state : ProductStateId
  /-- The system transition that led here; the root and stuttering steps have
  none. -/
  via : Option TransitionId := none
  /-- Whether entering the frame raised the depth of the boundary. -/
  counted : Bool := false
deriving DecidableEq, Repr

structure Search where
  automaton : Option Automaton
  product : Product := {}
  /-- The frames of the current path, the last one first. -/
  stack : List Frame := []
  round : Round := {}
  initial : Option ProductStateId := none
  /-- The frame to enter in the next step. -/
  next : Option Frame := none
  counterExample : Option (List StateId) := none

namespace Search

variable {R : RuleSystem} {A : Type} [Acceptor R A]

/-- A fresh search from a system state and the initial location. -/
def reset (search : Search) (start : StateId) : Except ExploreError Search :=
  match search.automaton with
  | none => .error .missingProperty
  | some automaton =>
      let ((initial, _), product) := search.product.clear.addState start automaton.initial 1
      .ok {
        automaton := some automaton
        product := product
        initial := some initial
        next := some { state := initial } }

/-- Puts the next frame on the stack and paints it cyan. -/
def enter (search : Search) (frame : Frame) : Except Breach Search :=
  if search.round.isExplored (search.product.colour frame.state) then .error .exploredAgain
  else
    .ok { search with
      product := search.product.paint frame.state search.round.cyan
      stack := frame :: search.stack
      next := none }

def isAccepting (search : Search) (state : ProductStateId) : Bool :=
  search.automaton.any (·.isAccepting (search.product.location state))

/-- Adds the outgoing transitions of a product state whose system state is
closed. -/
def expand (search : Search) (space : StateSpace R) (state : ProductStateId) :
    Except Breach Search :=
  match search.automaton with
  | none => .ok search
  | some automaton =>
      match automaton.location? (search.product.location state) with
      | none => .error .missingLocation
      | some location =>
          let steps := productSteps space (search.product.systemState state) location
          .ok { search with
            product := search.product.addSteps state search.round.iteration steps }

/-- Adds the outgoing transitions of a product state that does not have them
yet. -/
def expandOnce (search : Search) (space : StateSpace R) (state : ProductStateId) :
    Except Breach Search :=
  if search.product.isClosed state then .ok search else search.expand space state

/-- Whether a transition closes an accepting cycle on the stack. -/
def closesCycle (search : Search) (transition : ProductTransitionId) : Bool :=
  match search.product.transition? transition with
  | none => false
  | some entry =>
      search.product.colour entry.target = search.round.cyan &&
        (search.isAccepting entry.source || search.isAccepting entry.target)

/-- The product states of the stack, the root first. -/
def path (search : Search) : List ProductStateId :=
  search.stack.reverse.map (·.state)

/-- Hands the system states of the stack to the acceptor and ends the search. -/
def report (search : Search) (run : Exploration R A) : Search × Exploration R A :=
  let states := search.path.map search.product.systemState
  ({ search with counterExample := some states, next := none },
    { run with acceptor := Acceptor.addCounterExample (R := R) states run.acceptor })

end Search

end OnTheFly
