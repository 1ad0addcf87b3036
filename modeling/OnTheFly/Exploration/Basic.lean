import OnTheFly.Acceptor.Basic
import OnTheFly.Exploration.Failure

/-!
Contract: one run over a state space, as a strategy sees it.

Owns: the state of a run, and every way in which a strategy may change the
state space. Each change is told to the acceptor before the strategy goes on.
Does not own: the order in which states are visited.
-/

set_option autoImplicit false

namespace OnTheFly

/-- Counters for observers of a run. -/
structure Progress where
  states : Nat := 0
  /-- Completed steps. -/
  steps : Nat := 0
  /-- Iteration of a bounded search; zero under any other strategy. -/
  iteration : Nat := 0
  stackDepth : Nat := 0
deriving DecidableEq, Repr

structure Config where
  seed : UInt64 := 0
  /-- The greatest number of iterations of a bounded search; zero sets no limit. -/
  maxIterations : Nat := 0
  /-- Whether a request to stop is heeded. -/
  heedsStop : Bool := false
deriving DecidableEq, Repr

/-- A run of some strategy from `start`. -/
structure Exploration (R : RuleSystem) (A : Type) where
  space : StateSpace R
  acceptor : A
  config : Config
  start : StateId
  /-- For each state that was there before the run, whether the strategy has
  not claimed it yet. -/
  known : Array Bool
  progress : Option Progress
  /-- Whether somebody asked for the run to stop. -/
  stopRequested : Bool

namespace Exploration

variable {R : RuleSystem} {A : Type}

/-- A run over a state space. Events from before it are dropped. -/
def begin (space : StateSpace R) (acceptor : A) (config : Config) (progress : Option Progress)
    (stopRequested : Bool) (start : StateId) : Except ExploreError (Exploration R A) :=
  if space.contains start then
    .ok {
      space := space.drainEvents.2
      acceptor := acceptor
      config := config
      start := start
      known := Array.replicate space.size true
      progress := progress
      stopRequested := stopRequested }
  else .error (.unknownStart start)

/-- Whether the state was there before the run and is not claimed yet. -/
def isKnown (run : Exploration R A) (state : StateId) : Bool :=
  run.known[state.index]?.getD false

/-- Claims a state that was there before the run. -/
def forgetKnown (run : Exploration R A) (state : StateId) : Exploration R A :=
  { run with known := run.known.modify state.index fun _ => false }

/-- Whether the run has to stop before its next step. -/
def mustStop (run : Exploration R A) : Bool :=
  run.config.heedsStop && run.stopRequested

def track (run : Exploration R A) (change : Progress → Progress) : Exploration R A :=
  { run with progress := run.progress.map change }

variable [Acceptor R A]

/-- Tells the acceptor of one event. -/
def deliver (run : Exploration R A) (event : Event) : Exploration R A :=
  let acceptor := Acceptor.notify run.space run.acceptor event
  { run with
    acceptor := acceptor
    stopRequested := run.stopRequested || Acceptor.cancels run.space event acceptor }

/-- Tells the acceptor of all queued events, oldest first. -/
def dispatch (run : Exploration R A) : Exploration R A :=
  let (events, space) := run.space.drainEvents
  (events.foldl deliver { run with space := space }).track
    ({ · with states := space.size })

def pendingCount (run : Exploration R A) (state : StateId) : Nat × Exploration R A :=
  let (count, space) := run.space.pendingCount state
  (count, ({ run with space := space }).dispatch)

/-- Applies one pending match. A position out of range is found before the
acceptor is told of anything. -/
def applyMatch (run : Exploration R A) (state : StateId) (position : Nat) :
    Except Failure Applied × Exploration R A :=
  match run.space.applyMatch state position with
  | (.ok applied, space) => (.ok applied, ({ run with space := space }).dispatch)
  | (.error (.refused error), space) =>
      (.error (.ofMatchFailure (.refused error)), ({ run with space := space }).dispatch)
  | (.error (.outOfRange position state), space) =>
      (.error (.ofMatchFailure (.outOfRange position state)), { run with space := space })

/-- Applies the first pending match `count` times, up to the first failure. -/
def applyFirst (state : StateId) : Nat → Exploration R A →
    Except Failure (List Applied) × Exploration R A
  | 0, run => (.ok [], run)
  | count + 1, run =>
      match run.applyMatch state 0 with
      | (.error failure, run) => (.error failure, run)
      | (.ok applied, run) =>
          match applyFirst state count run with
          | (.error failure, run) => (.error failure, run)
          | (.ok others, run) => (.ok (applied :: others), run)

/-- Applies every pending match, which closes the state. -/
def closeState (run : Exploration R A) (state : StateId) :
    Except Failure (List Applied) × Exploration R A :=
  let (count, run) := run.pendingCount state
  run.applyFirst state count

end Exploration

end OnTheFly
