import OnTheFly.Acceptor.Basic

/-!
Contract: acceptors that only take notes.

Owns: the acceptor that keeps witness states and nothing else, and the one that
also logs every callback and may ask for the run to stop at a given size of the
state space.
-/

set_option autoImplicit false

namespace OnTheFly

/-- Keeps the witness states. -/
structure Witnesses where
  answers : Answers
deriving DecidableEq, Repr

instance {R : RuleSystem} : Acceptor R Witnesses where
  addState state acceptor := ⟨acceptor.answers.record state⟩
  answers := Witnesses.answers
  message _ := "minimal"

/-- Logs every callback, oldest first. Nothing is ever cleared. -/
structure Recorder where
  answers : Answers
  log : List String := []
  /-- The number of states from which on a new one makes it ask for a stop. -/
  trip : Option Nat := none
deriving DecidableEq, Repr

namespace Recorder

variable {R : RuleSystem}

def note (recorder : Recorder) (line : String) : Recorder :=
  { recorder with log := recorder.log ++ [line] }

def transitionLine (space : StateSpace R) (handle : TransitionId) : String :=
  match space.transition? handle with
  | some transition =>
      s!"{handle.render} {transition.source.render} -> {transition.target.render} : " ++
        transition.rule
  | none => handle.render

def trips (space : StateSpace R) (recorder : Recorder) : Event → Bool
  | .stateAdded _ => recorder.trip.any (· ≤ space.size)
  | _ => false

instance : Acceptor R Recorder where
  stateAdded _ state recorder := recorder.note s!"added {state.render}"
  transitionAdded space handle recorder := recorder.note (transitionLine space handle)
  stateClosed _ state recorder := recorder.note s!"closed {state.render}"
  addState state recorder :=
    { recorder.note s!"witness {state.render}" with answers := recorder.answers.record state }
  answers := Recorder.answers
  message recorder := s!"{recorder.log.length} callbacks"
  cancels space event recorder := trips space recorder event

end Recorder

end OnTheFly
