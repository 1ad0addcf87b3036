import OnTheFly.Acceptor.Basic

/-!
Contract: the acceptor of states whose graph satisfies a predicate.

Owns: answering exactly these states, as soon as they are discovered.
-/

set_option autoImplicit false

namespace OnTheFly

structure MatchingStates (R : RuleSystem) where
  predicate : R.Graph → Bool
  answers : Answers

namespace MatchingStates

variable {R : RuleSystem}

def check (space : StateSpace R) (acceptor : MatchingStates R) (state : StateId) :
    MatchingStates R :=
  if (space.graph? state).any acceptor.predicate then
    { acceptor with answers := acceptor.answers.record state }
  else acceptor

def message (acceptor : MatchingStates R) : String :=
  s!"{acceptor.answers.size} matching states"

instance : Acceptor R (MatchingStates R) where
  prepare space acceptor :=
    space.stateIds.foldl (check space) { acceptor with answers := acceptor.answers.clear }
  stateAdded space state acceptor := check space acceptor state
  addState state acceptor := { acceptor with answers := acceptor.answers.record state }
  answers := MatchingStates.answers
  message := MatchingStates.message

end MatchingStates

end OnTheFly
