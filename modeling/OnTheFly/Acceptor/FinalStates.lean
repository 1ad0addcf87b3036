import OnTheFly.Acceptor.Basic

/-!
Contract: the acceptor of deadlocks.

Owns: answering exactly the closed states without outgoing transitions.
-/

set_option autoImplicit false

namespace OnTheFly

structure FinalStates where
  answers : Answers
deriving DecidableEq, Repr

namespace FinalStates

variable {R : RuleSystem}

def isFinal (space : StateSpace R) (state : StateId) : Bool :=
  space.isClosed state && (space.out state).isEmpty

def check (space : StateSpace R) (acceptor : FinalStates) (state : StateId) : FinalStates :=
  if isFinal space state then ⟨acceptor.answers.record state⟩ else acceptor

def message (acceptor : FinalStates) : String :=
  match acceptor.answers.size with
  | 0 => "no final states"
  | 1 => "1 final state"
  | count => s!"{count} final states"

instance : Acceptor R FinalStates where
  prepare space acceptor := space.stateIds.foldl (check space) ⟨acceptor.answers.clear⟩
  stateClosed space state acceptor := check space acceptor state
  addState state acceptor := ⟨acceptor.answers.record state⟩
  answers := FinalStates.answers
  message := FinalStates.message

end FinalStates

end OnTheFly
