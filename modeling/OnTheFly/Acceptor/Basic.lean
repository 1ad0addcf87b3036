import OnTheFly.Acceptor.Answers

/-!
Contract: acceptors, which watch a run and decide when enough has been found.

Owns: what an acceptor is told, what it is asked, and how a change event of
the state space reaches it.

An acceptor hears of a change after it has been made. It cannot undo it, but
it may ask for the run to be stopped.
-/

set_option autoImplicit false

namespace OnTheFly

/-- The values of type `A` watch runs over the rules `R`. -/
class Acceptor (R : RuleSystem) (A : Type) where
  /-- Called once, before a run. -/
  prepare : StateSpace R → A → A := fun _ acceptor => acceptor
  stateAdded : StateSpace R → StateId → A → A := fun _ _ acceptor => acceptor
  transitionAdded : StateSpace R → TransitionId → A → A := fun _ _ acceptor => acceptor
  stateClosed : StateSpace R → StateId → A → A := fun _ _ acceptor => acceptor
  /-- Records a witness state. -/
  addState : StateId → A → A
  /-- Records the path of a counterexample, its root first. -/
  addCounterExample : List StateId → A → A :=
    fun path acceptor => path.foldl (fun acceptor state => addState state acceptor) acceptor
  answers : A → Answers
  /-- Whether enough has been found. -/
  done : A → Bool := fun acceptor => (answers acceptor).isDone
  /-- A summary of what was found. -/
  message : A → String
  /-- Whether the acceptor, having heard of the event, asks for the run to stop. -/
  cancels : StateSpace R → Event → A → Bool := fun _ _ _ => false

/-- Tells an acceptor of one change. -/
def Acceptor.notify {R : RuleSystem} {A : Type} [Acceptor R A] (space : StateSpace R)
    (acceptor : A) : Event → A
  | .stateAdded state => Acceptor.stateAdded space state acceptor
  | .transitionAdded transition => Acceptor.transitionAdded space transition acceptor
  | .stateClosed state => Acceptor.stateClosed space state acceptor

end OnTheFly
