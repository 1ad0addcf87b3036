import OnTheFly.Exploration.Basic

/-!
Contract: strategies, which decide the order in which a run visits states.

Owns: what a run asks of a strategy. A strategy is prepared once and then makes
one step after the other as long as it has a next one.

A step that fails leaves the strategy where it was, so that it can be made
again; what it changed in the state space stays.
-/

set_option autoImplicit false

namespace OnTheFly

/-- The values of type `S` visit the states of runs over the rules `R`. -/
class Strategy (R : RuleSystem) (S : Type) where
  name : S → String
  /-- Resets the strategy for a run. -/
  prepare {A : Type} [Acceptor R A] :
    S → Exploration R A → Except ExploreError Unit × S × Exploration R A
  hasNext : S → Bool
  /-- Processes one state and moves on; the result is the processed state. -/
  doNext {A : Type} [Acceptor R A] :
    S → Exploration R A → Except Failure StateId × S × Exploration R A

end OnTheFly
