import OnTheFly.ModelCheck.Bounded
import OnTheFly.ModelCheck.Ltl
import OnTheFly.Strategy.Closing
import OnTheFly.Strategy.Linear

/-!
Contract: the strategies of this library as one type.

Owns: a value that holds a strategy of any kind and acts as that strategy.
-/

set_option autoImplicit false

namespace OnTheFly

/-- A strategy of any kind; random choices are made by `G`. -/
inductive AnyStrategy (G : Type) where
  | closing (closing : Closing)
  | linear (linear : Linear G)
  | ltl (ltl : LtlSearch G)
  | bounded (bounded : BoundedSearch)

namespace AnyStrategy

variable {R : RuleSystem} {G A : Type} [Chooser G] [Acceptor R A]

def name (R : RuleSystem) : AnyStrategy G → String
  | .closing held => Strategy.name (R := R) held
  | .linear held => Strategy.name (R := R) held
  | .ltl held => Strategy.name (R := R) held
  | .bounded held => Strategy.name (R := R) held

def hasNext (R : RuleSystem) : AnyStrategy G → Bool
  | .closing held => Strategy.hasNext (R := R) held
  | .linear held => Strategy.hasNext (R := R) held
  | .ltl held => Strategy.hasNext (R := R) held
  | .bounded held => Strategy.hasNext (R := R) held

/-- Puts the strategy of a result back among those of any kind. -/
def wrap {Result S Run : Type} (back : S → AnyStrategy G) (result : Result × S × Run) :
    Result × AnyStrategy G × Run :=
  (result.1, back result.2.1, result.2.2)

def prepare (run : Exploration R A) :
    AnyStrategy G → Except ExploreError Unit × AnyStrategy G × Exploration R A
  | .closing held => wrap .closing (Strategy.prepare held run)
  | .linear held => wrap .linear (Strategy.prepare held run)
  | .ltl held => wrap .ltl (Strategy.prepare held run)
  | .bounded held => wrap .bounded (Strategy.prepare held run)

def doNext (run : Exploration R A) :
    AnyStrategy G → Except Failure StateId × AnyStrategy G × Exploration R A
  | .closing held => wrap .closing (Strategy.doNext held run)
  | .linear held => wrap .linear (Strategy.doNext held run)
  | .ltl held => wrap .ltl (Strategy.doNext held run)
  | .bounded held => wrap .bounded (Strategy.doNext held run)

instance : Strategy R (AnyStrategy G) where
  name := AnyStrategy.name R
  prepare strategy run := strategy.prepare run
  hasNext := AnyStrategy.hasNext R
  doNext strategy run := strategy.doNext run

end AnyStrategy

end OnTheFly
