import OnTheFly.Exploration.Strategy
import OnTheFly.Random.Chooser

/-!
Contract: exploration along a single path.

Owns: the strategy that applies one match of each state and moves on to its
target, until the target was already there or nothing is left to apply.
-/

set_option autoImplicit false

namespace OnTheFly

/-- The match is the first pending one, or one chosen by `chooser`. -/
structure Linear (G : Type) where
  random : Bool
  chooser : G
  next : Option StateId := none

namespace Linear

variable {R : RuleSystem} {G A : Type} [Chooser G] [Acceptor R A]

def create (random : Bool) : Linear G :=
  { random := random, chooser := Chooser.seeded 0 }

def name (linear : Linear G) : String :=
  if linear.random then "random-linear" else "linear"

/-- The position of the match to apply, of `count` pending ones. -/
def position (linear : Linear G) (count : Nat) : Nat × Linear G :=
  if linear.random then
    let (position, chooser) := Chooser.below count linear.chooser
    (position, { linear with chooser := chooser })
  else (0, linear)

def prepare (linear : Linear G) (run : Exploration R A) : Linear G :=
  { linear with chooser := Chooser.seeded run.config.seed, next := some run.start }

/-- Applies one match of the next state. If that fails, the state stays next. -/
def doNext (linear : Linear G) (run : Exploration R A) :
    Except Failure StateId × Linear G × Exploration R A :=
  match linear.next with
  | none => (.ok run.start, linear, run)
  | some state =>
      let (count, run) := run.pendingCount state
      if count = 0 then (.ok state, { linear with next := none }, run)
      else
        let (position, linear) := linear.position count
        match run.applyMatch state position with
        | (.error failure, run) => (.error failure, linear, run)
        | (.ok applied, run) =>
            let next := if applied.fresh then some applied.target else none
            (.ok state, { linear with next := next }, run)

instance : Strategy R (Linear G) where
  name := Linear.name
  prepare linear run := (.ok (), linear.prepare run, run)
  hasNext linear := linear.next.isSome
  doNext := Linear.doNext

end Linear

end OnTheFly
