import OnTheFly.Exploration.Strategy

/-!
Contract: playing a strategy until it ends.

Owns: the explorer, the order of the tests between two steps, and the outcome
of a play.

Before every step it is asked, in this order, whether the acceptor is done,
whether the strategy has a next step, and whether the run has to stop.
-/

set_option autoImplicit false

namespace OnTheFly

/-- The three normal ends of a play. -/
inductive Termination where
  /-- The strategy had nothing left to do. -/
  | exhausted
  /-- The acceptor had enough. -/
  | accepted
  /-- The run was cancelled. -/
  | interrupted
deriving DecidableEq, Repr

def Termination.render : Termination → String
  | .exhausted => "exhausted"
  | .accepted => "accepted"
  | .interrupted => "interrupted"

structure Outcome where
  termination : Termination
  steps : Nat
  states : Nat
  message : String
deriving DecidableEq, Repr

/-- What is configured once and used for many plays. -/
structure Explorer where
  config : Config := {}
  progress : Option Progress := none
  stopRequested : Bool := false
  /-- Whether the last play was cancelled. -/
  interrupted : Bool := false
deriving DecidableEq, Repr

namespace Explorer

/-- One line on the configuration. -/
def describe (explorer : Explorer) : String :=
  let progress := if explorer.progress.isSome then "Some(\"...\")" else "None"
  let stop := if explorer.config.heedsStop then s!"Some({explorer.stopRequested})" else "None"
  s!"ExploreConfig \x7b seed: {explorer.config.seed}, " ++
    s!"max_iterations: {explorer.config.maxIterations}, " ++
    s!"progress: {progress}, stop_flag: {stop} \x7d"

end Explorer

/-- How a sequence of steps ended. -/
inductive Ending where
  | ended (termination : Termination) (steps : Nat)
  | failed (failure : Failure)
  /-- The allowance of steps was used up. -/
  | unfinished
deriving DecidableEq, Repr

/-- The ending of a sequence of steps, with what it worked on. -/
structure Stretch (R : RuleSystem) (S A : Type) where
  ending : Ending
  strategy : S
  run : Exploration R A

section

variable {R : RuleSystem} {S A : Type} [Strategy R S] [Acceptor R A]

/-- Makes steps until an ending, at most `allowance` many, after `steps`. -/
def takeSteps : (allowance steps : Nat) → S → Exploration R A → Stretch R S A
  | 0, _, strategy, run => ⟨.unfinished, strategy, run⟩
  | allowance + 1, steps, strategy, run =>
      if Acceptor.done (R := R) run.acceptor then ⟨.ended .accepted steps, strategy, run⟩
      else if !Strategy.hasNext (R := R) strategy then ⟨.ended .exhausted steps, strategy, run⟩
      else if run.mustStop then ⟨.ended .interrupted steps, strategy, run⟩
      else
        match Strategy.doNext strategy run with
        | (.ok _, strategy, run) =>
            takeSteps allowance (steps + 1) strategy (run.track ({ · with steps := steps + 1 }))
        | (.error (.error .interrupted), strategy, run) =>
            ⟨.ended .interrupted steps, strategy, run⟩
        | (.error failure, strategy, run) => ⟨.failed failure, strategy, run⟩

/-- Prepares the strategy and makes its steps. -/
def playRun (allowance : Nat) (strategy : S) (run : Exploration R A) : Stretch R S A :=
  match Strategy.prepare strategy run with
  | (.ok _, strategy, run) => takeSteps allowance 0 strategy run
  | (.error .interrupted, strategy, run) => ⟨.ended .interrupted 0, strategy, run⟩
  | (.error error, strategy, run) => ⟨.failed (.error error), strategy, run⟩

/-- What a play leaves behind. -/
structure Played (R : RuleSystem) (S A : Type) where
  /-- There is none if the allowance of steps was used up. -/
  outcome : Option (Except Failure Outcome)
  explorer : Explorer
  strategy : S
  space : StateSpace R
  acceptor : A

/-- The outcome of an ending. -/
def Stretch.outcome (stretch : Stretch R S A) : Option (Except Failure Outcome) :=
  match stretch.ending with
  | .ended termination steps =>
      some (.ok ⟨termination, steps, stretch.run.space.size,
        Acceptor.message (R := R) stretch.run.acceptor⟩)
  | .failed failure => some (.error failure)
  | .unfinished => none

def Ending.isInterrupted : Ending → Bool
  | .ended .interrupted _ => true
  | _ => false

/-- Explores a state space with a strategy from `start`, or from its start
state, and reports to the acceptor. -/
def Explorer.play (explorer : Explorer) (allowance : Nat) (strategy : S) (space : StateSpace R)
    (start : Option StateId) (acceptor : A) : Played R S A :=
  let explorer := { explorer with interrupted := false }
  let acceptor := Acceptor.prepare space acceptor
  match Exploration.begin space acceptor explorer.config explorer.progress
      explorer.stopRequested (start.getD StateSpace.startState) with
  | .error error => ⟨some (.error (.error error)), explorer, strategy, space, acceptor⟩
  | .ok run =>
      let stretch := playRun allowance strategy run
      { outcome := stretch.outcome
        explorer := { explorer with
          progress := stretch.run.progress
          stopRequested := stretch.run.stopRequested
          interrupted := stretch.ending.isInterrupted }
        strategy := stretch.strategy
        space := stretch.run.space
        acceptor := stretch.run.acceptor }

end

end OnTheFly
