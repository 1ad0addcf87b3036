import OnTheFly.Exploration.Explorer
import OnTheFly.Proofs.Exploration.Closing

/-!
Contract: every way to make the steps of a strategy.

Owns: the strategies and runs that are reached from a prepared strategy by any
number of steps, failed ones repeated or not, and that every play is such a
sequence of steps; those that are reached even if a breach is passed over; and
the trail of attempts on which they are reached.
-/

set_option autoImplicit false

namespace OnTheFly

variable {R : RuleSystem} {S A : Type} [Strategy R S] [Acceptor R A]

/-- What a strategy and its run can become. The strategy is prepared and then
makes steps. A step that fails with an error may be made again; a breach is the
end. Between two steps anybody may look at the progress and ask for a stop. -/
inductive Driven (strategy : S) (run : Exploration R A) : S → Exploration R A → Prop where
  | prepared {ready : S} {opened : Exploration R A}
      (prepare : Strategy.prepare strategy run = (.ok (), ready, opened)) :
      Driven strategy run ready opened
  | stepped {current next : S} {now later : Exploration R A} {result : Except Failure StateId}
      (before : Driven strategy run current now)
      (step : Strategy.doNext current now = (result, next, later))
      (unbroken : ∀ breach, result ≠ .error (.breach breach)) :
      Driven strategy run next later
  | observed {current : S} {now : Exploration R A} (progress : Option Progress)
      (stopRequested : Bool) (before : Driven strategy run current now) :
      Driven strategy run current
        { now with progress := progress, stopRequested := stopRequested }

/-- What a strategy and its run become by any number of steps, whatever these
answer. Between two steps anybody may look at the progress and ask for a stop. -/
inductive Calls (strategy : S) (run : Exploration R A) : S → Exploration R A → Prop where
  | none : Calls strategy run strategy run
  | called {current next : S} {now later : Exploration R A} {result : Except Failure StateId}
      (before : Calls strategy run current now)
      (step : Strategy.doNext current now = (result, next, later)) : Calls strategy run next later
  | observed {current : S} {now : Exploration R A} (progress : Option Progress)
      (stopRequested : Bool) (before : Calls strategy run current now) :
      Calls strategy run current { now with progress := progress, stopRequested := stopRequested }

/-- What a strategy and its run become by any number of attempts at a step once
the strategy is prepared. The trail lists the strategy before each attempt and
what the attempt answered. -/
inductive Attempts (strategy : S) (run : Exploration R A) :
    List (S × Except Failure StateId) → S → Exploration R A → Prop where
  | prepared {ready : S} {opened : Exploration R A}
      (prepare : Strategy.prepare strategy run = (.ok (), ready, opened)) :
      Attempts strategy run [] ready opened
  | attempted {trail : List (S × Except Failure StateId)} {current next : S}
      {now later : Exploration R A} {result : Except Failure StateId}
      (before : Attempts strategy run trail current now)
      (step : Strategy.doNext current now = (result, next, later)) :
      Attempts strategy run (trail ++ [(current, result)]) next later
  | observed {trail : List (S × Except Failure StateId)} {current : S} {now : Exploration R A}
      (progress : Option Progress) (stopRequested : Bool)
      (before : Attempts strategy run trail current now) :
      Attempts strategy run trail current
        { now with progress := progress, stopRequested := stopRequested }

/-- So many attempts, one after the other. -/
def attempted (strategy : S) (run : Exploration R A) :
    Nat → List (S × Except Failure StateId) × S × Exploration R A
  | 0 => ([], strategy, run)
  | count + 1 =>
      let (trail, current, now) := attempted strategy run count
      let (result, next, later) := Strategy.doNext current now
      (trail ++ [(current, result)], next, later)

theorem attempts_attempted {strategy ready : S} {run opened : Exploration R A}
    (prepare : Strategy.prepare strategy run = (.ok (), ready, opened)) (count : Nat) :
    Attempts strategy run (attempted ready opened count).1 (attempted ready opened count).2.1
      (attempted ready opened count).2.2 := by
  induction count with
  | zero => exact .prepared prepare
  | succ count inductionHypothesis => exact .attempted inductionHypothesis rfl

variable (R) in
/-- The states that the successful steps among the attempts have processed. -/
def processed (trail : List (S × Except Failure StateId)) : List StateId :=
  trail.filterMap fun entry => if Strategy.hasNext R entry.1 then entry.2.toOption else none

/-- What is driven has been prepared and called. -/
theorem Driven.calls {strategy current : S} {run now : Exploration R A}
    (driven : Driven strategy run current now) :
    ∃ ready opened, Strategy.prepare strategy run = (.ok (), ready, opened) ∧
      Calls ready opened current now := by
  induction driven with
  | prepared prepare => exact ⟨_, _, prepare, .none⟩
  | stepped _ step _ inductionHypothesis =>
      obtain ⟨ready, opened, prepare, calls⟩ := inductionHypothesis
      exact ⟨ready, opened, prepare, calls.called step⟩
  | observed progress stopRequested _ inductionHypothesis =>
      obtain ⟨ready, opened, prepare, calls⟩ := inductionHypothesis
      exact ⟨ready, opened, prepare, calls.observed progress stopRequested⟩

/-- The steps of a play are steps of the strategy, and an exhausted one has no
next step. -/
theorem takeSteps_driven {origin strategy : S} {started run : Exploration R A}
    (allowance steps : Nat) (driven : Driven origin started strategy run)
    (unbroken : ∀ breach,
      (takeSteps allowance steps strategy run).ending ≠ .failed (.breach breach)) :
    Driven origin started (takeSteps allowance steps strategy run).strategy
        (takeSteps allowance steps strategy run).run ∧
      ∀ count, (takeSteps allowance steps strategy run).ending = .ended .exhausted count →
        Strategy.hasNext R (takeSteps allowance steps strategy run).strategy = false := by
  induction allowance generalizing steps strategy run with
  | zero => exact ⟨driven, fun _ ended => by cases ended⟩
  | succ allowance inductionHypothesis =>
      revert unbroken
      unfold takeSteps
      split
      · exact fun _ => ⟨driven, fun _ ended => by cases ended⟩
      split
      · rename_i finished
        exact fun _ => ⟨driven, fun _ _ => by simpa using finished⟩
      split
      · exact fun _ => ⟨driven, fun _ ended => by cases ended⟩
      split
      · rename_i result next later step
        have stepped : Driven origin started next later :=
          .stepped driven step (by simp)
        have tracked : Driven origin started next
            (later.track ({ · with steps := steps + 1 })) :=
          .observed _ later.stopRequested stepped
        exact inductionHypothesis (steps + 1) tracked
      · rename_i next later step
        have stepped : Driven origin started next later :=
          .stepped driven step (by simp)
        exact fun _ => ⟨stepped, fun _ ended => by cases ended⟩
      · rename_i failure next later notInterrupted step
        intro unbroken
        have stepped : Driven origin started next later := by
          refine .stepped driven step ?_
          rintro breach same
          cases same
          exact unbroken breach rfl
        exact ⟨stepped, fun _ ended => by cases ended⟩

/-- A play whose strategy can be prepared drives it. -/
theorem playRun_driven {strategy ready : S} {run opened : Exploration R A} (allowance : Nat)
    (prepare : Strategy.prepare strategy run = (.ok (), ready, opened))
    (unbroken : ∀ breach, (playRun allowance strategy run).ending ≠ .failed (.breach breach)) :
    Driven strategy run (playRun allowance strategy run).strategy
        (playRun allowance strategy run).run ∧
      ∀ count, (playRun allowance strategy run).ending = .ended .exhausted count →
        Strategy.hasNext R (playRun allowance strategy run).strategy = false := by
  revert unbroken
  unfold playRun
  rw [prepare]
  exact takeSteps_driven allowance 0 (.prepared prepare)

theorem playRun_driven_of_ended {strategy : S} {run : Exploration R A} {allowance count : Nat}
    {termination : Termination}
    (prepares : ∃ ready opened, Strategy.prepare strategy run = (.ok (), ready, opened))
    (ending : (playRun allowance strategy run).ending = .ended termination count) :
    Driven strategy run (playRun allowance strategy run).strategy
        (playRun allowance strategy run).run ∧
      (termination = .exhausted →
        Strategy.hasNext R (playRun allowance strategy run).strategy = false) := by
  obtain ⟨ready, opened, prepare⟩ := prepares
  obtain ⟨driven, stops⟩ := playRun_driven allowance prepare (by simp [ending])
  exact ⟨driven, fun exhausted => stops count (by rw [ending, exhausted])⟩

/-! ## Plays -/

omit [Acceptor R A] in
theorem Exploration.begin_eq_ok {space : StateSpace R} {acceptor : A} {config : Config}
    {progress : Option Progress} {stopRequested : Bool} {start : StateId}
    {run : Exploration R A}
    (begins : Exploration.begin space acceptor config progress stopRequested start = .ok run) :
    run.space = space.drainEvents.2 ∧ run.space.contains run.start = true ∧
      run.start = start := by
  unfold Exploration.begin at begins
  split at begins
  · rename_i contained
    cases begins
    exact ⟨rfl, contained, rfl⟩
  · cases begins

omit [Acceptor R A] in
theorem Exploration.history_of_begin {space : StateSpace R} {acceptor : A} {config : Config}
    {progress : Option Progress} {stopRequested : Bool} {start : StateId}
    {run : Exploration R A} (history : space.HasHistory)
    (begins : Exploration.begin space acceptor config progress stopRequested start = .ok run) :
    run.space.HasHistory := by
  rw [(Exploration.begin_eq_ok begins).1]
  exact history.evolves (.single (.drain space))

section Play

variable {explorer : Explorer} {allowance : Nat} {strategy : S} {space : StateSpace R}
  {start : Option StateId} {acceptor : A}

variable (explorer allowance strategy acceptor) in
/-- A play from a stored state makes the steps of the run that it begins. -/
theorem Explorer.play_of_contains
    (contained : space.contains (start.getD StateSpace.startState) = true) :
    ∃ begun : Exploration R A,
      Exploration.begin space (Acceptor.prepare space acceptor) explorer.config explorer.progress
        explorer.stopRequested (start.getD StateSpace.startState) = .ok begun ∧
      (explorer.play allowance strategy space start acceptor).outcome =
        (playRun allowance strategy begun).outcome ∧
      (explorer.play allowance strategy space start acceptor).strategy =
        (playRun allowance strategy begun).strategy ∧
      (explorer.play allowance strategy space start acceptor).space =
        (playRun allowance strategy begun).run.space := by
  unfold Explorer.play Exploration.begin
  simp only [contained, if_true]
  exact ⟨_, rfl, rfl, rfl, rfl⟩

/-- A play with an outcome began at a stored state. -/
theorem Explorer.contains_of_play {outcome : Outcome}
    (ended : (explorer.play allowance strategy space start acceptor).outcome =
      some (.ok outcome)) : space.contains (start.getD StateSpace.startState) = true := by
  cases contained : space.contains (start.getD StateSpace.startState) with
  | true => rfl
  | false =>
      unfold Explorer.play Exploration.begin at ended
      simp [contained] at ended

omit [Strategy R S] in
theorem Stretch.ending_of_outcome {stretch : Stretch R S A} {outcome : Outcome}
    (ended : stretch.outcome = some (.ok outcome)) :
    stretch.ending = .ended outcome.termination outcome.steps := by
  unfold Stretch.outcome at ended
  split at ended
  · rename_i ending
    cases ended
    exact ending
  · cases ended
  · cases ended

end Play

end OnTheFly
