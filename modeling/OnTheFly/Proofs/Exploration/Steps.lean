import OnTheFly.Proofs.Exploration.Driven

/-!
Contract: the steps that one play makes, and how it halts.

Owns: the sequence of successful steps of a play, the reason for which it halts
after them, and that every play is such a sequence with such a reason.
Does not own: what the steps of a strategy do.
-/

set_option autoImplicit false

namespace OnTheFly

variable {R : RuleSystem} {S A : Type} [Strategy R S] [Acceptor R A]

/-- What a strategy and its run become by successful steps. The trail lists
the strategy before each step and the state that the step processed. -/
inductive Made (strategy : S) (run : Exploration R A) :
    List (S × StateId) → S → Exploration R A → Prop where
  | prepared {ready : S} {opened : Exploration R A}
      (prepare : Strategy.prepare strategy run = (.ok (), ready, opened)) :
      Made strategy run [] ready opened
  | stepped {trail : List (S × StateId)} {current next : S} {now later : Exploration R A}
      {state : StateId} (before : Made strategy run trail current now)
      (more : Strategy.hasNext R current = true)
      (step : Strategy.doNext current now = (.ok state, next, later)) :
      Made strategy run (trail ++ [(current, state)]) next later
  | observed {trail : List (S × StateId)} {current : S} {now : Exploration R A}
      (change : Progress → Progress) (before : Made strategy run trail current now) :
      Made strategy run trail current (now.track change)

theorem Made.driven {strategy current : S} {run now : Exploration R A}
    {trail : List (S × StateId)} (made : Made strategy run trail current now) :
    Driven strategy run current now := by
  induction made with
  | prepared prepare => exact .prepared prepare
  | stepped _ _ step inductionHypothesis => exact .stepped inductionHypothesis step (by simp)
  | @observed _ _ now change _ inductionHypothesis =>
      exact .observed _ now.stopRequested inductionHypothesis

/-! ## Attempts that are steps -/

theorem length_attempted (strategy : S) (run : Exploration R A) (count : Nat) :
    (attempted strategy run count).1.length = count := by
  induction count with
  | zero => rfl
  | succ count inductionHypothesis => simp [attempted, inductionHypothesis]

omit [Acceptor R A] in
/-- One attempt processes a state, as a step does, or nothing. -/
theorem processed_singleton (current : S) (result : Except Failure StateId) :
    (∃ state, Strategy.hasNext R current = true ∧ result = .ok state ∧
      processed R [(current, result)] = [state]) ∨ processed R [(current, result)] = [] := by
  unfold processed
  cases more : Strategy.hasNext R current with
  | false => simp [more]
  | true => cases result <;> simp [more, Except.toOption]

/-- Attempts of which each processes a state are the steps of a run. -/
theorem made_attempted {strategy ready : S} {run opened : Exploration R A}
    (prepare : Strategy.prepare strategy run = (.ok (), ready, opened)) (count : Nat)
    (each : (processed R (attempted ready opened count).1).length = count) :
    ∃ trail, Made strategy run trail (attempted ready opened count).2.1
        (attempted ready opened count).2.2 ∧
      trail.map (·.2) = processed R (attempted ready opened count).1 := by
  induction count with
  | zero => exact ⟨[], .prepared prepare, rfl⟩
  | succ count inductionHypothesis =>
      have few : (processed R (attempted ready opened count).1).length ≤ count :=
        Nat.le_trans (List.length_filterMap_le _ _)
          (Nat.le_of_eq (length_attempted ready opened count))
      have split_ : processed R (attempted ready opened (count + 1)).1 =
          processed R (attempted ready opened count).1 ++
            processed R [((attempted ready opened count).2.1,
              (Strategy.doNext (attempted ready opened count).2.1
                (attempted ready opened count).2.2).1)] :=
        List.filterMap_append
      rw [split_] at each ⊢
      rw [List.length_append] at each
      rcases processed_singleton (R := R) (attempted ready opened count).2.1
        (Strategy.doNext (attempted ready opened count).2.1
          (attempted ready opened count).2.2).1 with ⟨state, more, answer, one⟩ | nothing
      · rw [one, List.length_singleton] at each
        obtain ⟨trail, made, same⟩ := inductionHypothesis (Nat.succ.inj each)
        refine ⟨_, made.stepped more (Prod.ext answer rfl), ?_⟩
        simp [same, one]
      · rw [nothing, List.length_nil] at each
        omega

/-! ## Halting -/

/-- Why steps come to a halt after `count` of them. -/
inductive Halts (count : Nat) (strategy : S) (run : Exploration R A) :
    Stretch R S A → Prop where
  | unfinished : Halts count strategy run ⟨.unfinished, strategy, run⟩
  | accepted (done : Acceptor.done (R := R) run.acceptor = true) :
      Halts count strategy run ⟨.ended .accepted count, strategy, run⟩
  | exhausted (finished : Strategy.hasNext R strategy = false) :
      Halts count strategy run ⟨.ended .exhausted count, strategy, run⟩
  | stopped (stop : run.mustStop = true) :
      Halts count strategy run ⟨.ended .interrupted count, strategy, run⟩
  | interrupted {next : S} {later : Exploration R A} (more : Strategy.hasNext R strategy = true)
      (step : Strategy.doNext strategy run = (.error (.error .interrupted), next, later)) :
      Halts count strategy run ⟨.ended .interrupted count, next, later⟩
  | failed {failure : Failure} {next : S} {later : Exploration R A}
      (more : Strategy.hasNext R strategy = true)
      (step : Strategy.doNext strategy run = (.error failure, next, later)) :
      Halts count strategy run ⟨.failed failure, next, later⟩

/-- Steps are made until there is a reason to halt. -/
theorem takeSteps_made {origin strategy : S} {started run : Exploration R A}
    {trail : List (S × StateId)} (allowance : Nat)
    (made : Made origin started trail strategy run) :
    ∃ more last final, Made origin started (trail ++ more) last final ∧
      Halts (trail ++ more).length last final
        (takeSteps allowance trail.length strategy run) ∧
      ((takeSteps allowance trail.length strategy run).ending = .unfinished →
        more.length = allowance) := by
  induction allowance generalizing trail strategy run with
  | zero => exact ⟨[], strategy, run, by simpa using made, by simpa using .unfinished, by simp⟩
  | succ allowance inductionHypothesis =>
      have here : ∀ stretch : Stretch R S A, Halts trail.length strategy run stretch →
          stretch.ending ≠ .unfinished →
          ∃ more last final, Made origin started (trail ++ more) last final ∧
            Halts (trail ++ more).length last final stretch ∧
            (stretch.ending = .unfinished → more.length = allowance + 1) := by
        intro stretch halts finished
        exact ⟨[], strategy, run, by simpa using made, by simpa using halts,
          fun unfinished => absurd unfinished finished⟩
      unfold takeSteps
      split
      · rename_i done
        exact here _ (.accepted done) (by simp)
      split
      · rename_i finished
        exact here _ (.exhausted (by simpa using finished)) (by simp)
      split
      · rename_i stop
        exact here _ (.stopped stop) (by simp)
      rename_i more _
      have hasNext : Strategy.hasNext R strategy = true := by simpa using more
      split
      · rename_i state next later step
        have stepped : Made origin started (trail ++ [(strategy, state)]) next later :=
          .stepped made hasNext step
        have tracked := stepped.observed ({ · with steps := trail.length + 1 })
        obtain ⟨others, last, final, madeAll, halts, used⟩ := inductionHypothesis tracked
        have length : (trail ++ [(strategy, state)]).length = trail.length + 1 := by simp
        rw [List.append_assoc] at madeAll halts
        rw [length] at halts used
        refine ⟨(strategy, state) :: others, last, final, madeAll, halts, ?_⟩
        intro unfinished
        rw [List.length_cons, used unfinished]
      · rename_i next later step
        exact here _ (.interrupted hasNext step) (by simp)
      · rename_i failure next later _ step
        exact here _ (.failed hasNext step) (by simp)

/-- A strategy with nothing next stays as it is. -/
theorem takeSteps_of_not_hasNext {strategy : S} (finished : Strategy.hasNext R strategy = false)
    (allowance steps : Nat) (run : Exploration R A) :
    (takeSteps allowance steps strategy run).strategy = strategy := by
  cases allowance with
  | zero => rfl
  | succ allowance =>
      unfold takeSteps
      rw [finished]
      simp only [Bool.not_false, if_true]
      split <;> rfl

/-- A run whose strategy can be prepared makes steps until there is a reason
to halt. -/
theorem playRun_made {strategy ready : S} {run opened : Exploration R A} (allowance : Nat)
    (prepare : Strategy.prepare strategy run = (.ok (), ready, opened)) :
    ∃ trail last final, Made strategy run trail last final ∧
      Halts trail.length last final (playRun allowance strategy run) ∧
      ((playRun allowance strategy run).ending = .unfinished → trail.length = allowance) := by
  obtain ⟨trail, last, final, made, halts, used⟩ :=
    takeSteps_made allowance (Made.prepared prepare)
  refine ⟨trail, last, final, made, ?_, ?_⟩ <;> unfold playRun <;> rw [prepare]
  · exact halts
  · exact used

theorem Made.attempts {strategy current : S} {run now : Exploration R A}
    {trail : List (S × StateId)} (made : Made strategy run trail current now) :
    ∃ attempts, Attempts strategy run attempts current now := by
  induction made with
  | prepared prepare => exact ⟨_, .prepared prepare⟩
  | stepped _ _ step inductionHypothesis =>
      obtain ⟨attempts, before⟩ := inductionHypothesis
      exact ⟨_, before.attempted step⟩
  | @observed _ _ now change _ inductionHypothesis =>
      obtain ⟨attempts, before⟩ := inductionHypothesis
      exact ⟨_, before.observed _ now.stopRequested⟩

/-- However it halts, a run whose strategy can be prepared consists of attempts. -/
theorem playRun_attempts {strategy ready : S} {run opened : Exploration R A} (allowance : Nat)
    (prepare : Strategy.prepare strategy run = (.ok (), ready, opened)) :
    ∃ trail, Attempts strategy run trail (playRun allowance strategy run).strategy
      (playRun allowance strategy run).run := by
  obtain ⟨_, last, final, made, halts, _⟩ := playRun_made allowance prepare
  obtain ⟨trail, attempts⟩ := made.attempts
  generalize playRun allowance strategy run = stretch at halts ⊢
  cases halts with
  | interrupted _ step => exact ⟨_, attempts.attempted step⟩
  | failed _ step => exact ⟨_, attempts.attempted step⟩
  | _ => exact ⟨trail, attempts⟩

/-- A strategy whose steps succeed and are fewer than allowed is played to the
end, until the acceptor has enough, or until the run has to stop. -/
theorem playRun_ends_of_made {strategy ready : S} {run opened : Exploration R A} {allowance : Nat}
    (prepare : Strategy.prepare strategy run = (.ok (), ready, opened))
    (few : ∀ trail last final, Made strategy run trail last final → trail.length < allowance)
    (succeeds : ∀ trail last final, Made strategy run trail last final →
      Strategy.hasNext R last = true → ∃ state, (Strategy.doNext last final).1 = .ok state) :
    ∃ trail termination, Made strategy run trail (playRun allowance strategy run).strategy
        (playRun allowance strategy run).run ∧
      (playRun allowance strategy run).ending = .ended termination trail.length ∧
      ((termination = .exhausted ∧
          Strategy.hasNext R (playRun allowance strategy run).strategy = false) ∨
        (termination = .accepted ∧
          Acceptor.done (R := R) (playRun allowance strategy run).run.acceptor = true) ∨
        (termination = .interrupted ∧ (playRun allowance strategy run).run.mustStop = true)) := by
  obtain ⟨trail, last, final, made, halts, used⟩ := playRun_made allowance prepare
  have short := few trail last final made
  have unbroken := succeeds trail last final made
  generalize playRun allowance strategy run = stretch at halts used ⊢
  cases halts with
  | unfinished =>
      have all := used rfl
      omega
  | accepted done => exact ⟨trail, .accepted, made, rfl, .inr (.inl ⟨rfl, done⟩)⟩
  | exhausted finished => exact ⟨trail, .exhausted, made, rfl, .inl ⟨rfl, finished⟩⟩
  | stopped stop => exact ⟨trail, .interrupted, made, rfl, .inr (.inr ⟨rfl, stop⟩)⟩
  | interrupted more step =>
      obtain ⟨state, ok⟩ := unbroken more
      rw [step] at ok
      cases ok
  | failed more step =>
      obtain ⟨state, ok⟩ := unbroken more
      rw [step] at ok
      cases ok

/-- An exhausted run has made all its steps. -/
theorem playRun_exhausted_made {strategy : S} {run : Exploration R A} {allowance count : Nat}
    (ending : (playRun allowance strategy run).ending = .ended .exhausted count) :
    ∃ trail, Made strategy run trail (playRun allowance strategy run).strategy
        (playRun allowance strategy run).run ∧
      trail.length = count ∧
      Strategy.hasNext R (playRun allowance strategy run).strategy = false := by
  cases prepare : Strategy.prepare strategy run with
  | mk result rest =>
      obtain ⟨ready, opened⟩ := rest
      cases result with
      | ok _ =>
          obtain ⟨trail, last, final, made, halts, _⟩ := playRun_made allowance prepare
          generalize playRun allowance strategy run = stretch at halts ending ⊢
          cases halts with
          | exhausted finished =>
              cases ending
              exact ⟨trail, made, rfl, finished⟩
          | _ => cases ending
      | error error =>
          unfold playRun at ending
          rw [prepare] at ending
          cases error <;> cases ending

/-! ## Plays -/

section Play

variable {explorer : Explorer} {allowance : Nat} {strategy : S} {space : StateSpace R}
  {start : Option StateId} {acceptor : A} {begun : Exploration R A}

/-- The run that a play begins. -/
def Explorer.Begins (explorer : Explorer) (space : StateSpace R) (start : Option StateId)
    (acceptor : A) (begun : Exploration R A) : Prop :=
  Exploration.begin space (Acceptor.prepare space acceptor) explorer.config explorer.progress
    explorer.stopRequested (start.getD StateSpace.startState) = .ok begun

theorem Explorer.Begins.spec (begins : explorer.Begins space start acceptor begun) :
    begun.space = space.drainEvents.2 ∧ begun.start = start.getD StateSpace.startState ∧
      begun.config = explorer.config ∧ begun.space.contains begun.start = true ∧
      ∀ state, begun.isKnown state = begun.space.contains state := by
  unfold Explorer.Begins Exploration.begin at begins
  split at begins
  · rename_i contained
    cases begins
    refine ⟨rfl, rfl, rfl, contained, fun state => ?_⟩
    by_cases inside : state.index < space.states.size <;>
      simp [Exploration.isKnown, StateSpace.contains, StateSpace.size, StateSpace.drainEvents,
        inside]
  · cases begins

theorem Explorer.Begins.acceptor_eq (begins : explorer.Begins space start acceptor begun) :
    begun.acceptor = Acceptor.prepare space acceptor := by
  unfold Explorer.Begins Exploration.begin at begins
  split at begins
  · cases begins
    rfl
  · cases begins

theorem Explorer.begins_of_contains (explorer : Explorer) (acceptor : A)
    (contained : space.contains (start.getD StateSpace.startState) = true) :
    ∃ begun, explorer.Begins space start acceptor begun := by
  unfold Explorer.Begins Exploration.begin
  rw [if_pos contained]
  exact ⟨_, rfl⟩

theorem Explorer.Begins.play (begins : explorer.Begins space start acceptor begun)
    (allowance : Nat) (strategy : S) :
    (explorer.play allowance strategy space start acceptor).outcome =
        (playRun allowance strategy begun).outcome ∧
      (explorer.play allowance strategy space start acceptor).strategy =
        (playRun allowance strategy begun).strategy ∧
      (explorer.play allowance strategy space start acceptor).space =
        (playRun allowance strategy begun).run.space ∧
      (explorer.play allowance strategy space start acceptor).acceptor =
        (playRun allowance strategy begun).run.acceptor ∧
      (explorer.play allowance strategy space start acceptor).explorer.stopRequested =
        (playRun allowance strategy begun).run.stopRequested := by
  unfold Explorer.Begins at begins
  unfold Explorer.play
  simp [begins]

theorem Explorer.config_play :
    (explorer.play allowance strategy space start acceptor).explorer.config = explorer.config := by
  unfold Explorer.play
  simp only
  split <;> rfl

/-- An exhausted play has made all its steps. -/
theorem Explorer.play_made {outcome : Outcome}
    (ended : (explorer.play allowance strategy space start acceptor).outcome =
      some (.ok outcome)) (exhausted : outcome.termination = .exhausted) :
    ∃ begun trail final, explorer.Begins space start acceptor begun ∧
      Made strategy begun trail
        (explorer.play allowance strategy space start acceptor).strategy final ∧
      final.space = (explorer.play allowance strategy space start acceptor).space ∧
      trail.length = outcome.steps ∧
      Strategy.hasNext R (explorer.play allowance strategy space start acceptor).strategy =
        false := by
  obtain ⟨begun, begins⟩ := explorer.begins_of_contains acceptor (Explorer.contains_of_play ended)
  obtain ⟨sameOutcome, sameStrategy, sameSpace, _⟩ := begins.play allowance strategy
  rw [sameOutcome] at ended
  have ending := Stretch.ending_of_outcome ended
  rw [exhausted] at ending
  obtain ⟨trail, made, length, finished⟩ := playRun_exhausted_made ending
  rw [sameStrategy, sameSpace]
  exact ⟨begun, trail, _, begins, made, rfl, length, finished⟩

/-- A play that meets a breach meets it in a step of the strategy. -/
theorem Explorer.play_breach {breach : Breach}
    (broken : (explorer.play allowance strategy space start acceptor).outcome =
      some (.error (.breach breach))) :
    ∃ begun last final, explorer.Begins space start acceptor begun ∧
      Driven strategy begun last final ∧
      (Strategy.doNext last final).1 = .error (.breach breach) := by
  cases contained : space.contains (start.getD StateSpace.startState) with
  | false =>
      unfold Explorer.play Exploration.begin at broken
      simp [contained] at broken
  | true =>
      obtain ⟨begun, begins⟩ := explorer.begins_of_contains acceptor contained
      rw [(begins.play allowance strategy).1] at broken
      cases prepare : Strategy.prepare strategy begun with
      | mk result rest =>
          obtain ⟨ready, opened⟩ := rest
          cases result with
          | ok _ =>
              obtain ⟨trail, last, final, made, halts, _⟩ := playRun_made allowance prepare
              generalize playRun allowance strategy begun = stretch at halts broken
              cases halts with
              | failed more step =>
                  cases broken
                  exact ⟨begun, last, final, begins, made.driven, congrArg Prod.fst step⟩
              | _ => cases broken
          | error error =>
              unfold playRun at broken
              rw [prepare] at broken
              cases error <;> cases broken

/-- A play whose steps are fewer than allowed has an outcome. -/
theorem Explorer.play_answers
    (few : ∀ begun trail last final, explorer.Begins space start acceptor begun →
      Made strategy begun trail last final → trail.length < allowance) :
    ∃ result, (explorer.play allowance strategy space start acceptor).outcome = some result := by
  cases contained : space.contains (start.getD StateSpace.startState) with
  | false =>
      unfold Explorer.play Exploration.begin
      simp [contained]
  | true =>
      obtain ⟨begun, begins⟩ := explorer.begins_of_contains acceptor contained
      rw [(begins.play allowance strategy).1]
      cases prepare : Strategy.prepare strategy begun with
      | mk result rest =>
          obtain ⟨ready, opened⟩ := rest
          cases result with
          | ok _ =>
              obtain ⟨trail, last, final, made, halts, used⟩ := playRun_made allowance prepare
              have short := few begun trail last final begins made
              generalize playRun allowance strategy begun = stretch at halts used ⊢
              cases halts with
              | unfinished =>
                  have all := used rfl
                  omega
              | _ => exact ⟨_, rfl⟩
          | error error =>
              unfold playRun
              rw [prepare]
              cases error <;> exact ⟨_, rfl⟩

/-- Whether a play was not kept from going on until something was `reported`:
nobody stopped it, and its acceptor did not have enough before. -/
def Played.UnhinderedUntil (played : Played R S A) (reported : Bool) : Prop :=
  (Acceptor.done (R := R) played.acceptor = true → reported = true) ∧
    (played.explorer.config.heedsStop && played.explorer.stopRequested) = false

/-- A play whose steps succeed and are fewer than allowed ends by itself, and
only because the acceptor has enough or the run has to stop does it end before
all steps are made. -/
theorem Explorer.Begins.play_ends (begins : explorer.Begins space start acceptor begun)
    (allowance : Nat) (strategy : S) {ready : S} {opened : Exploration R A}
    (prepare : Strategy.prepare strategy begun = (.ok (), ready, opened))
    (few : ∀ trail last final, Made strategy begun trail last final → trail.length < allowance)
    (succeeds : ∀ trail last final, Made strategy begun trail last final →
      Strategy.hasNext R last = true → ∃ state, (Strategy.doNext last final).1 = .ok state) :
    ∃ outcome trail final,
      (explorer.play allowance strategy space start acceptor).outcome = some (.ok outcome) ∧
      Made strategy begun trail
        (explorer.play allowance strategy space start acceptor).strategy final ∧
      final.space = (explorer.play allowance strategy space start acceptor).space ∧
      final.acceptor = (explorer.play allowance strategy space start acceptor).acceptor ∧
      outcome.steps = trail.length ∧
      (Acceptor.done (R := R)
          (explorer.play allowance strategy space start acceptor).acceptor = false →
        (final.config.heedsStop &&
          (explorer.play allowance strategy space start acceptor).explorer.stopRequested) =
            false →
        outcome.termination = .exhausted) := by
  obtain ⟨trail, termination, made, ending, reason⟩ := playRun_ends_of_made prepare few succeeds
  obtain ⟨sameOutcome, sameStrategy, sameSpace, sameAcceptor, sameStop⟩ :=
    begins.play allowance strategy
  rw [sameOutcome, sameStrategy, sameSpace, sameAcceptor, sameStop, Stretch.outcome, ending]
  refine ⟨_, trail, _, rfl, made, rfl, rfl, rfl, fun notDone notStopped => ?_⟩
  rcases reason with ⟨exhausted, _⟩ | ⟨_, done⟩ | ⟨_, stop⟩
  · exact exhausted
  · rw [done] at notDone
    cases notDone
  · rw [Exploration.mustStop, notStopped] at stop
    cases stop

end Play

end OnTheFly
