import OnTheFly.Proofs.Exploration.Steps

/-!
Contract: the steps of a run, each with all that it started from and led to.

Owns: the stages of a run, that every play consists of them, and that a stage
was reached by those before it.
Does not own: what a strategy does in a stage.
-/

set_option autoImplicit false

namespace OnTheFly

/-- One successful step with all that it started from and led to. -/
structure Stage (R : RuleSystem) (S A : Type) where
  before : S
  run : Exploration R A
  /-- The state that the step processed. -/
  state : StateId
  after : S
  later : Exploration R A

variable {R : RuleSystem} {S A : Type} [Strategy R S] [Acceptor R A]

/-- What a strategy and its run become by successful steps, with the stages on
the way. -/
inductive Staged (strategy : S) (run : Exploration R A) :
    List (Stage R S A) → S → Exploration R A → Prop where
  | prepared {ready : S} {opened : Exploration R A}
      (prepare : Strategy.prepare strategy run = (.ok (), ready, opened)) :
      Staged strategy run [] ready opened
  | stepped {stages : List (Stage R S A)} {current next : S} {now later : Exploration R A}
      {state : StateId} (before : Staged strategy run stages current now)
      (more : Strategy.hasNext R current = true)
      (step : Strategy.doNext current now = (.ok state, next, later)) :
      Staged strategy run (stages ++ [⟨current, now, state, next, later⟩]) next later
  | observed {stages : List (Stage R S A)} {current : S} {now : Exploration R A}
      (change : Progress → Progress) (before : Staged strategy run stages current now) :
      Staged strategy run stages current (now.track change)

/-- The steps of a play are stages. -/
theorem Made.staged {strategy current : S} {run now : Exploration R A}
    {trail : List (S × StateId)} (made : Made strategy run trail current now) :
    ∃ stages, Staged strategy run stages current now ∧
      stages.map (fun stage => (stage.before, stage.state)) = trail := by
  induction made with
  | prepared prepare => exact ⟨[], .prepared prepare, rfl⟩
  | stepped _ more step inductionHypothesis =>
      obtain ⟨stages, before, same⟩ := inductionHypothesis
      exact ⟨_, before.stepped more step, by simp [same]⟩
  | observed change _ inductionHypothesis =>
      obtain ⟨stages, before, same⟩ := inductionHypothesis
      exact ⟨stages, before.observed change, same⟩

omit [Strategy R S] [Acceptor R A] in
theorem states_of_trail {stages : List (Stage R S A)} {trail : List (S × StateId)}
    (same : stages.map (fun stage => (stage.before, stage.state)) = trail) :
    stages.map (·.state) = trail.map (·.2) := by
  rw [← same, List.map_map]
  rfl

/-- The last entry of a list stands behind any other one, or is that one. -/
theorem split_concat {α : Type} {entries earlier later : List α} {last entry : α}
    (same : entries ++ [last] = earlier ++ entry :: later) :
    (later = [] ∧ entries = earlier ∧ last = entry) ∨
      ∃ between, later = between ++ [last] ∧ entries = earlier ++ entry :: between := by
  rcases List.eq_nil_or_concat later with rfl | ⟨between, other, rfl⟩
  · obtain ⟨entries_, last_⟩ := List.append_inj' same rfl
    cases last_
    exact .inl ⟨rfl, entries_, rfl⟩
  · rw [List.concat_eq_append, ← List.cons_append, ← List.append_assoc] at same
    obtain ⟨entries_, last_⟩ := List.append_inj' same rfl
    cases last_
    exact .inr ⟨between, List.concat_eq_append, entries_⟩

/-- Every stage was reached by the stages before it, and by a step. -/
theorem Staged.at_stage {strategy current : S} {run now : Exploration R A}
    {stages earlier later : List (Stage R S A)} {stage : Stage R S A}
    (staged : Staged strategy run stages current now)
    (split_ : stages = earlier ++ stage :: later) :
    Staged strategy run earlier stage.before stage.run ∧
      Strategy.hasNext R stage.before = true ∧
      Strategy.doNext stage.before stage.run = (.ok stage.state, stage.after, stage.later) := by
  induction staged generalizing later with
  | prepared _ => simp at split_
  | stepped before more step inductionHypothesis =>
      rcases split_concat split_ with ⟨_, rfl, rfl⟩ | ⟨between, _, rfl⟩
      · exact ⟨before, more, step⟩
      · exact inductionHypothesis rfl
  | observed _ _ inductionHypothesis => exact inductionHypothesis split_

end OnTheFly
