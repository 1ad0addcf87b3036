import OnTheFly.Proofs.StateSpace.Application

/-!
Contract: what a state space with an interruptible engine does to its entries.

Owns: engines that nothing interrupts any more, that no operation looks at the
engine except to apply a match, and that an application is either interrupted,
which changes no entry, or made as without interruptions.
-/

set_option autoImplicit false

namespace OnTheFly

/-- The engine `calm` is what is left of any other once nothing interrupts it.
An application is interrupted, which uses up some of the budget, or it has the
result that it has with the calm engine. -/
structure RuleSystem.Calms (R : RuleSystem) (budget : R.Engine → Nat) (calm : R.Engine) :
    Prop where
  steady (graph : R.Graph) (candidate : R.Match) : (R.apply calm graph candidate).2 = calm
  uninterrupted (graph : R.Graph) (candidate : R.Match) :
    (R.apply calm graph candidate).1 ≠ .error .interrupted
  apply (engine : R.Engine) (graph : R.Graph) (candidate : R.Match) :
    ((R.apply engine graph candidate).1 = .error .interrupted ∧
        budget (R.apply engine graph candidate).2 < budget engine) ∨
      ((R.apply engine graph candidate).1 = (R.apply calm graph candidate).1 ∧
        budget (R.apply engine graph candidate).2 ≤ budget engine)

namespace StateSpace

variable {R : RuleSystem}

/-- The same state space with another engine. -/
def withEngine (space : StateSpace R) (engine : R.Engine) : StateSpace R :=
  { space with engine := engine }

@[simp] theorem withEngine_withEngine (space : StateSpace R) (first second : R.Engine) :
    (space.withEngine first).withEngine second = space.withEngine second := rfl

@[simp] theorem withEngine_engine (space : StateSpace R) : space.withEngine space.engine = space :=
  rfl

@[simp] theorem engine_withEngine (space : StateSpace R) (engine : R.Engine) :
    (space.withEngine engine).engine = engine := rfl

@[simp] theorem info?_withEngine (space : StateSpace R) (engine : R.Engine) :
    (space.withEngine engine).info? = space.info? := rfl

@[simp] theorem pending_withEngine (space : StateSpace R) (engine : R.Engine) :
    (space.withEngine engine).pending = space.pending := rfl

@[simp] theorem graph?_withEngine (space : StateSpace R) (engine : R.Engine) :
    (space.withEngine engine).graph? = space.graph? := rfl

@[simp] theorem isClosed_withEngine (space : StateSpace R) (engine : R.Engine) :
    (space.withEngine engine).isClosed = space.isClosed := rfl

theorem HasHistory.withEngine {space : StateSpace R} (history : space.HasHistory)
    (engine : R.Engine) : (space.withEngine engine).HasHistory :=
  history.evolves (.single (.remind space engine))

theorem close_withEngine (space : StateSpace R) (engine : R.Engine) (state : StateId) :
    (space.withEngine engine).close state = (space.close state).withEngine engine := by
  unfold close
  rw [isClosed_withEngine]
  split <;> rfl

theorem closeIfDone_withEngine (space : StateSpace R) (engine : R.Engine) (state : StateId) :
    (space.withEngine engine).closeIfDone state = (space.closeIfDone state).withEngine engine := by
  unfold closeIfDone
  rw [pending_withEngine]
  split
  · exact close_withEngine space engine state
  · rfl

theorem ensureMatches_withEngine (space : StateSpace R) (engine : R.Engine) (state : StateId) :
    (space.withEngine engine).ensureMatches state =
      (space.ensureMatches state).withEngine engine := by
  unfold ensureMatches
  rw [info?_withEngine]
  cases space.info? state with
  | none => rfl
  | some info =>
      simp only
      split
      · rfl
      · split
        · exact close_withEngine (space.modifyState state
            ({ · with pending := some (R.matchesOf info.graph) })) engine state
        · rfl

theorem insert_withEngine (space : StateSpace R) (engine : R.Engine) (graph : R.Graph)
    (depth : Nat) :
    (space.withEngine engine).insert graph depth =
      ((space.insert graph depth).1, (space.insert graph depth).2.withEngine engine) := by
  unfold insert
  have same : (space.withEngine engine).findStored? graph = space.findStored? graph := rfl
  rw [same]
  cases space.findStored? graph <;> rfl

theorem addTransition_withEngine (space : StateSpace R) (engine : R.Engine) (added : Transition)
    (fresh : Bool) :
    (space.withEngine engine).addTransition added fresh =
      (space.addTransition added fresh).withEngine engine := by
  cases fresh <;> rfl

theorem recordApplication_withEngine (space : StateSpace R) (engine : R.Engine) (state : StateId)
    (position : Nat) (rule : String) (graph : R.Graph) :
    (space.withEngine engine).recordApplication state position rule graph =
      ((space.recordApplication state position rule graph).1,
        (space.recordApplication state position rule graph).2.withEngine engine) := by
  cases inserted : (space.withoutMatch state position).insert (R.canonicalize graph)
      (space.depth state + 1) with
  | mk entry extended =>
      obtain ⟨target, fresh⟩ := entry
      have insertedToo : ((space.withEngine engine).withoutMatch state position).insert
          (R.canonicalize graph) ((space.withEngine engine).depth state + 1) =
            ((target, fresh), extended.withEngine engine) := by
        have same := insert_withEngine (space.withoutMatch state position) engine
          (R.canonicalize graph) (space.depth state + 1)
        rw [inserted] at same
        exact same
      rw [recordApplication_eq_mk _ _ _ _ _ insertedToo, recordApplication_eq_mk _ _ _ _ _ inserted,
        addTransition_withEngine, closeIfDone_withEngine]
      rfl

/-! ## Applications -/

/-- What becomes of a state space, and what it answers, when the engine has
applied the pending match at `position`. -/
def conclude (space : StateSpace R) (state : StateId) (position : Nat) (candidate : R.Match) :
    Except ApplyError R.Graph × R.Engine → Except MatchFailure Applied × StateSpace R
  | (.error error, engine) => (.error (.refused error), space.withEngine engine)
  | (.ok target, engine) =>
      let (applied, later) := (space.withEngine engine).recordApplication state position
        (R.ruleName candidate) target
      (.ok applied, later)

/-- There is nothing to apply, or the engine decides. -/
theorem applyMatch_eq (space : StateSpace R) (state : StateId) (position : Nat) :
    (∀ engine, (space.withEngine engine).applyMatch state position =
        (.error (.outOfRange position state), (space.ensureMatches state).withEngine engine)) ∨
      ∃ graph candidate, ∀ engine, (space.withEngine engine).applyMatch state position =
        (space.ensureMatches state).conclude state position candidate
          (R.apply engine graph candidate) := by
  unfold applyMatch
  simp only [ensureMatches_withEngine, pending_withEngine, graph?_withEngine, engine_withEngine]
  cases ((space.ensureMatches state).pending state)[position]? with
  | none => exact .inl fun _ => rfl
  | some candidate =>
      cases (space.ensureMatches state).graph? state with
      | none => exact .inl fun _ => rfl
      | some graph =>
          refine .inr ⟨graph, candidate, fun engine => ?_⟩
          simp only
          cases R.apply engine graph candidate with
          | mk result after => cases result <;> rfl

/-- What is recorded does not depend on what the engine remembers afterwards. -/
theorem conclude_withEngine (space : StateSpace R) (state : StateId) (position : Nat)
    (candidate : R.Match) (result : Except ApplyError R.Graph) (first second : R.Engine) :
    space.conclude state position candidate (result, second) =
      ((space.conclude state position candidate (result, first)).1,
        (space.conclude state position candidate (result, first)).2.withEngine second) := by
  cases result with
  | error error => rfl
  | ok target =>
      have same := recordApplication_withEngine (space.withEngine first) second state position
        (R.ruleName candidate) target
      simp only [conclude]
      rw [withEngine_withEngine] at same
      rw [same]

theorem engine_conclude (space : StateSpace R) (state : StateId) (position : Nat)
    (candidate : R.Match) (outcome : Except ApplyError R.Graph × R.Engine) :
    (space.conclude state position candidate outcome).2.engine = outcome.2 := by
  obtain ⟨result, engine⟩ := outcome
  rw [conclude_withEngine space state position candidate result engine engine]
  rfl

/-- An application is interrupted, and then no entry changes, or it is made as
with the calm engine. -/
theorem applyMatch_interruptible {budget : R.Engine → Nat} {calm : R.Engine}
    (calms : R.Calms budget calm) (space : StateSpace R) (state : StateId) (position : Nat) :
    (∃ engine, space.applyMatch state position =
        (.error (.refused .interrupted), (space.ensureMatches state).withEngine engine) ∧
      budget engine < budget space.engine) ∨
    ((space.withEngine calm).applyMatch state position =
        ((space.applyMatch state position).1,
          (space.applyMatch state position).2.withEngine calm) ∧
      (space.applyMatch state position).1 ≠ .error (.refused .interrupted) ∧
      budget (space.applyMatch state position).2.engine ≤ budget space.engine) := by
  rcases applyMatch_eq space state position with missing | ⟨graph, candidate, decides⟩
  · have here := missing space.engine
    rw [withEngine_engine] at here
    refine .inr ⟨?_, by simp [here], by simp [here]⟩
    rw [missing calm, here]
    rfl
  · have here := decides space.engine
    rw [withEngine_engine] at here
    have calmly : R.apply calm graph candidate = ((R.apply calm graph candidate).1, calm) :=
      Prod.ext rfl (calms.steady graph candidate)
    have uninterrupted := calms.uninterrupted graph candidate
    have applied := calms.apply space.engine graph candidate
    cases outcome : R.apply space.engine graph candidate with
    | mk result engine =>
        rw [outcome] at here applied
        rcases applied with ⟨interrupted, less⟩ | ⟨alike, fewer⟩
        · cases interrupted
          exact .inl ⟨engine, here, less⟩
        · refine .inr ⟨?_, ?_, ?_⟩
          · rw [decides calm, calmly, ← alike, here]
            exact conclude_withEngine _ _ _ _ _ _ _
          · rw [here]
            rw [← alike] at uninterrupted
            cases result with
            | error error =>
                rintro ⟨⟩
                exact uninterrupted rfl
            | ok target => simp [conclude]
          · rw [here, engine_conclude]
            exact fewer

end StateSpace

end OnTheFly
