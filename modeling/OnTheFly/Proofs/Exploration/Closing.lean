import OnTheFly.Exploration.Basic
import OnTheFly.Proofs.StateSpace.Application

/-!
Contract: what a run can do to its state space.

Owns: that the operations of a run are operations on its state space and leave
its start and its configuration alone, and that closing a state closes it.
-/

set_option autoImplicit false

namespace OnTheFly

/-- What an engine can remember after any applications. -/
inductive RuleSystem.After (R : RuleSystem) (engine : R.Engine) : R.Engine → Prop where
  | now : R.After engine engine
  | apply {current : R.Engine} (graph : R.Graph) (candidate : R.Match)
      (before : R.After engine current) : R.After engine (R.apply current graph candidate).2

theorem RuleSystem.After.trans {R : RuleSystem} {first second third : R.Engine}
    (before : R.After first second) (after : R.After second third) : R.After first third := by
  induction after with
  | now => exact before
  | apply graph candidate _ inductionHypothesis => exact inductionHypothesis.apply graph candidate

/-- Whether from now on every match of every reachable graph can be applied. -/
def RuleSystem.Succeeds (R : RuleSystem) (engine : R.Engine) : Prop :=
  ∀ later, R.After engine later → ∀ (graph : R.Graph) (candidate : R.Match), R.Reachable graph →
    candidate ∈ R.matchesOf graph → ∃ target, (R.apply later graph candidate).1 = .ok target

theorem RuleSystem.Succeeds.after {R : RuleSystem} {engine later : R.Engine}
    (succeeds : R.Succeeds engine) (after : R.After engine later) : R.Succeeds later :=
  fun last further => succeeds last (after.trans further)

namespace StateSpace

variable {R : RuleSystem}

/-- A pending match can be applied if all matches can. -/
theorem WellFormed.applyMatch_succeeds {space : StateSpace R} (wellFormed : space.WellFormed)
    {state : StateId} {position : Nat} (succeeds : R.Succeeds space.engine)
    (inRange : position < ((space.ensureMatches state).pending state).length) :
    ∃ applied, (space.applyMatch state position).1 = .ok applied := by
  have asked := (wellFormed.ensureMatches state).wellFormed
  obtain ⟨candidate, found⟩ : ∃ candidate,
      ((space.ensureMatches state).pending state)[position]? = some candidate :=
    ⟨_, List.getElem?_eq_getElem inRange⟩
  cases present : (space.ensureMatches state).info? state with
  | none => simp [pending, present] at inRange
  | some info =>
      have stored : (space.ensureMatches state).graph? state = some info.graph :=
        graph?_eq_some.2 ⟨info, present, rfl⟩
      have offered : candidate ∈ R.matchesOf info.graph := by
        have member := List.mem_of_getElem? found
        rw [pending_of_info? present] at member
        cases pending_ : info.pending with
        | none => simp [pending_] at member
        | some candidates =>
            rw [pending_] at member
            exact asked.pending_offered present pending_ candidate member
      obtain ⟨target, applies⟩ :=
        succeeds _ .now info.graph candidate (asked.reachable stored) offered
      unfold StateSpace.applyMatch
      simp only [found, stored, engine_ensureMatches]
      cases outcome : R.apply space.engine info.graph candidate with
      | mk result engine =>
          rw [outcome] at applies
          cases applies
          exact ⟨_, rfl⟩

/-- A match that is applied leaves the others of its state pending. -/
theorem applyMatch_first {space : StateSpace R} (wellFormed : space.WellFormed)
    {state : StateId} (asked : space.Asked state) :
    (∀ applied, (space.applyMatch state 0).1 = .ok applied →
      (space.applyMatch state 0).2.Asked state ∧
        (space.applyMatch state 0).2.pending state = (space.pending state).tail ∧
        space.pending state ≠ []) ∧
      (R.Succeeds space.engine → space.pending state ≠ [] →
        ∃ applied, (space.applyMatch state 0).1 = .ok applied) := by
  have unchanged := asked.ensureMatches
  refine ⟨?_, fun succeeds some_ => wellFormed.applyMatch_succeeds succeeds ?_⟩
  · obtain ⟨info, candidates, present, pending_⟩ := asked
    have stored : space.graph? state = some info.graph := graph?_eq_some.2 ⟨info, present, rfl⟩
    have waiting : space.pending state = candidates := by
      rw [pending_of_info? present, pending_]
      rfl
    unfold applyMatch
    simp only [unchanged, waiting, stored]
    cases candidates with
    | nil => simp
    | cons candidate others =>
        have isOpen : info.closed = false := by
          rw [Bool.eq_false_iff]
          intro closed
          rw [wellFormed.closed_done present closed] at pending_
          cases pending_
        simp only [List.getElem?_cons_zero]
        cases R.apply space.engine info.graph candidate with
        | mk result engine =>
            cases result with
            | error error => simp
            | ok target =>
                have presentAfter :
                    info? { space with engine := engine } state = some info := present
                obtain ⟨askedAfter, pendingAfter⟩ := pending_recordApplication 0
                  (R.ruleName candidate) target presentAfter pending_ isOpen
                exact fun _ _ => ⟨askedAfter, pendingAfter, by simp⟩
  · rw [unchanged]
    exact List.length_pos_iff.2 some_

/-- A pending match is applied or refused, but not out of range. -/
theorem applyMatch_inRange (space : StateSpace R) {state : StateId} {position : Nat}
    (inRange : position < ((space.ensureMatches state).pending state).length) (wrong : Nat)
    (other : StateId) : (space.applyMatch state position).1 ≠ .error (.outOfRange wrong other) := by
  obtain ⟨candidate, found⟩ : ∃ candidate,
      ((space.ensureMatches state).pending state)[position]? = some candidate :=
    ⟨_, List.getElem?_eq_getElem inRange⟩
  obtain ⟨graph, stored⟩ : ∃ graph, (space.ensureMatches state).graph? state = some graph := by
    cases present : (space.ensureMatches state).info? state with
    | none => simp [pending, present] at inRange
    | some info => exact ⟨info.graph, graph?_eq_some.2 ⟨info, present, rfl⟩⟩
  unfold applyMatch
  simp only [found, stored]
  split <;> simp

@[simp] theorem engine_recordApplication (space : StateSpace R) (state : StateId)
    (position : Nat) (rule : String) (graph : R.Graph) :
    (space.recordApplication state position rule graph).2.engine = space.engine := by
  have inserted : ∀ (earlier : StateSpace R) (graph : R.Graph) (depth : Nat),
      (earlier.insert graph depth).2.engine = earlier.engine := by
    intro earlier graph depth
    unfold StateSpace.insert
    split <;> rfl
  have connected : ∀ (earlier : StateSpace R) (transition : Transition) (fresh : Bool),
      (earlier.addTransition transition fresh).engine = earlier.engine := by
    intro earlier transition fresh
    cases fresh <;> rfl
  have closed : ∀ earlier : StateSpace R, (earlier.closeIfDone state).engine = earlier.engine := by
    intro earlier
    unfold closeIfDone close
    split
    · split <;> rfl
    · rfl
  unfold recordApplication
  simp only [closed, connected, inserted]
  rfl

/-- One application is all that the engine is asked for. -/
theorem engine_applyMatch_eq {space : StateSpace R} {state : StateId} {position : Nat}
    {info : StateInfo R} {candidate : R.Match}
    (present : (space.ensureMatches state).info? state = some info)
    (found : ((space.ensureMatches state).pending state)[position]? = some candidate) :
    (space.applyMatch state position).2.engine =
      (R.apply space.engine info.graph candidate).2 := by
  have stored : (space.ensureMatches state).graph? state = some info.graph :=
    graph?_eq_some.2 ⟨info, present, rfl⟩
  unfold applyMatch
  simp only [found, stored, engine_ensureMatches]
  cases R.apply space.engine info.graph candidate with
  | mk result engine => cases result <;> simp

/-- Applying a match takes the engine on by one application at most. -/
theorem engine_applyMatch (space : StateSpace R) (state : StateId) (position : Nat) :
    R.After space.engine (space.applyMatch state position).2.engine := by
  unfold applyMatch
  simp only
  split
  · rename_i candidate graph _ _
    have applied : R.After space.engine
        (R.apply (space.ensureMatches state).engine graph candidate).2 := by
      rw [engine_ensureMatches]
      exact .apply graph candidate .now
    split <;> rename_i outcome <;> rw [outcome] at applied
    · exact applied
    · simp only [engine_recordApplication]
      exact applied
  · rw [engine_ensureMatches]
    exact .now

end StateSpace

namespace Exploration

variable {R : RuleSystem} {A : Type}

/-- What an operation of a run leaves alone, and that it works on the state
space by the operations of the latter. -/
structure Advances (run later : Exploration R A) : Prop where
  space : run.space.Evolves later.space
  engine : R.After run.space.engine later.space.engine
  start : later.start = run.start
  config : later.config = run.config
  known : later.known = run.known

theorem Advances.refl (run : Exploration R A) : run.Advances run :=
  ⟨.refl, .now, rfl, rfl, rfl⟩

theorem Advances.trans {first second third : Exploration R A} (before : first.Advances second)
    (after : second.Advances third) : first.Advances third :=
  ⟨before.space.trans after.space, before.engine.trans after.engine,
    after.start.trans before.start, after.config.trans before.config,
    after.known.trans before.known⟩

theorem advances_track (run : Exploration R A) (change : Progress → Progress) :
    run.Advances (run.track change) :=
  ⟨.refl, .now, rfl, rfl, rfl⟩

variable [Acceptor R A]

theorem foldl_deliver (run : Exploration R A) (events : List Event) :
    (events.foldl deliver run).space = run.space ∧
      (events.foldl deliver run).start = run.start ∧
      (events.foldl deliver run).config = run.config ∧
      (events.foldl deliver run).known = run.known := by
  induction events generalizing run with
  | nil => exact ⟨rfl, rfl, rfl, rfl⟩
  | cons event events inductionHypothesis =>
      exact inductionHypothesis (run.deliver event)

theorem dispatch_space (run : Exploration R A) :
    run.dispatch.space = run.space.drainEvents.2 :=
  (foldl_deliver _ _).1

theorem advances_dispatch (run : Exploration R A) : run.Advances run.dispatch where
  space := by
    rw [dispatch_space]
    exact .single (.drain run.space)
  engine := by
    rw [dispatch_space]
    exact .now
  start := (foldl_deliver _ _).2.1
  config := (foldl_deliver _ _).2.2.1
  known := (foldl_deliver _ _).2.2.2

theorem advances_pendingCount (run : Exploration R A) (state : StateId) :
    run.Advances (run.pendingCount state).2 := by
  have asked : run.Advances { run with space := run.space.ensureMatches state } :=
    ⟨.single (.ask run.space state), by rw [StateSpace.engine_ensureMatches]; exact .now, rfl, rfl,
      rfl⟩
  exact asked.trans (advances_dispatch _)

theorem advances_applyMatch (run : Exploration R A) (state : StateId) (position : Nat) :
    run.Advances (run.applyMatch state position).2 := by
  have applied : run.Advances { run with space := (run.space.applyMatch state position).2 } :=
    ⟨.single (.apply run.space state position), run.space.engine_applyMatch state position, rfl,
      rfl, rfl⟩
  unfold applyMatch
  split <;> rename_i outcome <;> rw [outcome] at applied
  · exact applied.trans (advances_dispatch _)
  · exact applied.trans (advances_dispatch _)
  · exact applied

theorem advances_applyFirst (state : StateId) (count : Nat) (run : Exploration R A) :
    run.Advances (applyFirst state count run).2 := by
  induction count generalizing run with
  | zero => exact .refl run
  | succ count inductionHypothesis =>
      have first := advances_applyMatch run state 0
      unfold applyFirst
      split <;> rename_i outcome <;> rw [outcome] at first
      · exact first
      · rename_i next
        have others := inductionHypothesis next
        split <;> rename_i rest <;> rw [rest] at others
        · exact first.trans others
        · exact first.trans others

theorem advances_closeState (run : Exploration R A) (state : StateId) :
    run.Advances (run.closeState state).2 :=
  (advances_pendingCount run state).trans (advances_applyFirst state _ _)

/-- A run applies a match exactly when its state space does. -/
theorem applyMatch_ok_iff (run : Exploration R A) (state : StateId) (position : Nat)
    (applied : Applied) :
    (run.applyMatch state position).1 = .ok applied ↔
      (run.space.applyMatch state position).1 = .ok applied := by
  unfold applyMatch
  split <;> rename_i outcome <;> simp [outcome]

theorem applyMatch_space_of_ok {run : Exploration R A} {state : StateId} {position : Nat}
    {applied : Applied} (ok : (run.applyMatch state position).1 = .ok applied) :
    (run.applyMatch state position).2.space =
      (run.space.applyMatch state position).2.drainEvents.2 := by
  unfold applyMatch at ok ⊢
  split <;> rename_i outcome <;> simp [outcome, dispatch_space] at ok ⊢

/-- An applied match leaves one less to apply. -/
theorem applyMatch_asked {run : Exploration R A} {state : StateId} {applied : Applied}
    (history : run.space.HasHistory) (asked : run.space.Asked state)
    (ok : (run.applyMatch state 0).1 = .ok applied) :
    (run.applyMatch state 0).2.space.Asked state ∧
      ((run.applyMatch state 0).2.space.pending state).length =
        (run.space.pending state).length - 1 := by
  obtain ⟨askedAfter, pendingAfter, _⟩ :=
    (StateSpace.applyMatch_first history.wellFormed asked).1 applied
      ((applyMatch_ok_iff run state 0 applied).1 ok)
  rw [applyMatch_space_of_ok ok]
  refine ⟨askedAfter, ?_⟩
  change ((run.space.applyMatch state 0).2.pending state).length = _
  rw [pendingAfter, List.length_tail]

/-- As many applications as there are matches close the state. -/
theorem applyFirst_closes {state : StateId} {count : Nat} {run : Exploration R A}
    (history : run.space.HasHistory) (asked : run.space.Asked state)
    (waiting : (run.space.pending state).length = count) :
    (∀ applied, (applyFirst state count run).1 = .ok applied →
      (applyFirst state count run).2.space.isClosed state = true) ∧
      (R.Succeeds run.space.engine →
        ∃ applied, (applyFirst state count run).1 = .ok applied) := by
  induction count generalizing run with
  | zero =>
      have nothing : run.space.pending state = [] := List.length_eq_zero_iff.1 waiting
      exact ⟨fun _ _ => asked.isClosed history.prompt nothing, fun _ => ⟨[], rfl⟩⟩
  | succ count inductionHypothesis =>
      have succeeding := (StateSpace.applyMatch_first history.wellFormed asked).2
      have advances := advances_applyMatch run state 0
      have step := fun applied (ok : (run.applyMatch state 0).1 = .ok applied) =>
        applyMatch_asked history asked ok
      rw [waiting, Nat.add_sub_cancel] at step
      unfold applyFirst
      cases outcome : run.applyMatch state 0 with
      | mk result next =>
          rw [outcome] at step advances
          cases result with
          | error failure =>
              refine ⟨by simp, ?_⟩
              intro succeeds
              have some_ : run.space.pending state ≠ [] := by
                rintro nothing
                simp [nothing] at waiting
              obtain ⟨applied, ok⟩ := succeeding succeeds some_
              have runOk := (applyMatch_ok_iff run state 0 applied).2 ok
              rw [outcome] at runOk
              cases runOk
          | ok applied =>
              obtain ⟨askedAfter, waitingAfter⟩ := step applied rfl
              obtain ⟨closes, completes⟩ := inductionHypothesis
                (history.evolves advances.space) askedAfter waitingAfter
              simp only
              cases rest : applyFirst state count next with
              | mk restResult final =>
                  rw [rest] at closes completes
                  cases restResult with
                  | error failure =>
                      refine ⟨by simp, ?_⟩
                      intro succeeds
                      obtain ⟨others, impossible⟩ := completes (succeeds.after advances.engine)
                      cases impossible
                  | ok others => exact ⟨fun _ _ => closes others rfl, fun _ => ⟨_, rfl⟩⟩

/-- A match within range is applied or refused. -/
theorem applyMatch_unbroken {run : Exploration R A} {state : StateId} {position : Nat}
    (inRange : position < ((run.space.ensureMatches state).pending state).length)
    (breach : Breach) : (run.applyMatch state position).1 ≠ .error (.breach breach) := by
  have found := run.space.applyMatch_inRange inRange
  unfold applyMatch
  split
  · simp
  · simp [Failure.ofMatchFailure]
  · rename_i wrong other _ outcome
    exact absurd (congrArg Prod.fst outcome) (found wrong other)

theorem applyFirst_unbroken {state : StateId} {count : Nat} {run : Exploration R A}
    (history : run.space.HasHistory) (asked : run.space.Asked state)
    (waiting : (run.space.pending state).length = count) (breach : Breach) :
    (applyFirst state count run).1 ≠ .error (.breach breach) := by
  induction count generalizing run with
  | zero => simp [applyFirst]
  | succ count inductionHypothesis =>
      have inRange : 0 < ((run.space.ensureMatches state).pending state).length := by
        rw [asked.ensureMatches, waiting]
        exact Nat.succ_pos count
      have unbroken := applyMatch_unbroken inRange breach
      have advances := advances_applyMatch run state 0
      have step := fun applied (ok : (run.applyMatch state 0).1 = .ok applied) =>
        applyMatch_asked history asked ok
      rw [waiting, Nat.add_sub_cancel] at step
      unfold applyFirst
      cases outcome : run.applyMatch state 0 with
      | mk result next =>
          rw [outcome] at unbroken step advances
          cases result with
          | error failure => simpa using unbroken
          | ok applied =>
              obtain ⟨askedAfter, waitingAfter⟩ := step applied rfl
              have others := inductionHypothesis (history.evolves advances.space) askedAfter
                waitingAfter
              simp only
              cases rest : applyFirst state count next with
              | mk restResult final =>
                  rw [rest] at others
                  cases restResult with
                  | error failure => simpa using others
                  | ok _ => simp

/-- Counting the matches of a stored state makes them known. -/
theorem pendingCount_asked {run : Exploration R A} {state : StateId}
    (history : run.space.HasHistory) (contained : run.space.contains state = true) :
    (run.pendingCount state).2.space.Asked state ∧
      ((run.pendingCount state).2.space.pending state).length = (run.pendingCount state).1 := by
  rw [pendingCount, dispatch_space]
  exact ⟨history.wellFormed.asked_ensureMatches contained, rfl⟩

/-- Closing a state closes it, unless an application fails. -/
theorem closeState_closes {run : Exploration R A} {state : StateId}
    (history : run.space.HasHistory) (contained : run.space.contains state = true) :
    (∀ applied, (run.closeState state).1 = .ok applied →
      (run.closeState state).2.space.isClosed state = true) ∧
      (R.Succeeds run.space.engine → ∃ applied, (run.closeState state).1 = .ok applied) := by
  have advances := advances_pendingCount run state
  obtain ⟨asked, waiting⟩ := pendingCount_asked history contained
  obtain ⟨closes, completes⟩ :=
    applyFirst_closes (history.evolves advances.space) asked waiting
  exact ⟨closes, fun succeeds => completes (succeeds.after advances.engine)⟩

/-- There is nothing to apply to a state that is not stored. -/
theorem contains_of_pendingCount {run : Exploration R A} {state : StateId}
    (waiting : (run.pendingCount state).1 ≠ 0) : run.space.contains state = true := by
  cases present : run.space.info? state with
  | some info => exact StateSpace.contains_iff.2 ⟨info, present⟩
  | none =>
      simp [pendingCount, StateSpace.pendingCount, StateSpace.ensureMatches, StateSpace.pending,
        present] at waiting

/-- So closing a state never goes beyond its matches. -/
theorem closeState_unbroken {run : Exploration R A} {state : StateId}
    (history : run.space.HasHistory) (breach : Breach) :
    (run.closeState state).1 ≠ .error (.breach breach) := by
  by_cases nothing : (run.pendingCount state).1 = 0
  · unfold closeState
    simp [nothing, applyFirst]
  · obtain ⟨asked, waiting⟩ := pendingCount_asked history (contains_of_pendingCount nothing)
    exact applyFirst_unbroken (history.evolves (advances_pendingCount run state).space) asked
      waiting breach

end Exploration

end OnTheFly
