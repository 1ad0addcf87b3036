import OnTheFly.Proofs.Exploration.Closing

/-!
Contract: closing a state changes no other entry and adds fresh states only.

Owns: the states that applications have created, and what the applications of
one state leave of all the others.
-/

set_option autoImplicit false

namespace OnTheFly

/-- The state that an application has created, if any. -/
def Applied.created (applied : Applied) : List StateId :=
  if applied.fresh then [applied.target] else []

variable {R : RuleSystem}

namespace StateSpace

/-- A change that works on `state`, adds the states `created` and leaves all
other entries alone. -/
structure Expands (space : StateSpace R) (state : StateId) (created : List StateId)
    (later : StateSpace R) : Prop where
  others {other : StateId} {info : StateInfo R} : other ≠ state →
    space.info? other = some info → later.info? other = some info
  contains {other : StateId} :
    later.contains other = true ↔ space.contains other = true ∨ other ∈ created
  fresh {other : StateId} : other ∈ created → space.contains other = false ∧
    ∃ info, later.info? other = some info ∧ info.out = [] ∧ info.pending = none
  distinct : created.Nodup

namespace Expands

variable {space later last : StateSpace R} {state : StateId} {created more : List StateId}

theorem of_same_entries (states : later.states = space.states) :
    space.Expands state [] later where
  others _ present := by rwa [info?, states, ← info?]
  contains := by simp [StateSpace.contains, states]
  fresh member := by cases member
  distinct := .nil

theorem ask (space : StateSpace R) (state : StateId) :
    space.Expands state [] (space.ensureMatches state) where
  others different present := by rw [info?_ensureMatches, if_neg different.symm, present]
  contains := by simp [StateSpace.contains, (ensureMatches_frame space state).2.1]
  fresh member := by cases member
  distinct := .nil

theorem trans (contained : space.contains state = true)
    (first : space.Expands state created later) (second : later.Expands state more last) :
    space.Expands state (created ++ more) last where
  others different present := second.others different (first.others different present)
  contains {other} := by rw [second.contains, first.contains, List.mem_append, or_assoc]
  fresh {other} member := by
    rcases List.mem_append.1 member with early | late
    · obtain ⟨absent, info, present, untouched⟩ := first.fresh early
      have different : other ≠ state := by
        rintro rfl
        rw [contained] at absent
        cases absent
      exact ⟨absent, info, second.others different present, untouched⟩
    · obtain ⟨absentLater, info, present, untouched⟩ := second.fresh late
      refine ⟨?_, info, present, untouched⟩
      rw [Bool.eq_false_iff] at absentLater ⊢
      exact fun before => absentLater (first.contains.2 (.inl before))
  distinct := by
    refine List.nodup_append.2 ⟨first.distinct, second.distinct, ?_⟩
    rintro other early _ late rfl
    have absent := (second.fresh late).1
    rw [first.contains.2 (.inr early)] at absent
    cases absent

end Expands

/-- A recorded application adds its target, if that is new. -/
theorem Records.expands {space later : StateSpace R} {state : StateId} {position : Nat}
    {rule : String} {graph : R.Graph} {applied : Applied}
    (records : space.Records state position rule graph applied later)
    (contained : space.contains state = true) :
    space.Expands state applied.created later := by
  have inside : state.index < space.states.size := by simpa [contains] using contained
  constructor
  · exact records.others
  · intro other
    unfold Applied.created
    cases fresh : applied.fresh with
    | false => simp [contains, (records.known fresh).1]
    | true =>
        obtain ⟨target, size, _⟩ := records.created fresh
        have isTarget : other = ⟨space.states.size⟩ ↔ other.index = space.states.size :=
          ⟨fun same => by rw [same], fun same => congrArg StateId.mk same⟩
        simp only [contains, size, target, decide_eq_true_eq, if_true, List.mem_singleton, isTarget]
        omega
  · intro other member
    unfold Applied.created at member
    split at member
    · rename_i fresh
      obtain ⟨target, _, created⟩ := records.created fresh
      rw [List.mem_singleton] at member
      refine ⟨by simp [member, target, contains], _, member ▸ created, rfl, rfl⟩
    · cases member
  · unfold Applied.created
    split <;> simp

/-- A successful application works on its state only. -/
theorem WellFormed.applyMatch_expands {space later : StateSpace R} (wellFormed : space.WellFormed)
    {state : StateId} {position : Nat} {applied : Applied}
    (outcome : space.applyMatch state position = (.ok applied, later)) :
    space.contains state = true ∧ space.Expands state applied.created later := by
  rcases wellFormed.applyMatch_cases state position with
    ⟨_, info, _, _, _, present, _, _, succeeded, records⟩ | ⟨_, _, failed⟩
  · rw [succeeded] at outcome
    cases outcome
    have containedAfter := contains_of_info? present
    have contained : space.contains state = true := by
      simpa using (Expands.ask space state).contains.1 containedAfter
    exact ⟨contained, .trans contained (.ask space state) (records.expands containedAfter)⟩
  · rw [failed] at outcome
    cases outcome

end StateSpace

namespace Exploration

variable {A : Type} [Acceptor R A]

theorem applyMatch_expands {run later : Exploration R A} (history : run.space.HasHistory)
    {state : StateId} {position : Nat} {applied : Applied}
    (outcome : run.applyMatch state position = (.ok applied, later)) :
    run.space.contains state = true ∧ run.space.Expands state applied.created later.space := by
  have ok : (run.applyMatch state position).1 = .ok applied := by rw [outcome]
  have sameSpace := applyMatch_space_of_ok ok
  rw [outcome] at sameSpace
  have applies : run.space.applyMatch state position =
      (.ok applied, (run.space.applyMatch state position).2) :=
    Prod.ext ((applyMatch_ok_iff run state position applied).1 ok) rfl
  obtain ⟨contained, expands⟩ := history.wellFormed.applyMatch_expands applies
  have drained : (run.space.applyMatch state position).2.Expands state [] later.space := by
    rw [sameSpace]
    exact .of_same_entries rfl
  have both := expands.trans contained drained
  rw [List.append_nil] at both
  exact ⟨contained, both⟩

/-- Closing a state adds the states that its applications have created. -/
theorem applyFirst_expands {state : StateId} {count : Nat} {run later : Exploration R A}
    (history : run.space.HasHistory) (contained : run.space.contains state = true)
    {all : List Applied} (outcome : applyFirst state count run = (.ok all, later)) :
    run.space.Expands state (all.flatMap Applied.created) later.space := by
  induction count generalizing run all with
  | zero =>
      cases outcome
      exact .of_same_entries rfl
  | succ count inductionHypothesis =>
      unfold applyFirst at outcome
      split at outcome
      · cases outcome
      · rename_i applied next first
        have advances := advances_applyMatch run state 0
        rw [first] at advances
        obtain ⟨_, expands⟩ := applyMatch_expands history first
        split at outcome
        · cases outcome
        · rename_i others final rest
          cases outcome
          have stillContained := expands.contains.2 (.inl contained)
          exact expands.trans contained
            (inductionHypothesis (history.evolves advances.space) stillContained rest)

theorem closeState_expands {run later : Exploration R A} {state : StateId}
    (history : run.space.HasHistory) (contained : run.space.contains state = true)
    {all : List Applied} (outcome : run.closeState state = (.ok all, later)) :
    run.space.Expands state (all.flatMap Applied.created) later.space := by
  have asked : run.space.Expands state [] (run.pendingCount state).2.space := by
    rw [pendingCount, dispatch_space]
    exact .trans contained (.ask run.space state) (.of_same_entries rfl)
  have advances := advances_pendingCount run state
  exact asked.trans contained (applyFirst_expands (history.evolves advances.space)
    (asked.contains.2 (.inl contained)) outcome)

end Exploration

end OnTheFly
