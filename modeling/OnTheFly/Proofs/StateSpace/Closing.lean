import OnTheFly.Proofs.StateSpace.Evolution

/-!
Contract: when a state closes.

Owns: the invariant that a state closes as soon as nothing is left to apply,
and what one application does to the pending matches of its source.
-/

set_option autoImplicit false

namespace OnTheFly

namespace StateSpace

variable {R : RuleSystem}

/-- Every state whose matches are known and all applied is closed. -/
def Prompt (space : StateSpace R) : Prop :=
  ∀ (state : StateId) (info : StateInfo R),
    space.info? state = some info → info.pending = some [] → info.closed = true

theorem info?_close_other (space : StateSpace R) {state other : StateId}
    (different : state ≠ other) : (space.close state).info? other = space.info? other := by
  unfold close
  split
  · rfl
  · simp [different]

/-- Closing a state leaves it closed, with nothing pending. -/
theorem info?_close {space : StateSpace R} {state : StateId} {info : StateInfo R}
    (present : space.info? state = some info) :
    ∃ after, (space.close state).info? state = some after ∧ after.closed = true ∧
      (info.closed = false → after.pending = some []) := by
  unfold close
  split
  · rename_i closed
    have infoClosed : info.closed = true := by simpa [isClosed, present] using closed
    exact ⟨info, present, infoClosed, by simp [infoClosed]⟩
  · exact ⟨{ info with closed := true, pending := some [] }, by simp [present]⟩

theorem Prompt.close {space : StateSpace R} {state : StateId}
    (prompt : ∀ {other info}, state ≠ other → space.info? other = some info →
      info.pending = some [] → info.closed = true) : (space.close state).Prompt := by
  intro other info present pending
  by_cases same : state = other
  · subst same
    have contained : space.contains state = true := by
      unfold StateSpace.close at present
      split at present
      · exact contains_of_info? present
      · rw [info?_notify, info?_modifyState, if_pos rfl] at present
        obtain ⟨before, presentBefore, _⟩ := Option.map_eq_some_iff.1 present
        exact contains_of_info? presentBefore
    obtain ⟨before, presentBefore⟩ := contains_iff.1 contained
    obtain ⟨after, presentAfter, closed, _⟩ := info?_close presentBefore
    rw [present] at presentAfter
    cases presentAfter
    exact closed
  · rw [info?_close_other space same] at present
    exact prompt same present pending

theorem Prompt.ensureMatches {space : StateSpace R} (prompt : space.Prompt) (state : StateId) :
    (space.ensureMatches state).Prompt := by
  unfold StateSpace.ensureMatches
  split
  · exact prompt
  · rename_i info present
    split
    · exact prompt
    · simp only
      split
      · apply Prompt.close
        intro other otherInfo different otherPresent pending
        rw [info?_modifyState, if_neg different] at otherPresent
        exact prompt _ _ otherPresent pending
      · rename_i someMatch
        intro other otherInfo otherPresent pending
        rw [info?_modifyState] at otherPresent
        split at otherPresent
        · obtain ⟨before, _, rfl⟩ := Option.map_eq_some_iff.1 otherPresent
          simp only [Option.some.injEq] at pending
          simp [pending] at someMatch
        · exact prompt _ _ otherPresent pending

theorem Prompt.closeIfDone {space : StateSpace R} {state : StateId}
    (prompt : ∀ {other info}, state ≠ other → space.info? other = some info →
      info.pending = some [] → info.closed = true) : (space.closeIfDone state).Prompt := by
  unfold StateSpace.closeIfDone
  split
  · exact Prompt.close prompt
  · rename_i waiting
    intro other info present pending
    by_cases same : state = other
    · subst same
      simp [pending_of_info? present, pending] at waiting
    · exact prompt same present pending

/-- An entry of the space in which a match has been taken and its target has
been stored: the source, a new state, or as it was before. -/
private theorem info?_extended_cases {space extended : StateSpace R} {state target other : StateId}
    {position : Nat} {fresh : Bool} {graph : R.Graph} {depth : Nat} {info : StateInfo R}
    (inserted : (space.withoutMatch state position).insert graph depth =
      ((target, fresh), extended))
    (different : state ≠ other) (present : extended.info? other = some info) :
    space.info? other = some info ∨ info.pending = none := by
  have same : (space.withoutMatch state position).info? other = space.info? other := by
    simp [withoutMatch, different]
  unfold StateSpace.insert at inserted
  split at inserted
  · cases inserted
    rw [same] at present
    exact .inl present
  · cases inserted
    rw [info?_addState, same] at present
    split at present
    · cases present
      exact .inr rfl
    · exact .inl present

theorem Prompt.recordApplication {space : StateSpace R} (prompt : space.Prompt)
    (state : StateId) (position : Nat) (rule : String) (graph : R.Graph) :
    (space.recordApplication state position rule graph).2.Prompt := by
  cases inserted : (space.withoutMatch state position).insert (R.canonicalize graph)
      (space.depth state + 1) with
  | mk entry extended =>
      obtain ⟨target, fresh⟩ := entry
      rw [recordApplication_eq space state position rule graph inserted]
      apply Prompt.closeIfDone
      intro other after different presentAfter pendingAfter
      obtain ⟨info, present, _, sameClosed, samePending, _⟩ :=
        info?_addTransition_some presentAfter
      rw [samePending] at pendingAfter
      rw [sameClosed]
      rcases info?_extended_cases inserted different present with before | unasked
      · exact prompt _ _ before pendingAfter
      · rw [unasked] at pendingAfter
        cases pendingAfter

theorem Prompt.applyMatch {space : StateSpace R} (prompt : space.Prompt) (state : StateId)
    (position : Nat) : (space.applyMatch state position).2.Prompt := by
  have asked := prompt.ensureMatches state
  unfold StateSpace.applyMatch
  simp only
  split
  · rename_i candidate graph _ _
    cases R.apply (space.ensureMatches state).engine graph candidate with
    | mk result engine =>
        cases result with
        | error error => exact asked
        | ok target =>
            have reminded : Prompt { space.ensureMatches state with engine := engine } := asked
            exact reminded.recordApplication state position _ target
  · exact asked

theorem Grows.prompt {space later : StateSpace R} (prompt : space.Prompt)
    (grows : space.Grows later) : later.Prompt := by
  cases grows with
  | ask state => exact prompt.ensureMatches state
  | apply state position => exact prompt.applyMatch state position
  | drain => exact prompt
  | remind engine => exact prompt

theorem prompt_create (engine : R.Engine) : (create R engine).Prompt := by
  intro state info present pending
  rw [create, info?_addState] at present
  split at present
  · cases present
    cases pending
  · simp [info?] at present

theorem HasHistory.prompt {space : StateSpace R} (history : space.HasHistory) :
    space.Prompt := by
  obtain ⟨engine, evolves⟩ := history
  induction evolves with
  | refl => exact prompt_create engine
  | tail _ grows inductionHypothesis => exact grows.prompt inductionHypothesis

/-! ## Pending matches -/

/-- Whether the matches of a state are known. -/
def Asked (space : StateSpace R) (state : StateId) : Prop :=
  ∃ info candidates, space.info? state = some info ∧ info.pending = some candidates

theorem Asked.isClosed {space : StateSpace R} {state : StateId} (asked : space.Asked state)
    (prompt : space.Prompt) (done : space.pending state = []) : space.isClosed state = true := by
  obtain ⟨info, candidates, present, pending⟩ := asked
  rw [pending_of_info? present, pending, Option.getD_some] at done
  subst done
  exact isClosed_iff.2 ⟨info, present, prompt _ _ present pending⟩

/-- Asking changes nothing of a state whose matches are known. -/
theorem Asked.ensureMatches {space : StateSpace R} {state : StateId}
    (asked : space.Asked state) : space.ensureMatches state = space := by
  obtain ⟨info, candidates, present, pending⟩ := asked
  simp [StateSpace.ensureMatches, present, pending]

theorem WellFormed.asked_ensureMatches {space : StateSpace R} (wellFormed : space.WellFormed)
    {state : StateId} (contained : space.contains state = true) :
    (space.ensureMatches state).Asked state := by
  obtain ⟨info, present⟩ := contains_iff.1 contained
  unfold StateSpace.ensureMatches
  rw [present]
  simp only
  split
  · rename_i touched
    cases pending : info.pending with
    | some candidates => exact ⟨info, candidates, present, pending⟩
    | none =>
        have closed : info.closed = true := by simpa [pending] using touched
        rw [wellFormed.closed_done present closed] at pending
        cases pending
  · rename_i untouched
    have modified : (space.modifyState state
        ({ · with pending := some (R.matchesOf info.graph) })).info? state =
          some { info with pending := some (R.matchesOf info.graph) } := by
      simp [present]
    split
    · obtain ⟨after, presentAfter, _, pendingAfter⟩ := info?_close modified
      have isOpen : info.closed = false := by simp_all
      exact ⟨after, [], presentAfter, pendingAfter isOpen⟩
    · exact ⟨_, _, modified, rfl⟩

/-- A recorded application takes exactly its own match from the pending ones. -/
theorem pending_recordApplication {space : StateSpace R} {state : StateId}
    {info : StateInfo R} {candidates : List R.Match} (position : Nat) (rule : String)
    (graph : R.Graph) (present : space.info? state = some info)
    (pending_ : info.pending = some candidates) (isOpen : info.closed = false) :
    (space.recordApplication state position rule graph).2.Asked state ∧
      (space.recordApplication state position rule graph).2.pending state =
        candidates.eraseIdx position := by
  cases inserted : (space.withoutMatch state position).insert (R.canonicalize graph)
      (space.depth state + 1) with
  | mk entry extended =>
      obtain ⟨target, fresh⟩ := entry
      rw [recordApplication_eq space state position rule graph inserted]
      obtain ⟨after, presentAfter, _, sameClosed, samePending, _⟩ :=
        info?_addTransition ⟨state, target, rule⟩ fresh (info?_beforeClosing present inserted)
      have remaining : after.pending = some (candidates.eraseIdx position) := by
        rw [samePending, pending_]
        rfl
      unfold closeIfDone
      split
      · rename_i done
        rw [pending_of_info? presentAfter, remaining, Option.getD_some,
          List.isEmpty_iff] at done
        obtain ⟨closed, presentClosed, _, pendingClosed⟩ := info?_close presentAfter
        have nothing := pendingClosed (sameClosed.trans isOpen)
        refine ⟨⟨closed, [], presentClosed, nothing⟩, ?_⟩
        rw [pending_of_info? presentClosed, nothing, done]
        rfl
      · refine ⟨⟨after, _, presentAfter, remaining⟩, ?_⟩
        rw [pending_of_info? presentAfter, remaining]
        rfl

end StateSpace

end OnTheFly
