import OnTheFly.Proofs.StateSpace.Closing

/-!
Contract: what asking for matches and applying one do to every entry.

Owns: the entry of a state that has been asked, and the record of a successful
application: its transition, its target, what becomes of the entry of its
source, and that every other entry stays as it was.

Above this module nothing unfolds either operation.
-/

set_option autoImplicit false

namespace OnTheFly

variable {R : RuleSystem}

/-- The entry of a state after it has been asked for its matches. -/
def StateInfo.asked (info : StateInfo R) : StateInfo R :=
  if info.pending.isSome || info.closed then info
  else
    { info with
      pending := some (R.matchesOf info.graph)
      closed := (R.matchesOf info.graph).isEmpty }

@[simp] theorem StateInfo.graph_asked (info : StateInfo R) : info.asked.graph = info.graph := by
  unfold asked
  split <;> rfl

@[simp] theorem StateInfo.out_asked (info : StateInfo R) : info.asked.out = info.out := by
  unfold asked
  split <;> rfl

theorem StateInfo.pending_asked (info : StateInfo R) :
    info.asked.pending = info.pending ∨
      (info.pending = none ∧ info.asked.pending = some (R.matchesOf info.graph)) := by
  unfold asked
  split
  · exact .inl rfl
  · rename_i untouched
    simp only [Bool.or_eq_true, not_or, Option.not_isSome_iff_eq_none] at untouched
    exact .inr ⟨untouched.1, rfl⟩

namespace StateSpace

/-! ## Asking -/

theorem info?_ensureMatches (space : StateSpace R) (state other : StateId) :
    (space.ensureMatches state).info? other =
      if state = other then (space.info? other).map StateInfo.asked else space.info? other := by
  unfold ensureMatches
  cases present : space.info? state with
  | none =>
      simp only
      split
      · rename_i same
        rw [← same, present]
        rfl
      · rfl
  | some info =>
      by_cases touched : info.pending.isSome || info.closed
      · have same : info.asked = info := if_pos touched
        simp only [touched, if_true]
        split
        · rename_i isState
          rw [← isState, present, Option.map_some, same]
        · rfl
      · have fresh : info.asked = { info with
            pending := some (R.matchesOf info.graph)
            closed := (R.matchesOf info.graph).isEmpty } := if_neg touched
        have isOpen : info.closed = false := by
          simp only [Bool.or_eq_true, not_or, Bool.not_eq_true] at touched
          exact touched.2
        simp only
        rw [if_neg touched]
        by_cases same : state = other
        · subst same
          rw [if_pos rfl, present, Option.map_some, fresh]
          by_cases nothing : (R.matchesOf info.graph).isEmpty
          · have empty := List.isEmpty_iff.1 nothing
            simp [close, isClosed, present, isOpen, empty]
          · simp [present, isOpen, nothing]
        · rw [if_neg same]
          split
          · rw [info?_close_other _ same, info?_modifyState, if_neg same]
          · rw [info?_modifyState, if_neg same]

/-- What asking leaves alone. -/
theorem ensureMatches_frame (space : StateSpace R) (state : StateId) :
    (space.ensureMatches state).transitions = space.transitions ∧
      (space.ensureMatches state).states.size = space.states.size ∧
      (space.ensureMatches state).index = space.index := by
  unfold ensureMatches close
  split
  · exact ⟨rfl, rfl, rfl⟩
  · split
    · exact ⟨rfl, rfl, rfl⟩
    · simp only
      split
      · split <;> simp [modifyState, notify]
      · simp [modifyState]

@[simp] theorem engine_ensureMatches (space : StateSpace R) (state : StateId) :
    (space.ensureMatches state).engine = space.engine := by
  unfold ensureMatches close
  split
  · rfl
  · split
    · rfl
    · simp only
      split
      · split <;> rfl
      · rfl

theorem transition?_ensureMatches (space : StateSpace R) (state : StateId)
    (handle : TransitionId) :
    (space.ensureMatches state).transition? handle = space.transition? handle := by
  rw [transition?, (ensureMatches_frame space state).1, transition?]

theorem graph?_ensureMatches (space : StateSpace R) (state other : StateId) :
    (space.ensureMatches state).graph? other = space.graph? other := by
  rw [graph?, info?_ensureMatches, graph?]
  split
  · cases space.info? other <;> simp
  · rfl

theorem out_ensureMatches (space : StateSpace R) (state other : StateId) :
    (space.ensureMatches state).out other = space.out other := by
  rw [out, info?_ensureMatches, out]
  split
  · cases space.info? other <;> simp
  · rfl

/-! ## Applying -/

/-- The record of one successful application in a state space that has asked
for the matches of `state`. The match at `position` led to `graph`. -/
structure Records (space : StateSpace R) (state : StateId) (position : Nat) (rule : String)
    (graph : R.Graph) (applied : Applied) (later : StateSpace R) : Prop where
  handle : applied.transition = ⟨space.transitions.size⟩
  transition (other : TransitionId) : later.transition? other =
    if other = applied.transition then some ⟨state, applied.target, rule⟩
    else space.transition? other
  count : later.transitions.size = space.transitions.size + 1
  stored : later.graph? applied.target = some (R.canonicalize graph)
  source {info : StateInfo R} {candidates : List R.Match} : space.info? state = some info →
    info.pending = some candidates → later.info? state = some { info with
      pending := some (candidates.eraseIdx position)
      closed := (candidates.eraseIdx position).isEmpty
      out := info.out ++ [applied.transition] }
  others {other : StateId} {info : StateInfo R} : other ≠ state →
    space.info? other = some info → later.info? other = some info
  created : applied.fresh = true → applied.target = ⟨space.states.size⟩ ∧
    later.states.size = space.states.size + 1 ∧ later.info? applied.target = some {
      graph := R.canonicalize graph
      depth := space.depth state + 1
      incoming := some applied.transition }
  known : applied.fresh = false → later.states.size = space.states.size ∧
    space.graph? applied.target = some (R.canonicalize graph)

/-- The entry of a graph is new, or it was there before and nothing changes. -/
theorem insert_cases {space extended : StateSpace R} {graph : R.Graph} {depth : Nat}
    {target : StateId} {fresh : Bool}
    (inserted : space.insert graph depth = ((target, fresh), extended)) :
    (fresh = true ∧ target = ⟨space.states.size⟩ ∧ extended = space.addState graph depth) ∨
      (fresh = false ∧ extended = space ∧ space.graph? target = some graph) := by
  unfold StateSpace.insert at inserted
  split at inserted
  · rename_i existing found
    cases inserted
    have stored := List.find?_some found
    exact .inr ⟨rfl, rfl, by simpa using stored⟩
  · cases inserted
    exact .inl ⟨rfl, rfl, rfl⟩

theorem info?_closeIfDone_other (space : StateSpace R) {state other : StateId}
    (different : state ≠ other) :
    (space.closeIfDone state).info? other = space.info? other := by
  unfold closeIfDone
  split
  · exact info?_close_other space different
  · rfl

theorem info?_closeIfDone {space : StateSpace R} {state : StateId} {info : StateInfo R}
    {candidates : List R.Match} (present : space.info? state = some info)
    (pending_ : info.pending = some candidates) (isOpen : info.closed = false) :
    (space.closeIfDone state).info? state = some { info with closed := candidates.isEmpty } := by
  have remaining : space.pending state = candidates := by
    rw [pending_of_info? present, pending_, Option.getD_some]
  unfold closeIfDone
  rw [remaining]
  cases candidates with
  | nil => simp [close, isClosed, present, isOpen, pending_]
  | cons candidate others =>
      rw [if_neg (by simp), present, List.isEmpty_cons, ← isOpen]

theorem closeIfDone_frame (space : StateSpace R) (state : StateId) :
    (space.closeIfDone state).transitions = space.transitions ∧
      (space.closeIfDone state).states.size = space.states.size := by
  unfold closeIfDone close
  split
  · split <;> simp [modifyState, notify]
  · exact ⟨rfl, rfl⟩

theorem graph?_closeIfDone (space : StateSpace R) (state other : StateId) :
    (space.closeIfDone state).graph? other = space.graph? other := by
  unfold closeIfDone close
  split
  · split
    · rfl
    · exact graph?_modifyState _ _ _ fun _ => rfl
  · rfl

/-- A transition that comes from elsewhere changes an entry only if it has
created it. -/
theorem info?_addTransition_other {space : StateSpace R} {added : Transition} {fresh : Bool}
    {state : StateId} (notSource : added.source ≠ state)
    (notCreated : fresh = true → added.target ≠ state) :
    (space.addTransition added fresh).info? state = space.info? state := by
  have inside : info? { space with transitions := space.transitions.push added } state =
      space.info? state := rfl
  cases fresh with
  | false => simp [addTransition, notSource, inside]
  | true => simp [addTransition, notSource, notCreated rfl, inside]

theorem info?_addTransition_source {space : StateSpace R} (added : Transition) {fresh : Bool}
    {info : StateInfo R} (present : space.info? added.source = some info)
    (notCreated : fresh = true → added.target ≠ added.source) :
    (space.addTransition added fresh).info? added.source =
      some { info with out := info.out ++ [⟨space.transitions.size⟩] } := by
  have inside : info? { space with transitions := space.transitions.push added } added.source =
      some info := present
  cases fresh with
  | false => simp [addTransition, inside]
  | true => simp [addTransition, notCreated rfl, inside]

theorem info?_addTransition_created {space : StateSpace R} (added : Transition)
    {info : StateInfo R} (present : space.info? added.target = some info)
    (notSource : added.source ≠ added.target) :
    (space.addTransition added true).info? added.target =
      some { info with incoming := some ⟨space.transitions.size⟩ } := by
  have inside : info? { space with transitions := space.transitions.push added } added.target =
      some info := present
  simp [addTransition, notSource, inside]

theorem addTransition_frame (space : StateSpace R) (added : Transition) (fresh : Bool) :
    (space.addTransition added fresh).transitions = space.transitions.push added ∧
      (space.addTransition added fresh).states.size = space.states.size := by
  cases fresh <;> simp [addTransition, modifyState, notify]

theorem recordApplication_records {space : StateSpace R} {state : StateId} {info : StateInfo R}
    {candidates : List R.Match} (present : space.info? state = some info)
    (pending_ : info.pending = some candidates) (isOpen : info.closed = false) (position : Nat)
    (rule : String) (graph : R.Graph) :
    space.Records state position rule graph (space.recordApplication state position rule graph).1
      (space.recordApplication state position rule graph).2 := by
  cases inserted : (space.withoutMatch state position).insert (R.canonicalize graph)
      (space.depth state + 1) with
  | mk entry extended =>
      obtain ⟨target, fresh⟩ := entry
      have sameSize : (space.withoutMatch state position).states.size = space.states.size := by
        simp [StateSpace.withoutMatch, modifyState]
      have sameTransitions : extended.transitions = space.transitions := by
        rcases insert_cases inserted with ⟨_, _, rfl⟩ | ⟨_, rfl, _⟩ <;> rfl
      have stored : extended.graph? target = some (R.canonicalize graph) := by
        rcases insert_cases inserted with ⟨_, isNew, rfl⟩ | ⟨_, rfl, stored⟩
        · exact graph?_eq_some.2 ⟨_, by rw [info?_addState, if_pos isNew], rfl⟩
        · exact stored
      -- A new target is no state of before.
      have notCreated : ∀ {other otherInfo}, space.info? other = some otherInfo →
          fresh = true → target ≠ other := by
        rintro other otherInfo presentOther rfl rfl
        rcases insert_cases inserted with ⟨_, isNew, _⟩ | ⟨isKnown, _⟩
        · rw [isNew, sameSize, info?_next] at presentOther
          cases presentOther
        · cases isKnown
      have kept : ∀ {other otherInfo}, other ≠ state → space.info? other = some otherInfo →
          extended.info? other = some otherInfo := by
        intro other otherInfo different presentOther
        have before : (space.withoutMatch state position).info? other = some otherInfo := by
          simp [StateSpace.withoutMatch, different.symm, presentOther]
        have after := info?_insert_of_some (R.canonicalize graph) (space.depth state + 1) before
        rw [inserted] at after
        exact after
      rw [recordApplication_eq_mk space state position rule graph inserted]
      constructor
      · rw [sameTransitions]
      · intro other
        rw [transition?, (closeIfDone_frame _ _).1, ← transition?, transition?_addTransition]
        simp only [transition?, sameTransitions]
      · rw [(closeIfDone_frame _ _).1, (addTransition_frame _ _ _).1, Array.size_push,
          sameTransitions]
      · rw [graph?_closeIfDone, graph?_addTransition]
        exact stored
      · intro other others presentOther pendingOther
        rw [present] at presentOther
        cases presentOther
        rw [pending_] at pendingOther
        cases pendingOther
        have taken := info?_beforeClosing present inserted
        rw [pending_, Option.map_some] at taken
        have connected := info?_addTransition_source ⟨state, target, rule⟩ taken
          (notCreated present)
        exact info?_closeIfDone connected rfl isOpen
      · intro other otherInfo different presentOther
        rw [info?_closeIfDone_other _ different.symm, info?_addTransition_other different.symm
          (notCreated presentOther), kept different presentOther]
      · rintro rfl
        have different : state ≠ target := (notCreated present rfl).symm
        rcases insert_cases inserted with ⟨_, isNew, rfl⟩ | ⟨isKnown, _⟩
        · refine ⟨by rw [isNew, sameSize], ?_, ?_⟩
          · rw [(closeIfDone_frame _ _).2, (addTransition_frame _ _ _).2, ← sameSize]
            simp [addState]
          · rw [info?_closeIfDone_other _ different]
            have created := (info?_addState (space.withoutMatch state position)
              (R.canonicalize graph) (space.depth state + 1) target).trans (if_pos isNew)
            exact info?_addTransition_created ⟨state, target, rule⟩ created different
        · cases isKnown
      · rintro rfl
        rcases insert_cases inserted with ⟨isFresh, _⟩ | ⟨_, rfl, storedBefore⟩
        · cases isFresh
        · refine ⟨?_, ?_⟩
          · rw [(closeIfDone_frame _ _).2, (addTransition_frame _ _ _).2, sameSize]
          · have same : (space.withoutMatch state position).graph? target = space.graph? target :=
              graph?_modifyState space state target fun _ => rfl
            exact same.symm.trans storedBefore

namespace Records

variable {space later : StateSpace R} {state : StateId} {position : Nat} {rule : String}
  {graph : R.Graph} {applied : Applied}

/-- The entry of another state is that of before, or the state is new. -/
theorem info?_cases (records : space.Records state position rule graph applied later)
    {other : StateId} {info : StateInfo R} (different : other ≠ state)
    (present : later.info? other = some info) :
    space.info? other = some info ∨
      (applied.fresh = true ∧ other = applied.target ∧ info = {
        graph := R.canonicalize graph
        depth := space.depth state + 1
        incoming := some applied.transition }) := by
  have inside : other.index < later.states.size := by
    simpa [contains] using contains_of_info? present
  by_cases before : other.index < space.states.size
  · obtain ⟨old, presentBefore⟩ := contains_iff.1 (show space.contains other = true by
      simpa [contains] using before)
    rw [records.others different presentBefore] at present
    cases present
    exact .inl presentBefore
  · cases fresh : applied.fresh with
    | false =>
        have sameSize := (records.known fresh).1
        omega
    | true =>
        obtain ⟨target, size, created⟩ := records.created fresh
        have isTarget : other = applied.target := by
          rw [target]
          exact congrArg StateId.mk (by omega : other.index = space.states.size)
        rw [isTarget, created] at present
        cases present
        exact .inr ⟨rfl, isTarget, rfl⟩

/-- The graphs of states stay. -/
theorem graph?_kept (records : space.Records state position rule graph applied later)
    {info : StateInfo R} {candidates : List R.Match} (present : space.info? state = some info)
    (pending : info.pending = some candidates) {other : StateId} {old : R.Graph}
    (stored : space.graph? other = some old) : later.graph? other = some old := by
  obtain ⟨before, presentBefore, rfl⟩ := graph?_eq_some.1 stored
  by_cases same : other = state
  · subst same
    rw [present] at presentBefore
    cases presentBefore
    exact graph?_eq_some.2 ⟨_, records.source present pending, rfl⟩
  · exact graph?_eq_some.2 ⟨_, records.others same presentBefore, rfl⟩

theorem transition?_kept (records : space.Records state position rule graph applied later)
    {handle : TransitionId} {transition : Transition}
    (found : space.transition? handle = some transition) :
    later.transition? handle = some transition := by
  rw [records.transition, if_neg, found]
  rintro rfl
  rw [records.handle, transition?] at found
  simp at found

theorem transition?_added (records : space.Records state position rule graph applied later) :
    later.transition? applied.transition = some ⟨state, applied.target, rule⟩ := by
  rw [records.transition, if_pos rfl]

theorem transitions_eq (records : space.Records state position rule graph applied later) :
    later.transitions = space.transitions.push ⟨state, applied.target, rule⟩ := by
  refine Array.ext_getElem? fun index => ?_
  have found := records.transition ⟨index⟩
  rw [records.handle, transition?, transition?] at found
  rw [found, Array.getElem?_push]
  simp

theorem out_other (records : space.Records state position rule graph applied later)
    {other : StateId} (different : other ≠ state) : later.out other = space.out other := by
  cases present : later.info? other with
  | none =>
      have before : space.info? other = none := by
        rw [Option.eq_none_iff_forall_ne_some]
        intro info presentBefore
        rw [records.others different presentBefore] at present
        cases present
      rw [out, out, present, before]
  | some info =>
      rcases records.info?_cases different present with before | ⟨fresh, rfl, rfl⟩
      · rw [out_of_info? present, out_of_info? before]
      · rw [out_of_info? present, out, (records.created fresh).1, info?_next]
        rfl

end Records

/-- An application succeeds and is recorded, or it changes nothing but what the
engine remembers. -/
theorem WellFormed.applyMatch_cases {space : StateSpace R} (wellFormed : space.WellFormed)
    (state : StateId) (position : Nat) :
    (∃ candidate info target applied later,
        (space.ensureMatches state).info? state = some info ∧
        ((space.ensureMatches state).pending state)[position]? = some candidate ∧
        (R.apply space.engine info.graph candidate).1 = .ok target ∧
        space.applyMatch state position = (.ok applied, later) ∧
        (space.ensureMatches state).Records state position (R.ruleName candidate) target applied
          later) ∨
      ∃ failure engine, space.applyMatch state position =
        (.error failure, { space.ensureMatches state with engine := engine }) := by
  have asked := wellFormed.ensureMatches state
  unfold StateSpace.applyMatch
  simp only
  split
  · rename_i candidate graph waiting stored
    obtain ⟨info, present, rfl⟩ := graph?_eq_some.1 stored
    have isOpen : info.closed = false := by
      have sourceOpen := asked.wellFormed.isClosed_eq_false waiting
      simpa [isClosed, present] using sourceOpen
    obtain ⟨candidates, pending_⟩ : ∃ candidates, info.pending = some candidates := by
      rw [pending_of_info? present] at waiting
      cases pending_ : info.pending with
      | none => simp [pending_] at waiting
      | some candidates => exact ⟨candidates, rfl⟩
    rw [← engine_ensureMatches space state]
    cases outcome : R.apply (space.ensureMatches state).engine info.graph candidate with
    | mk result engine =>
        cases result with
        | error error => exact .inr ⟨_, engine, rfl⟩
        | ok target =>
            have presentAfter :
                info? { space.ensureMatches state with engine := engine } state = some info := present
            have records := recordApplication_records presentAfter pending_ isOpen position
              (R.ruleName candidate) target
            exact .inl ⟨candidate, info, target, _, _, present, waiting, by rw [outcome], rfl,
              { records with }⟩
  · exact .inr ⟨_, (space.ensureMatches state).engine, rfl⟩

end StateSpace

end OnTheFly
