import OnTheFly.StateSpace.Growth

/-!
Contract: what each primitive change of a state space does to its entries.

Owns: equations for the entries, the transitions, the index and the engine of
a state space after each primitive change. Nothing above this module unfolds
one of them.
-/

set_option autoImplicit false

namespace OnTheFly

namespace StateSpace

variable {R : RuleSystem}

/-! ## Questions as functions of the entry -/

theorem contains_iff {space : StateSpace R} {state : StateId} :
    space.contains state = true ↔ ∃ info, space.info? state = some info := by
  simp only [contains, info?, decide_eq_true_eq]
  constructor
  · intro below
    exact ⟨_, Array.getElem?_eq_getElem below⟩
  · rintro ⟨info, present⟩
    exact (Array.getElem?_eq_some_iff.1 present).1

theorem contains_of_info? {space : StateSpace R} {state : StateId} {info : StateInfo R}
    (present : space.info? state = some info) : space.contains state = true :=
  contains_iff.2 ⟨info, present⟩

theorem graph?_eq_some {space : StateSpace R} {state : StateId} {graph : R.Graph} :
    space.graph? state = some graph ↔
      ∃ info, space.info? state = some info ∧ info.graph = graph := by
  simp [graph?, Option.map_eq_some_iff]

theorem isClosed_iff {space : StateSpace R} {state : StateId} :
    space.isClosed state = true ↔
      ∃ info, space.info? state = some info ∧ info.closed = true := by
  simp [isClosed, Option.any_eq_true]

theorem out_of_info? {space : StateSpace R} {state : StateId} {info : StateInfo R}
    (present : space.info? state = some info) : space.out state = info.out := by
  simp [out, present]

theorem pending_of_info? {space : StateSpace R} {state : StateId} {info : StateInfo R}
    (present : space.info? state = some info) :
    space.pending state = info.pending.getD [] := by
  simp [pending, present]

theorem mem_out {space : StateSpace R} {state : StateId} {handle : TransitionId} :
    handle ∈ space.out state ↔
      ∃ info, space.info? state = some info ∧ handle ∈ info.out := by
  unfold out
  cases space.info? state <;> simp

theorem mem_outgoing {space : StateSpace R} {state : StateId} {handle : TransitionId}
    {transition : Transition} :
    (handle, transition) ∈ space.outgoing state ↔
      handle ∈ space.out state ∧ space.transition? handle = some transition := by
  simp only [outgoing, List.mem_filterMap, Option.map_eq_some_iff, Prod.mk.injEq]
  constructor
  · rintro ⟨other, member, found, present, rfl, rfl⟩
    exact ⟨member, present⟩
  · rintro ⟨member, present⟩
    exact ⟨handle, member, transition, present, rfl, rfl⟩

theorem mem_stateIds {space : StateSpace R} {state : StateId} :
    state ∈ space.stateIds ↔ space.contains state = true := by
  obtain ⟨position⟩ := state
  simp [stateIds, contains]

theorem nodup_stateIds (space : StateSpace R) : space.stateIds.Nodup :=
  List.Pairwise.map StateId.mk
    (fun _ _ different same => different (congrArg StateId.index same)) List.nodup_range

theorem length_stateIds (space : StateSpace R) : space.stateIds.length = space.size := by
  simp [stateIds, size]

/-! ## Primitive changes -/

@[simp] theorem info?_modifyState (space : StateSpace R) (state other : StateId)
    (change : StateInfo R → StateInfo R) :
    (space.modifyState state change).info? other =
      if state = other then (space.info? other).map change else space.info? other := by
  obtain ⟨position⟩ := state
  obtain ⟨otherPosition⟩ := other
  simp [modifyState, info?, Array.getElem?_modify]

@[simp] theorem transition?_modifyState (space : StateSpace R) (state : StateId)
    (change : StateInfo R → StateInfo R) (handle : TransitionId) :
    (space.modifyState state change).transition? handle = space.transition? handle := rfl

@[simp] theorem index_modifyState (space : StateSpace R) (state : StateId)
    (change : StateInfo R → StateInfo R) :
    (space.modifyState state change).index = space.index := rfl

@[simp] theorem info?_notify (space : StateSpace R) (event : Event) (state : StateId) :
    (space.notify event).info? state = space.info? state := rfl

@[simp] theorem transition?_notify (space : StateSpace R) (event : Event)
    (handle : TransitionId) :
    (space.notify event).transition? handle = space.transition? handle := rfl

@[simp] theorem index_notify (space : StateSpace R) (event : Event) :
    (space.notify event).index = space.index := rfl

theorem info?_addState (space : StateSpace R) (graph : R.Graph) (depth : Nat)
    (state : StateId) :
    (space.addState graph depth).info? state =
      if state = ⟨space.states.size⟩ then some { graph := graph, depth := depth }
      else space.info? state := by
  obtain ⟨position⟩ := state
  simp [addState, info?, Array.getElem?_push]

@[simp] theorem transition?_addState (space : StateSpace R) (graph : R.Graph) (depth : Nat)
    (handle : TransitionId) :
    (space.addState graph depth).transition? handle = space.transition? handle := rfl

theorem index_addState (space : StateSpace R) (graph : R.Graph) (depth : Nat) (key : UInt64) :
    (space.addState graph depth).index.getD key [] =
      if (R.fingerprint graph).value = key then
        space.index.getD key [] ++ [⟨space.states.size⟩]
      else space.index.getD key [] := by
  simp only [addState, Std.TreeMap.getD_insert, Std.LawfulEqCmp.compare_eq_iff_eq]
  split
  · rename_i same
    rw [same]
  · rfl

/-- A state that is about to be added is not there yet. -/
theorem info?_next (space : StateSpace R) : space.info? ⟨space.states.size⟩ = none := by
  simp [info?]

end StateSpace

end OnTheFly
