import Mathlib.Logic.Relation
import OnTheFly.Proofs.StateSpace.Entries

/-!
Contract: how a state space can change over any sequence of operations.

Owns: evolution as a sequence of operations, state spaces with a history, the
invariant that every history keeps, and what evolution never changes: stored
graphs, transitions, and the outgoing transitions of closed states.
-/

set_option autoImplicit false

namespace OnTheFly

/-- The graphs that applications lead to from the start graph, whatever the
engine remembers at each of them. -/
inductive RuleSystem.Reachable (R : RuleSystem) : R.Graph → Prop where
  | start : R.Reachable R.startGraph
  | apply {graph target : R.Graph} {candidate : R.Match} {engine : R.Engine}
      (source : R.Reachable graph) (offered : candidate ∈ R.matchesOf graph)
      (applied : (R.apply engine graph candidate).1 = .ok target) :
      R.Reachable (R.canonicalize target)

namespace StateSpace

variable {R : RuleSystem}

/-- One operation on a state space. The last one is somebody else changing what
the engine remembers. -/
inductive Grows : StateSpace R → StateSpace R → Prop where
  | ask (space : StateSpace R) (state : StateId) : Grows space (space.ensureMatches state)
  | apply (space : StateSpace R) (state : StateId) (position : Nat) :
      Grows space (space.applyMatch state position).2
  | drain (space : StateSpace R) : Grows space space.drainEvents.2
  | remind (space : StateSpace R) (engine : R.Engine) : Grows space { space with engine := engine }

/-- Any number of operations. -/
abbrev Evolves : StateSpace R → StateSpace R → Prop :=
  Relation.ReflTransGen Grows

/-- Whether the state space is what some operations made of a fresh one. -/
def HasHistory (space : StateSpace R) : Prop :=
  ∃ engine, Evolves (create R engine) space

theorem HasHistory.evolves {space later : StateSpace R} (history : space.HasHistory)
    (evolves : space.Evolves later) : later.HasHistory := by
  obtain ⟨engine, before⟩ := history
  exact ⟨engine, before.trans evolves⟩

/-! ## The invariant -/

/-- What holds of a state space with a history. -/
structure WellFormed (space : StateSpace R) : Prop where
  stored_once {first second : StateId} {graph : R.Graph} :
    space.graph? first = some graph → space.graph? second = some graph → first = second
  indexed {state : StateId} {graph : R.Graph} :
    space.graph? state = some graph → state ∈ space.index.getD (R.fingerprint graph).value []
  index_contained {key : UInt64} {state : StateId} :
    state ∈ space.index.getD key [] → space.contains state = true
  reachable {state : StateId} {graph : R.Graph} :
    space.graph? state = some graph → R.Reachable graph
  closed_done {state : StateId} {info : StateInfo R} :
    space.info? state = some info → info.closed = true → info.pending = some []
  pending_offered {state : StateId} {info : StateInfo R} {candidates : List R.Match} :
    space.info? state = some info → info.pending = some candidates →
      ∀ candidate ∈ candidates, candidate ∈ R.matchesOf info.graph
  out_valid {state : StateId} {handle : TransitionId} :
    handle ∈ space.out state →
      ∃ transition, space.transition? handle = some transition ∧ transition.source = state ∧
        space.contains transition.target = true

/-- What evolution keeps of a state space. -/
structure Extends (space later : StateSpace R) : Prop where
  graph {state : StateId} {graph : R.Graph} :
    space.graph? state = some graph → later.graph? state = some graph
  transition {handle : TransitionId} {transition : Transition} :
    space.transition? handle = some transition → later.transition? handle = some transition
  closed {state : StateId} :
    space.isClosed state = true → later.isClosed state = true ∧ later.out state = space.out state

theorem Extends.refl (space : StateSpace R) : space.Extends space :=
  ⟨id, id, fun closed => ⟨closed, rfl⟩⟩

theorem Extends.trans {first second third : StateSpace R} (before : first.Extends second)
    (after : second.Extends third) : first.Extends third where
  graph stored := after.graph (before.graph stored)
  transition present := after.transition (before.transition present)
  closed closed := by
    obtain ⟨stillClosed, sameOut⟩ := before.closed closed
    obtain ⟨laterClosed, laterOut⟩ := after.closed stillClosed
    exact ⟨laterClosed, laterOut.trans sameOut⟩

theorem Extends.contains {space later : StateSpace R} (extends_ : space.Extends later)
    {state : StateId} (contained : space.contains state = true) :
    later.contains state = true := by
  obtain ⟨info, present⟩ := contains_iff.1 contained
  obtain ⟨laterInfo, laterPresent, _⟩ :=
    graph?_eq_some.1 (extends_.graph (graph?_eq_some.2 ⟨info, present, rfl⟩))
  exact contains_of_info? laterPresent

/-- A change that keeps the invariant and all that evolution keeps. -/
structure Continues (space later : StateSpace R) : Prop where
  wellFormed : later.WellFormed
  kept : space.Extends later

theorem Continues.trans {first second third : StateSpace R} (before : first.Continues second)
    (after : second.Continues third) : first.Continues third :=
  ⟨after.wellFormed, before.kept.trans after.kept⟩

/-! ## Primitive changes -/

/-- Events and the engine are no part of the invariant. -/
theorem WellFormed.continues_of_same_entries {space later : StateSpace R}
    (wellFormed : space.WellFormed) (states : later.states = space.states)
    (transitions : later.transitions = space.transitions) (index : later.index = space.index) :
    space.Continues later := by
  have sameInfo : later.info? = space.info? := by
    funext state
    simp [info?, states]
  have sameTransition : later.transition? = space.transition? := by
    funext handle
    simp [transition?, transitions]
  have sameGraph : later.graph? = space.graph? := by
    funext state
    simp [graph?, sameInfo]
  have sameOut : later.out = space.out := by
    funext state
    simp [out, sameInfo]
  have sameContains : later.contains = space.contains := by
    funext state
    simp [contains, states]
  have sameClosed : later.isClosed = space.isClosed := by
    funext state
    simp [isClosed, sameInfo]
  constructor
  · constructor
    · rw [sameGraph]; exact wellFormed.stored_once
    · rw [sameGraph, index]; exact wellFormed.indexed
    · rw [sameContains, index]; exact wellFormed.index_contained
    · rw [sameGraph]; exact wellFormed.reachable
    · rw [sameInfo]; exact wellFormed.closed_done
    · rw [sameInfo]; exact wellFormed.pending_offered
    · rw [sameOut, sameTransition, sameContains]; exact wellFormed.out_valid
  · constructor
    · rw [sameGraph]; exact id
    · rw [sameTransition]; exact id
    · rw [sameClosed, sameOut]; exact fun closed => ⟨closed, rfl⟩

theorem graph?_modifyState (space : StateSpace R) (state other : StateId)
    {change : StateInfo R → StateInfo R} (graph : ∀ info, (change info).graph = info.graph) :
    (space.modifyState state change).graph? other = space.graph? other := by
  simp only [graph?, info?_modifyState]
  split
  · cases space.info? other <;> simp [graph]
  · rfl

theorem out_modifyState (space : StateSpace R) (state other : StateId)
    {change : StateInfo R → StateInfo R} (out_ : ∀ info, (change info).out = info.out) :
    (space.modifyState state change).out other = space.out other := by
  simp only [out, info?_modifyState]
  split
  · cases space.info? other <;> simp [out_]
  · rfl

@[simp] theorem contains_modifyState (space : StateSpace R) (state other : StateId)
    (change : StateInfo R → StateInfo R) :
    (space.modifyState state change).contains other = space.contains other := by
  simp [contains, modifyState]

/-- A change of one entry that keeps its graph, its transitions and a closed
flag, and leaves nothing pending in a closed state. -/
theorem WellFormed.modifyState {space : StateSpace R} (wellFormed : space.WellFormed)
    (state : StateId) {change : StateInfo R → StateInfo R}
    (graph : ∀ info, (change info).graph = info.graph)
    (out_ : ∀ info, (change info).out = info.out)
    (stillClosed : ∀ info, info.closed = true → (change info).closed = true)
    (closed : ∀ info, space.info? state = some info →
      (change info).closed = true → (change info).pending = some [])
    (offered : ∀ info candidates, space.info? state = some info →
      (change info).pending = some candidates →
        ∀ candidate ∈ candidates, candidate ∈ R.matchesOf info.graph) :
    space.Continues (space.modifyState state change) := by
  have sameGraph : (space.modifyState state change).graph? = space.graph? :=
    funext fun other => graph?_modifyState space state other graph
  have sameOut : (space.modifyState state change).out = space.out :=
    funext fun other => out_modifyState space state other out_
  constructor
  · constructor
    · rw [sameGraph]; exact wellFormed.stored_once
    · rw [sameGraph]; exact wellFormed.indexed
    · intro key other member
      rw [contains_modifyState]
      exact wellFormed.index_contained member
    · rw [sameGraph]; exact wellFormed.reachable
    · intro other info present
      rw [info?_modifyState] at present
      split at present
      · rename_i same
        subst same
        obtain ⟨before, presentBefore, rfl⟩ := Option.map_eq_some_iff.1 present
        exact closed before presentBefore
      · exact wellFormed.closed_done present
    · intro other info candidates present pending
      rw [info?_modifyState] at present
      split at present
      · rename_i same
        subst same
        obtain ⟨before, presentBefore, rfl⟩ := Option.map_eq_some_iff.1 present
        rw [graph]
        exact offered before candidates presentBefore pending
      · exact wellFormed.pending_offered present pending
    · intro other handle member
      rw [sameOut] at member
      simpa using wellFormed.out_valid member
  · constructor
    · rw [sameGraph]; exact id
    · exact id
    · intro other isClosed
      refine ⟨?_, by rw [sameOut]⟩
      obtain ⟨info, present, infoClosed⟩ := isClosed_iff.1 isClosed
      rw [isClosed_iff]
      by_cases same : state = other
      · exact ⟨change info, by simp [same, present], stillClosed info infoClosed⟩
      · exact ⟨info, by simp [same, present], infoClosed⟩

theorem contains_addState {space : StateSpace R} {graph : R.Graph} {depth : Nat}
    {state : StateId} :
    (space.addState graph depth).contains state = true ↔
      state = ⟨space.states.size⟩ ∨ space.contains state = true := by
  obtain ⟨position⟩ := state
  simp only [contains, addState, Array.size_push, decide_eq_true_eq, StateId.mk.injEq]
  omega

theorem graph?_addState_of_some {space : StateSpace R} {graph stored : R.Graph} {depth : Nat}
    {state : StateId} (present : space.graph? state = some stored) :
    (space.addState graph depth).graph? state = some stored := by
  obtain ⟨info, infoPresent, rfl⟩ := graph?_eq_some.1 present
  have different : state ≠ ⟨space.states.size⟩ := by
    rintro rfl
    rw [info?_next] at infoPresent
    cases infoPresent
  exact graph?_eq_some.2 ⟨info, by rw [info?_addState, if_neg different, infoPresent], rfl⟩

/-- Each state of the extended space is the new one or was there before. -/
theorem graph?_addState_cases {space : StateSpace R} {graph stored : R.Graph} {depth : Nat}
    {state : StateId} (present : (space.addState graph depth).graph? state = some stored) :
    (state = ⟨space.states.size⟩ ∧ stored = graph) ∨ space.graph? state = some stored := by
  obtain ⟨info, infoPresent, rfl⟩ := graph?_eq_some.1 present
  rw [info?_addState] at infoPresent
  split at infoPresent
  · rename_i new
    cases infoPresent
    exact .inl ⟨new, rfl⟩
  · exact .inr (graph?_eq_some.2 ⟨info, infoPresent, rfl⟩)

theorem mem_index_addState {space : StateSpace R} {graph : R.Graph} {depth : Nat}
    {key : UInt64} {state : StateId} :
    state ∈ (space.addState graph depth).index.getD key [] ↔
      state ∈ space.index.getD key [] ∨
        (state = ⟨space.states.size⟩ ∧ (R.fingerprint graph).value = key) := by
  rw [index_addState]
  split <;> simp_all

theorem findStored?_eq_none {space : StateSpace R} (wellFormed : space.WellFormed)
    {graph : R.Graph} (unknown : space.findStored? graph = none) (state : StateId) :
    space.graph? state ≠ some graph := by
  intro stored
  have found := List.find?_eq_none.1 unknown state (wellFormed.indexed stored)
  simp [stored] at found

theorem WellFormed.addState {space : StateSpace R} (wellFormed : space.WellFormed)
    {graph : R.Graph} (depth : Nat) (reachable : R.Reachable graph)
    (unknown : ∀ state, space.graph? state ≠ some graph) :
    space.Continues (space.addState graph depth) := by
  constructor
  · constructor
    · intro first second stored firstStored secondStored
      rcases graph?_addState_cases firstStored with ⟨rfl, rfl⟩ | firstBefore <;>
        rcases graph?_addState_cases secondStored with ⟨rfl, same⟩ | secondBefore
      · rfl
      · exact absurd secondBefore (unknown second)
      · exact absurd (same ▸ firstBefore) (unknown first)
      · exact wellFormed.stored_once firstBefore secondBefore
    · intro state stored present
      rw [mem_index_addState]
      rcases graph?_addState_cases present with ⟨rfl, rfl⟩ | before
      · exact .inr ⟨rfl, rfl⟩
      · exact .inl (wellFormed.indexed before)
    · intro key state member
      rw [contains_addState]
      rcases mem_index_addState.1 member with before | ⟨new, _⟩
      · exact .inr (wellFormed.index_contained before)
      · exact .inl new
    · intro state stored present
      rcases graph?_addState_cases present with ⟨rfl, rfl⟩ | before
      · exact reachable
      · exact wellFormed.reachable before
    · intro state info present
      rw [info?_addState] at present
      split at present
      · cases present
        simp
      · exact wellFormed.closed_done present
    · intro state info candidates present pending
      rw [info?_addState] at present
      split at present
      · cases present
        cases pending
      · exact wellFormed.pending_offered present pending
    · intro state handle member
      obtain ⟨info, present, member⟩ := mem_out.1 member
      rw [info?_addState] at present
      split at present
      · cases present
        cases member
      · obtain ⟨transition, found, source, target⟩ :=
          wellFormed.out_valid (mem_out.2 ⟨info, present, member⟩)
        exact ⟨transition, found, source, contains_addState.2 (.inr target)⟩
  · constructor
    · exact graph?_addState_of_some
    · exact id
    · intro state closed
      obtain ⟨info, present, infoClosed⟩ := isClosed_iff.1 closed
      have different : state ≠ ⟨space.states.size⟩ := by
        rintro rfl
        rw [info?_next] at present
        cases present
      have presentAfter : (space.addState graph depth).info? state = some info := by
        rw [info?_addState, if_neg different, present]
      exact ⟨isClosed_iff.2 ⟨info, presentAfter, infoClosed⟩,
        by rw [out_of_info? presentAfter, out_of_info? present]⟩

/-- The entry of a canonical graph, new or not, and the space that holds it. -/
theorem WellFormed.insert {space : StateSpace R} (wellFormed : space.WellFormed)
    (graph : R.Graph) (depth : Nat) (reachable : R.Reachable graph) :
    space.Continues (space.insert graph depth).2 ∧
      (space.insert graph depth).2.contains (space.insert graph depth).1.1 = true := by
  unfold StateSpace.insert
  cases found : space.findStored? graph with
  | some existing =>
      have member := List.mem_of_find?_eq_some found
      exact ⟨⟨wellFormed, .refl space⟩, wellFormed.index_contained member⟩
  | none =>
      exact ⟨wellFormed.addState depth reachable (findStored?_eq_none wellFormed found),
        contains_addState.2 (.inl rfl)⟩

theorem info?_insert_of_some {space : StateSpace R} (graph : R.Graph) (depth : Nat)
    {state : StateId} {info : StateInfo R} (present : space.info? state = some info) :
    (space.insert graph depth).2.info? state = some info := by
  unfold StateSpace.insert
  split
  · exact present
  · have different : state ≠ ⟨space.states.size⟩ := by
      rintro rfl
      rw [info?_next] at present
      cases present
    simp only [info?_addState, if_neg different, present]

/-! ## Adding a transition -/

theorem transition?_addTransition (space : StateSpace R) (added : Transition) (fresh : Bool)
    (handle : TransitionId) :
    (space.addTransition added fresh).transition? handle =
      if handle = ⟨space.transitions.size⟩ then some added else space.transition? handle := by
  obtain ⟨position⟩ := handle
  cases fresh <;>
    simp [addTransition, transition?, modifyState, notify, Array.getElem?_push]

theorem contains_addTransition (space : StateSpace R) (added : Transition) (fresh : Bool)
    (state : StateId) :
    (space.addTransition added fresh).contains state = space.contains state := by
  cases fresh <;> simp [addTransition, contains, modifyState, notify]

@[simp] theorem index_addTransition (space : StateSpace R) (added : Transition)
    (fresh : Bool) : (space.addTransition added fresh).index = space.index := by
  cases fresh <;> rfl

/-- A new transition changes nothing of an entry but its outgoing transitions,
and these only at its source. -/
theorem info?_addTransition {space : StateSpace R} (added : Transition) (fresh : Bool)
    {state : StateId} {info : StateInfo R} (present : space.info? state = some info) :
    ∃ after, (space.addTransition added fresh).info? state = some after ∧
      after.graph = info.graph ∧ after.closed = info.closed ∧ after.pending = info.pending ∧
      after.out = if added.source = state then info.out ++ [⟨space.transitions.size⟩]
        else info.out := by
  have presentInside :
      info? { space with transitions := space.transitions.push added } state = some info := present
  cases fresh <;> by_cases atSource : added.source = state <;>
    by_cases atTarget : added.target = state <;>
      simp [addTransition, presentInside, atSource, atTarget]

theorem info?_addTransition_some {space : StateSpace R} {added : Transition} {fresh : Bool}
    {state : StateId} {after : StateInfo R}
    (present : (space.addTransition added fresh).info? state = some after) :
    ∃ info, space.info? state = some info ∧ after.graph = info.graph ∧
      after.closed = info.closed ∧ after.pending = info.pending ∧
      after.out = if added.source = state then info.out ++ [⟨space.transitions.size⟩]
        else info.out := by
  have contained := contains_of_info? present
  rw [contains_addTransition] at contained
  obtain ⟨info, presentBefore⟩ := contains_iff.1 contained
  obtain ⟨known, presentAfter, same⟩ := info?_addTransition added fresh presentBefore
  rw [present] at presentAfter
  cases presentAfter
  exact ⟨info, presentBefore, same⟩

theorem graph?_addTransition (space : StateSpace R) (added : Transition) (fresh : Bool)
    (state : StateId) (graph : R.Graph) :
    (space.addTransition added fresh).graph? state = some graph ↔
      space.graph? state = some graph := by
  rw [graph?_eq_some, graph?_eq_some]
  constructor
  · rintro ⟨after, present, rfl⟩
    obtain ⟨info, presentBefore, same, _⟩ := info?_addTransition_some present
    exact ⟨info, presentBefore, same.symm⟩
  · rintro ⟨info, present, rfl⟩
    obtain ⟨after, presentAfter, same, _⟩ := info?_addTransition added fresh present
    exact ⟨after, presentAfter, same⟩

theorem WellFormed.addTransition {space : StateSpace R} (wellFormed : space.WellFormed)
    (added : Transition) (fresh : Bool) (target : space.contains added.target = true)
    (sourceOpen : space.isClosed added.source = false) :
    space.Continues (space.addTransition added fresh) := by
  have newHandle : ∀ {handle transition}, space.transition? handle = some transition →
      handle ≠ ⟨space.transitions.size⟩ := by
    rintro _ _ present rfl
    simp [transition?] at present
  constructor
  · constructor
    · simp only [graph?_addTransition]
      exact wellFormed.stored_once
    · simp only [graph?_addTransition, index_addTransition]
      exact wellFormed.indexed
    · simp only [contains_addTransition, index_addTransition]
      exact wellFormed.index_contained
    · simp only [graph?_addTransition]
      exact wellFormed.reachable
    · intro state after present
      obtain ⟨info, presentBefore, _, sameClosed, samePending, _⟩ :=
        info?_addTransition_some present
      rw [sameClosed, samePending]
      exact wellFormed.closed_done presentBefore
    · intro state after candidates present pending
      obtain ⟨info, presentBefore, sameGraph, _, samePending, _⟩ :=
        info?_addTransition_some present
      rw [sameGraph]
      exact wellFormed.pending_offered presentBefore (samePending ▸ pending)
    · intro state handle member
      obtain ⟨after, present, member⟩ := mem_out.1 member
      obtain ⟨info, presentBefore, _, _, _, sameOut⟩ := info?_addTransition_some present
      simp only [transition?_addTransition, contains_addTransition]
      have old : handle ∈ info.out → ∃ transition,
          (if handle = ⟨space.transitions.size⟩ then some added
            else space.transition? handle) = some transition ∧
          transition.source = state ∧ space.contains transition.target = true := by
        intro memberBefore
        obtain ⟨transition, found, valid⟩ :=
          wellFormed.out_valid (mem_out.2 ⟨info, presentBefore, memberBefore⟩)
        exact ⟨transition, by rw [if_neg (newHandle found), found], valid⟩
      rw [sameOut] at member
      split at member
      · rename_i atSource
        rcases List.mem_append.1 member with memberBefore | isNew
        · exact old memberBefore
        · have isNew : handle = ⟨space.transitions.size⟩ := by simpa using isNew
          exact ⟨added, by rw [if_pos isNew], atSource, target⟩
      · exact old member
  · constructor
    · intro state graph
      exact (graph?_addTransition space added fresh state graph).2
    · intro handle transition present
      rw [transition?_addTransition, if_neg (newHandle present), present]
    · intro state closed
      obtain ⟨info, present, infoClosed⟩ := isClosed_iff.1 closed
      have different : added.source ≠ state := by
        rintro rfl
        rw [sourceOpen] at closed
        cases closed
      obtain ⟨after, presentAfter, _, sameClosed, _, sameOut⟩ :=
        info?_addTransition added fresh present
      rw [if_neg different] at sameOut
      exact ⟨isClosed_iff.2 ⟨after, presentAfter, sameClosed.trans infoClosed⟩,
        by rw [out_of_info? presentAfter, out_of_info? present, sameOut]⟩

/-! ## Operations -/

theorem WellFormed.close {space : StateSpace R} (wellFormed : space.WellFormed)
    (state : StateId) : space.Continues (space.close state) := by
  unfold StateSpace.close
  split
  · exact ⟨wellFormed, .refl space⟩
  · have modified : space.Continues
        (space.modifyState state ({ · with closed := true, pending := some [] })) := by
      apply wellFormed.modifyState state
      · intro info; rfl
      · intro info; rfl
      · intro info closed; rfl
      · intro info present closed; rfl
      · intro info candidates present pending candidate member
        cases pending
        cases member
    exact modified.trans (modified.wellFormed.continues_of_same_entries rfl rfl rfl)

theorem WellFormed.ensureMatches {space : StateSpace R} (wellFormed : space.WellFormed)
    (state : StateId) : space.Continues (space.ensureMatches state) := by
  unfold StateSpace.ensureMatches
  split
  · exact ⟨wellFormed, .refl space⟩
  · rename_i info present
    split
    · exact ⟨wellFormed, .refl space⟩
    · rename_i untouched
      simp only [Bool.or_eq_true, not_or, Bool.not_eq_true] at untouched
      have modified : space.Continues (space.modifyState state
          ({ · with pending := some (R.matchesOf info.graph) })) := by
        apply wellFormed.modifyState state
        · intro other; rfl
        · intro other; rfl
        · intro other closed; exact closed
        · intro other otherPresent closed
          rw [present] at otherPresent
          cases otherPresent
          rw [untouched.2] at closed
          cases closed
        · intro other candidates otherPresent pending candidate member
          rw [present] at otherPresent
          cases otherPresent
          cases pending
          exact member
      simp only
      split
      · exact modified.trans (modified.wellFormed.close state)
      · exact modified

theorem WellFormed.closeIfDone {space : StateSpace R} (wellFormed : space.WellFormed)
    (state : StateId) : space.Continues (space.closeIfDone state) := by
  unfold StateSpace.closeIfDone
  split
  · exact wellFormed.close state
  · exact ⟨wellFormed, .refl space⟩

/-- A state with something pending is open. -/
theorem WellFormed.isClosed_eq_false {space : StateSpace R} (wellFormed : space.WellFormed)
    {state : StateId} {position : Nat} {candidate : R.Match}
    (waiting : (space.pending state)[position]? = some candidate) :
    space.isClosed state = false := by
  rw [Bool.eq_false_iff]
  intro closed
  obtain ⟨info, present, infoClosed⟩ := isClosed_iff.1 closed
  rw [pending_of_info? present, wellFormed.closed_done present infoClosed] at waiting
  simp at waiting

/-- The space after a match has been taken from the pending ones. -/
def withoutMatch (space : StateSpace R) (state : StateId) (position : Nat) :
    StateSpace R :=
  space.modifyState state fun info =>
    { info with pending := info.pending.map (·.eraseIdx position) }

theorem WellFormed.withoutMatch {space : StateSpace R} (wellFormed : space.WellFormed)
    (state : StateId) (position : Nat) :
    space.Continues (space.withoutMatch state position) := by
  apply wellFormed.modifyState state
  · intro info; rfl
  · intro info; rfl
  · intro info closed; exact closed
  · intro info present closed
    rw [wellFormed.closed_done present closed]
    simp
  · intro info candidates present pending candidate member
    obtain ⟨before, pendingBefore, rfl⟩ := Option.map_eq_some_iff.1 pending
    exact wellFormed.pending_offered present pendingBefore candidate
      (List.mem_of_mem_eraseIdx member)

/-- The parts of which an application is recorded, and what it answers. -/
theorem recordApplication_eq_mk (space : StateSpace R) (state : StateId) (position : Nat)
    (rule : String) (graph : R.Graph) {target : StateId} {fresh : Bool}
    {extended : StateSpace R}
    (inserted : (space.withoutMatch state position).insert (R.canonicalize graph)
      (space.depth state + 1) = ((target, fresh), extended)) :
    space.recordApplication state position rule graph =
      (⟨⟨extended.transitions.size⟩, target, fresh⟩,
        (extended.addTransition ⟨state, target, rule⟩ fresh).closeIfDone state) := by
  unfold StateSpace.withoutMatch at inserted
  simp only [recordApplication, inserted]

theorem recordApplication_eq (space : StateSpace R) (state : StateId) (position : Nat)
    (rule : String) (graph : R.Graph) {target : StateId} {fresh : Bool}
    {extended : StateSpace R}
    (inserted : (space.withoutMatch state position).insert (R.canonicalize graph)
      (space.depth state + 1) = ((target, fresh), extended)) :
    (space.recordApplication state position rule graph).2 =
      (extended.addTransition ⟨state, target, rule⟩ fresh).closeIfDone state :=
  congrArg Prod.snd (recordApplication_eq_mk space state position rule graph inserted)

/-- The source of an application, after its target has been stored. -/
theorem info?_beforeClosing {space extended : StateSpace R} {state target : StateId}
    {position : Nat} {fresh : Bool} {graph : R.Graph} {depth : Nat} {info : StateInfo R}
    (present : space.info? state = some info)
    (inserted : (space.withoutMatch state position).insert graph depth =
      ((target, fresh), extended)) :
    extended.info? state =
      some { info with pending := info.pending.map (·.eraseIdx position) } := by
  have taken : (space.withoutMatch state position).info? state =
      some { info with pending := info.pending.map (·.eraseIdx position) } := by
    simp [StateSpace.withoutMatch, present]
  have kept := info?_insert_of_some graph depth taken
  rw [inserted] at kept
  exact kept

theorem WellFormed.recordApplication {space : StateSpace R} (wellFormed : space.WellFormed)
    {state : StateId} {info : StateInfo R} (position : Nat) (rule : String) {graph : R.Graph}
    (reachable : R.Reachable (R.canonicalize graph))
    (present : space.info? state = some info) (isOpen : info.closed = false) :
    space.Continues (space.recordApplication state position rule graph).2 := by
  have taken := wellFormed.withoutMatch state position
  have insertion :=
    taken.wellFormed.insert (R.canonicalize graph) (space.depth state + 1) reachable
  cases inserted : (space.withoutMatch state position).insert (R.canonicalize graph)
      (space.depth state + 1) with
  | mk entry extended =>
      obtain ⟨target, fresh⟩ := entry
      rw [inserted] at insertion
      obtain ⟨continues, contained⟩ := insertion
      have stillOpen : extended.isClosed state = false := by
        simp [isClosed, info?_beforeClosing present inserted, isOpen]
      have connected :=
        continues.wellFormed.addTransition ⟨state, target, rule⟩ fresh contained stillOpen
      have finished := connected.wellFormed.closeIfDone state
      rw [recordApplication_eq space state position rule graph inserted]
      exact ((taken.trans continues).trans connected).trans finished

theorem WellFormed.applyMatch {space : StateSpace R} (wellFormed : space.WellFormed)
    (state : StateId) (position : Nat) :
    space.Continues (space.applyMatch state position).2 := by
  have asked := wellFormed.ensureMatches state
  unfold StateSpace.applyMatch
  simp only
  split
  · rename_i candidate graph waiting stored
    have reminded (engine : R.Engine) : (space.ensureMatches state).Continues
        { space.ensureMatches state with engine := engine } :=
      asked.wellFormed.continues_of_same_entries rfl rfl rfl
    cases outcome : R.apply (space.ensureMatches state).engine graph candidate with
    | mk result engine =>
        cases result with
        | error error => exact asked.trans (reminded engine)
        | ok target =>
            obtain ⟨info, present, rfl⟩ := graph?_eq_some.1 stored
            have offered : candidate ∈ R.matchesOf info.graph := by
              rw [pending_of_info? present] at waiting
              cases pending : info.pending with
              | none => simp [pending] at waiting
              | some candidates =>
                  rw [pending] at waiting
                  exact asked.wellFormed.pending_offered present pending candidate
                    (List.mem_of_getElem? waiting)
            have applied : (R.apply (space.ensureMatches state).engine info.graph candidate).1 =
                .ok target := by
              rw [outcome]
            have reachable : R.Reachable (R.canonicalize target) :=
              .apply (asked.wellFormed.reachable stored) offered applied
            have isOpen : info.closed = false := by
              have sourceOpen := asked.wellFormed.isClosed_eq_false waiting
              simpa [isClosed, present] using sourceOpen
            exact (asked.trans (reminded engine)).trans
              ((reminded engine).wellFormed.recordApplication position _ reachable present isOpen)
  · exact asked

theorem Grows.continues {space later : StateSpace R} (wellFormed : space.WellFormed)
    (grows : space.Grows later) : space.Continues later := by
  cases grows with
  | ask state => exact wellFormed.ensureMatches state
  | apply state position => exact wellFormed.applyMatch state position
  | drain => exact wellFormed.continues_of_same_entries rfl rfl rfl
  | remind engine => exact wellFormed.continues_of_same_entries rfl rfl rfl

theorem Evolves.continues {space later : StateSpace R} (wellFormed : space.WellFormed)
    (evolves : space.Evolves later) : space.Continues later := by
  induction evolves with
  | refl => exact ⟨wellFormed, .refl space⟩
  | tail _ grows inductionHypothesis =>
      exact inductionHypothesis.trans (grows.continues inductionHypothesis.wellFormed)

/-- A state space without states, from which a fresh one is made. -/
private theorem wellFormed_empty (engine : R.Engine) :
    ({ engine := engine } : StateSpace R).WellFormed := by
  constructor <;> intros <;> simp_all [graph?, info?, out]

theorem wellFormed_create (engine : R.Engine) : (create R engine).WellFormed :=
  ((wellFormed_empty engine).addState 0 .start (by simp [graph?, info?])).wellFormed

theorem HasHistory.wellFormed {space : StateSpace R} (history : space.HasHistory) :
    space.WellFormed := by
  obtain ⟨engine, evolves⟩ := history
  exact (Evolves.continues (wellFormed_create engine) evolves).wellFormed

end StateSpace

end OnTheFly
