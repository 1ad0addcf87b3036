import Mathlib.Data.List.Nodup
import OnTheFly.Proofs.RuleSystem.Labelled
import OnTheFly.Proofs.StateSpace.Chronicle

/-!
Contract: no match of a state is lost, invented or applied twice.

Owns: the order of pending matches, that the outgoing transitions of all states
are all transitions, what a failed application leaves behind, and the account of
a state space with a history: each match is pending or stands behind one
transition, and a state is closed once nothing is left of its matches.
-/

set_option autoImplicit false

namespace OnTheFly

namespace StateSpace

variable {R : RuleSystem}

/-! ## The order of pending matches -/

/-- Whether pending matches stand in the order in which they were offered. -/
def Ordered (space : StateSpace R) : Prop :=
  ∀ (state : StateId) (info : StateInfo R) (candidates : List R.Match),
    space.info? state = some info → info.pending = some candidates →
      candidates.Sublist (R.matchesOf info.graph)

theorem ordered_create (engine : R.Engine) : (create R engine).Ordered := by
  intro state info candidates present pending
  rw [create, info?_addState] at present
  split at present
  · cases present
    cases pending
  · simp [info?] at present

theorem Ordered.ensureMatches {space : StateSpace R} (ordered : space.Ordered) (state : StateId) :
    (space.ensureMatches state).Ordered := by
  intro other info candidates present pending
  rw [info?_ensureMatches] at present
  split at present
  · obtain ⟨before, presentBefore, rfl⟩ := Option.map_eq_some_iff.1 present
    rw [StateInfo.graph_asked]
    rcases before.pending_asked with same | ⟨_, found⟩
    · exact ordered _ _ _ presentBefore (same ▸ pending)
    · rw [found] at pending
      cases pending
      exact List.Sublist.refl _
  · exact ordered _ _ _ present pending

/-- A recorded application takes one match and leaves the others in order. -/
theorem Ordered.records {space later : StateSpace R} (ordered : space.Ordered) {state : StateId}
    {position : Nat} {rule : String} {graph : R.Graph} {applied : Applied} {info : StateInfo R}
    {candidates : List R.Match} (present : space.info? state = some info)
    (pending : info.pending = some candidates)
    (records : space.Records state position rule graph applied later) : later.Ordered := by
  intro other otherInfo others presentOther pendingOther
  by_cases same : other = state
  · subst same
    rw [records.source present pending] at presentOther
    cases presentOther
    cases pendingOther
    exact (List.eraseIdx_sublist _ _).trans (ordered other info candidates present pending)
  · rcases records.info?_cases same presentOther with before | ⟨_, _, rfl⟩
    · exact ordered _ _ _ before pendingOther
    · cases pendingOther

theorem Grows.ordered {space later : StateSpace R} (wellFormed : space.WellFormed)
    (ordered : space.Ordered) (grows : space.Grows later) : later.Ordered := by
  cases grows with
  | ask state => exact ordered.ensureMatches state
  | drain => exact ordered
  | remind engine => exact ordered
  | apply state position =>
      rcases wellFormed.applyMatch_cases state position with
        ⟨candidate, info, _, _, _, present, waiting, _, outcome, records⟩ | ⟨_, _, outcome⟩
      · rw [outcome]
        cases pending : info.pending with
        | none => simp [pending_of_info? present, pending] at waiting
        | some candidates => exact (ordered.ensureMatches state).records present pending records
      · rw [outcome]
        exact ordered.ensureMatches state

theorem HasHistory.ordered {space : StateSpace R} (history : space.HasHistory) :
    space.Ordered := by
  obtain ⟨engine, evolves⟩ := history
  induction evolves with
  | refl => exact ordered_create engine
  | tail before grows inductionHypothesis =>
      exact grows.ordered (HasHistory.wellFormed ⟨engine, before⟩) inductionHypothesis

/-! ## Transitions and their sources -/

/-- All transitions in order of creation. -/
def transitionIds (space : StateSpace R) : List TransitionId :=
  (List.range space.transitions.size).map TransitionId.mk

theorem nodup_transitionIds (space : StateSpace R) : space.transitionIds.Nodup :=
  List.nodup_range.map fun _ _ same => congrArg TransitionId.index same

namespace Accounted

variable {log : List (Application R)} {space : StateSpace R}

/-- No two entries of the log have added the same transition. -/
theorem entry_eq (accounted : Accounted log space) {first second : Application R}
    (memberFirst : first ∈ log) (memberSecond : second ∈ log)
    (same : first.transition = second.transition) : first = second := by
  have distinct : (log.map (·.transition)).Nodup :=
    accounted.handles ▸ space.nodup_transitionIds
  exact List.inj_on_of_nodup_map distinct memberFirst memberSecond same

theorem mem_out_iff (accounted : Accounted log space) {state : StateId} {handle : TransitionId} :
    handle ∈ space.out state ↔ ∃ entry ∈ log, entry.state = state ∧ entry.transition = handle := by
  rw [accounted.out]
  simp [applicationsAt, and_assoc]

theorem nodup_out (accounted : Accounted log space) (state : StateId) :
    (space.out state).Nodup := by
  have distinct : (log.map (·.transition)).Nodup :=
    accounted.handles ▸ space.nodup_transitionIds
  rw [accounted.out]
  exact distinct.sublist (List.filter_sublist.map _)

/-- Every transition leaves exactly one state, and is listed there once. -/
theorem out_perm (accounted : Accounted log space) :
    (space.stateIds.flatMap space.out).Perm space.transitionIds := by
  have distinct : (space.stateIds.flatMap space.out).Nodup := by
    rw [List.nodup_flatMap]
    refine ⟨fun state _ => accounted.nodup_out state, space.nodup_stateIds.imp ?_⟩
    intro first second different handle listedFirst listedSecond
    obtain ⟨entry, member, atFirst, adds⟩ := accounted.mem_out_iff.1 listedFirst
    obtain ⟨other, memberOther, atSecond, addsToo⟩ := accounted.mem_out_iff.1 listedSecond
    have same := accounted.entry_eq member memberOther (adds.trans addsToo.symm)
    exact different (atFirst ▸ atSecond ▸ congrArg Application.state same)
  rw [List.perm_ext_iff_of_nodup distinct space.nodup_transitionIds]
  intro handle
  rw [transitionIds, ← accounted.handles, List.mem_flatMap, List.mem_map]
  constructor
  · rintro ⟨state, _, listed⟩
    obtain ⟨entry, member, _, adds⟩ := accounted.mem_out_iff.1 listed
    exact ⟨entry, member, adds⟩
  · rintro ⟨entry, member, adds⟩
    obtain ⟨_, _, _, _, stored, _⟩ := accounted.recorded member
    obtain ⟨_, present, _⟩ := graph?_eq_some.1 stored
    exact ⟨entry.state, mem_stateIds.2 (contains_of_info? present),
      accounted.mem_out_iff.2 ⟨entry, member, rfl, adds⟩⟩

end Accounted

/-! ## Failures -/

theorem modifyState_congr {space : StateSpace R} {state : StateId}
    {first second : StateInfo R → StateInfo R}
    (same : ∀ info, space.info? state = some info → first info = second info) :
    space.modifyState state first = space.modifyState state second := by
  have states : space.states.modify state.index first = space.states.modify state.index second := by
    refine Array.ext_getElem? fun position => ?_
    rw [Array.getElem?_modify, Array.getElem?_modify]
    split
    · rename_i atState
      subst atState
      exact Option.map_congr fun info present => same info present
    · rfl
  rw [modifyState, modifyState, states]

theorem modifyState_self {space : StateSpace R} {state : StateId}
    {change : StateInfo R → StateInfo R}
    (same : ∀ info, space.info? state = some info → change info = info) :
    space.modifyState state change = space := by
  have states : space.states.modify state.index id = space.states := by
    refine Array.ext_getElem? fun position => ?_
    rw [Array.getElem?_modify]
    split <;> simp
  calc space.modifyState state change = space.modifyState state id := modifyState_congr same
    _ = space := by rw [modifyState, states]

/-- The space in which the matches of one state are known, and all else is as
it was. -/
def withMatches (space : StateSpace R) (state : StateId) : StateSpace R :=
  space.modifyState state fun info =>
    { info with pending := some (info.pending.getD (R.matchesOf info.graph)) }

/-- Asking for matches of which there are some does not close the state. -/
theorem WellFormed.ensureMatches_eq {space : StateSpace R} (wellFormed : space.WellFormed)
    {state : StateId} {candidate : R.Match} {position : Nat}
    (waiting : ((space.ensureMatches state).pending state)[position]? = some candidate) :
    space.ensureMatches state = space.withMatches state := by
  cases present : space.info? state with
  | none =>
      rw [withMatches, modifyState_self (by simp [present]), StateSpace.ensureMatches,
        present]
  | some info =>
      cases pending_ : info.pending with
      | some candidates =>
          have asked : space.Asked state := ⟨info, candidates, present, pending_⟩
          rw [asked.ensureMatches, withMatches, modifyState_self]
          intro same presentSame
          rw [present] at presentSame
          cases presentSame
          obtain ⟨_, _, _, _, _, _⟩ := info
          cases pending_
          rfl
      | none =>
          have isOpen : info.closed = false := by
            rw [Bool.eq_false_iff]
            intro closed
            rw [wellFormed.closed_done present closed] at pending_
            cases pending_
          have found : (R.matchesOf info.graph)[position]? = some candidate := by
            rw [pending, info?_ensureMatches, if_pos rfl, present, Option.map_some,
              StateInfo.asked, pending_, isOpen] at waiting
            exact waiting
          have someMatch : (R.matchesOf info.graph).isEmpty = false := by
            cases offered : R.matchesOf info.graph with
            | nil => simp [offered] at found
            | cons first others => rfl
          have asked : space.ensureMatches state =
              space.modifyState state ({ · with pending := some (R.matchesOf info.graph) }) := by
            simp [StateSpace.ensureMatches, present, pending_, isOpen, someMatch]
          rw [asked, withMatches]
          refine modifyState_congr fun same presentSame => ?_
          rw [present] at presentSame
          cases presentSame
          rw [pending_, Option.getD_none]

/-- An application out of range does no more than ask. One in range that fails
changes what the engine remembers and nothing else, but that the matches of the
state are known from then on. -/
theorem WellFormed.applyMatch_failed {space later : StateSpace R} (wellFormed : space.WellFormed)
    {state : StateId} {position : Nat} {failure : MatchFailure}
    (failed : space.applyMatch state position = (.error failure, later)) :
    (position < (space.pendingCount state).1 →
      later = { space.withMatches state with engine := later.engine }) ∧
    ((space.pendingCount state).1 ≤ position →
      failure = .outOfRange position state ∧ later = space.ensureMatches state) := by
  unfold StateSpace.applyMatch at failed
  simp only at failed
  split at failed
  · rename_i candidate graph waiting stored
    have inside := (List.getElem?_eq_some_iff.1 waiting).1
    refine ⟨fun _ => ?_, fun outside => absurd inside (Nat.not_lt.2 outside)⟩
    rw [← wellFormed.ensureMatches_eq waiting]
    split at failed <;> cases failed
    rfl
  · rename_i missing
    cases failed
    refine ⟨fun inside => ?_, fun _ => ⟨rfl, rfl⟩⟩
    have waiting := List.getElem?_eq_getElem inside
    cases present : (space.ensureMatches state).info? state with
    | none => simp [pending, present] at waiting
    | some info =>
        exact absurd (graph?_eq_some.2 ⟨info, present, rfl⟩) (missing _ _ waiting)

/-! ## The account -/

end StateSpace

/-- Whether `outcome` is the result of every successful application of a match,
and there is one. -/
def RuleSystem.Yields (R : RuleSystem) (graph : R.Graph) (candidate : R.Match)
    (outcome : R.Graph) : Prop :=
  (∃ engine, (R.apply engine graph candidate).1 = .ok outcome) ∧
    ∀ engine other, (R.apply engine graph candidate).1 = .ok other → other = outcome

namespace StateSpace

variable {R : RuleSystem}

/-- How the matches of all states are divided between the pending ones and the
applications of a log. -/
structure Conserves (log : List (Application R)) (space : StateSpace R) : Prop where
  shared {state : StateId} {info : StateInfo R} {candidates : List R.Match} :
    space.info? state = some info → info.pending = some candidates →
      (R.matchesOf info.graph).Perm (candidates ++ (applicationsAt log state).map (·.candidate))
  ordered {state : StateId} {info : StateInfo R} {candidates : List R.Match} :
    space.info? state = some info → info.pending = some candidates →
      candidates.Sublist (R.matchesOf info.graph)
  /-- The outgoing transitions are those of the applications, and there are none
  before the matches are known. -/
  out (state : StateId) : space.out state = (applicationsAt log state).map (·.transition)
  unasked {state : StateId} {info : StateInfo R} :
    space.info? state = some info → info.pending = none → space.out state = []
  /-- The transition of an application carries the name of its rule and leads to
  the state of the result. -/
  leads {entry : Application R} : entry ∈ log →
    ∃ graph outcome target, space.graph? entry.state = some graph ∧
      R.Yields graph entry.candidate outcome ∧
      space.transition? entry.transition =
        some ⟨entry.state, target, R.ruleName entry.candidate⟩ ∧
      space.graph? target = some (R.canonicalize outcome)
  closed_iff {state : StateId} {info : StateInfo R} :
    space.info? state = some info → (info.closed = true ↔ info.pending = some [])
  /-- Every transition leaves exactly one state, and is listed there once. -/
  partition : (space.stateIds.flatMap space.out).Perm space.transitionIds

theorem Chronicle.conserves {log : List (Application R)} {space : StateSpace R}
    (chronicle : Chronicle log space) (functional : R.Functional) : Conserves log space := by
  have history := chronicle.hasHistory
  have accounted := chronicle.accounted
  constructor
  · exact accounted.shared
  · exact history.ordered _ _ _
  · exact accounted.out
  · intro state info present unasked
    rw [accounted.out, accounted.untried present unasked]
    rfl
  · intro entry member
    obtain ⟨graph, outcome, engine, target, stored, succeeded, found, reached⟩ :=
      accounted.recorded member
    exact ⟨graph, outcome, target, stored,
      ⟨⟨engine, succeeded⟩, fun _ _ again => functional again succeeded⟩, found, reached⟩
  · intro state info present
    exact ⟨history.wellFormed.closed_done present, history.prompt _ _ present⟩
  · exact accounted.out_perm

/-- **Conservation of matches.** Whatever operations a state space has seen, the
matches of each of its states are the pending ones, in the order of the engine,
and one for each outgoing transition. A closed state keeps its transitions for
good, and a failed application at most makes the matches known. -/
theorem matches_conserved (functional : R.Functional) {space : StateSpace R}
    (history : space.HasHistory) :
    (∃ log, Chronicle log space) ∧ (∀ log, Chronicle log space → Conserves log space) ∧
      (∀ later state, space.Evolves later → space.isClosed state = true →
        later.isClosed state = true ∧ later.out state = space.out state) ∧
      ∀ state position failure later,
        space.applyMatch state position = (.error failure, later) →
          (position < (space.pendingCount state).1 →
            later = { space.withMatches state with engine := later.engine }) ∧
          ((space.pendingCount state).1 ≤ position →
            failure = .outOfRange position state ∧ later = space.ensureMatches state) := by
  have wellFormed := history.wellFormed
  refine ⟨history.chronicle, fun log chronicle => chronicle.conserves functional, ?_, ?_⟩
  · intro later state evolves closed
    exact (evolves.continues wellFormed).kept.closed closed
  · intro state position failure later failed
    exact wellFormed.applyMatch_failed failed

/-- Two edges between the same nodes, of which the first attempt is aborted. -/
def parallelSystem : LabelledSystem :=
  { nodes := #[{ name := "here" }, { name := "there" }]
    edges := #[⟨⟨0⟩, "go", ⟨1⟩⟩, ⟨⟨0⟩, "go", ⟨1⟩⟩]
    interruptions := ⟨[("go", 1)]⟩ }

/-- The space after an aborted application of the first match and one of the
second. -/
def parallelSpace : StateSpace parallelSystem.rules :=
  let space := create parallelSystem.rules parallelSystem.interruptions
  ((space.applyMatch startState 0).2.applyMatch startState 1).2

theorem parallelSpace_matches_conserved :
    parallelSystem.rules.Functional ∧ parallelSpace.HasHistory ∧
      parallelSpace.pending startState = [⟨0, "go"⟩] ∧ parallelSpace.out startState = [⟨0⟩] ∧
      ∃ log, Chronicle log parallelSpace ∧ Conserves log parallelSpace := by
  have history : parallelSpace.HasHistory :=
    ⟨parallelSystem.interruptions, .tail (.single (.apply _ startState 0)) (.apply _ startState 1)⟩
  obtain ⟨⟨log, chronicle⟩, conserved, _⟩ := matches_conserved parallelSystem.functional history
  exact ⟨parallelSystem.functional, history, rfl, by decide +kernel, log, chronicle,
    conserved log chronicle⟩

end StateSpace

end OnTheFly
