import Mathlib.Data.List.Perm.Basic
import OnTheFly.Proofs.StateSpace.Application

/-!
Contract: a state space accounts for every application ever made in it.

Owns: the log of all successful applications of a history, the invariant that
the matches of a state are those pending and those in the log, one transition
for each entry of the log, and that every state is connected to the start state.
-/

set_option autoImplicit false

namespace OnTheFly

/-- A successful application and the transition that it added. -/
structure Application (R : RuleSystem) where
  state : StateId
  candidate : R.Match
  transition : TransitionId

/-- Whether the result of a successful application depends on the graph and
the match only. -/
def RuleSystem.Functional (R : RuleSystem) : Prop :=
  ∀ {graph : R.Graph} {candidate : R.Match} {first second : R.Engine} {target other : R.Graph},
    (R.apply first graph candidate).1 = .ok target →
    (R.apply second graph candidate).1 = .ok other → target = other

variable {R : RuleSystem}

/-- The applications of matches of one state, in order. -/
def applicationsAt (log : List (Application R)) (state : StateId) : List (Application R) :=
  log.filter (·.state = state)

theorem applicationsAt_append (first second : List (Application R)) (state : StateId) :
    applicationsAt (first ++ second) state =
      applicationsAt first state ++ applicationsAt second state :=
  List.filter_append _ _

theorem applicationsAt_concat_same (log : List (Application R)) (entry : Application R) :
    applicationsAt (log ++ [entry]) entry.state = applicationsAt log entry.state ++ [entry] := by
  simp [applicationsAt]

theorem applicationsAt_concat_other (log : List (Application R)) {entry : Application R}
    {state : StateId} (different : state ≠ entry.state) :
    applicationsAt (log ++ [entry]) state = applicationsAt log state := by
  simp [applicationsAt, different.symm]

namespace StateSpace

/-- A history of a state space with the log of its successful applications. -/
inductive Chronicle : List (Application R) → StateSpace R → Prop where
  | fresh (engine : R.Engine) : Chronicle [] (create R engine)
  | ask {log : List (Application R)} {space : StateSpace R} (state : StateId)
      (before : Chronicle log space) : Chronicle log (space.ensureMatches state)
  | applied {log : List (Application R)} {space later : StateSpace R} {state : StateId}
      {position : Nat} {candidate : R.Match} {applied : Applied} (before : Chronicle log space)
      (waiting : ((space.ensureMatches state).pending state)[position]? = some candidate)
      (outcome : space.applyMatch state position = (.ok applied, later)) :
      Chronicle (log ++ [⟨state, candidate, applied.transition⟩]) later
  | refused {log : List (Application R)} {space later : StateSpace R} {state : StateId}
      {position : Nat} {failure : MatchFailure} (before : Chronicle log space)
      (outcome : space.applyMatch state position = (.error failure, later)) :
      Chronicle log later
  | drain {log : List (Application R)} {space : StateSpace R} (before : Chronicle log space) :
      Chronicle log space.drainEvents.2
  | remind {log : List (Application R)} {space : StateSpace R} (engine : R.Engine)
      (before : Chronicle log space) : Chronicle log { space with engine := engine }

theorem Chronicle.hasHistory {log : List (Application R)} {space : StateSpace R}
    (chronicle : Chronicle log space) : space.HasHistory := by
  induction chronicle with
  | fresh engine => exact ⟨engine, .refl⟩
  | ask state _ inductionHypothesis => exact inductionHypothesis.evolves (.single (.ask _ state))
  | @applied log space later state position _ applied _ _ outcome inductionHypothesis =>
      have grows := Grows.apply space state position
      rw [outcome] at grows
      exact inductionHypothesis.evolves (.single grows)
  | @refused log space later state position _ _ outcome inductionHypothesis =>
      have grows := Grows.apply space state position
      rw [outcome] at grows
      exact inductionHypothesis.evolves (.single grows)
  | drain _ inductionHypothesis => exact inductionHypothesis.evolves (.single (.drain _))
  | remind engine _ inductionHypothesis =>
      exact inductionHypothesis.evolves (.single (.remind _ engine))

/-- One more operation adds to the log at its end. -/
theorem Chronicle.grows {log : List (Application R)} {space later : StateSpace R}
    (chronicle : Chronicle log space) (grows : space.Grows later) :
    ∃ more, Chronicle (log ++ more) later := by
  cases grows with
  | ask state => exact ⟨[], by simpa using chronicle.ask state⟩
  | drain => exact ⟨[], by simpa using chronicle.drain⟩
  | remind engine => exact ⟨[], by simpa using chronicle.remind engine⟩
  | apply state position =>
      rcases chronicle.hasHistory.wellFormed.applyMatch_cases state position with
        ⟨candidate, _, _, applied, later, _, waiting, _, outcome, _⟩ | ⟨failure, engine, outcome⟩
      · rw [outcome]
        exact ⟨_, chronicle.applied waiting outcome⟩
      · rw [outcome]
        exact ⟨[], by simpa using chronicle.refused outcome⟩

theorem Chronicle.evolves {log : List (Application R)} {space later : StateSpace R}
    (chronicle : Chronicle log space) (evolves : space.Evolves later) :
    ∃ more, Chronicle (log ++ more) later := by
  induction evolves with
  | refl => exact ⟨[], by simpa using chronicle⟩
  | tail _ grows inductionHypothesis =>
      obtain ⟨more, before⟩ := inductionHypothesis
      obtain ⟨last, after⟩ := before.grows grows
      exact ⟨more ++ last, by simpa using after⟩

theorem HasHistory.chronicle {space : StateSpace R} (history : space.HasHistory) :
    ∃ log, Chronicle log space := by
  obtain ⟨engine, evolves⟩ := history
  obtain ⟨log, chronicle⟩ := (Chronicle.fresh engine).evolves evolves
  exact ⟨_, chronicle⟩

/-! ## What the log accounts for -/

/-- The transition of an application carries the name of its rule and leads
to the result. -/
def Recorded (space : StateSpace R) (entry : Application R) : Prop :=
  ∃ graph outcome engine target, space.graph? entry.state = some graph ∧
    (R.apply engine graph entry.candidate).1 = .ok outcome ∧
    space.transition? entry.transition =
      some ⟨entry.state, target, R.ruleName entry.candidate⟩ ∧
    space.graph? target = some (R.canonicalize outcome)

structure Accounted (log : List (Application R)) (space : StateSpace R) : Prop where
  handles : log.map (·.transition) = (List.range space.transitions.size).map TransitionId.mk
  untried {state : StateId} {info : StateInfo R} :
    space.info? state = some info → info.pending = none → applicationsAt log state = []
  shared {state : StateId} {info : StateInfo R} {candidates : List R.Match} :
    space.info? state = some info → info.pending = some candidates →
      (R.matchesOf info.graph).Perm
        (candidates ++ (applicationsAt log state).map (·.candidate))
  out (state : StateId) : space.out state = (applicationsAt log state).map (·.transition)
  recorded {entry : Application R} : entry ∈ log → space.Recorded entry
  discovered {state : StateId} : space.contains state = true → state ≠ startState →
    ∃ entry ∈ log, entry.state.index < state.index ∧
      ∃ rule, space.transition? entry.transition = some ⟨entry.state, state, rule⟩

namespace Accounted

variable {log : List (Application R)} {space later : StateSpace R}

theorem create (engine : R.Engine) : Accounted [] (create R engine) where
  handles := rfl
  untried _ _ := rfl
  shared {state info candidates} present pending := by
    rw [StateSpace.create, info?_addState] at present
    split at present
    · cases present
      cases pending
    · simp [info?] at present
  out state := by
    rw [StateSpace.out, StateSpace.create, info?_addState]
    split <;> simp [info?, applicationsAt]
  recorded member := by cases member
  discovered {state} contained other := by
    have atStart : state.index < 1 := by
      simpa [StateSpace.contains, StateSpace.create, addState] using contained
    exact absurd (congrArg StateId.mk (by omega : state.index = 0)) other

/-- The accounts do not depend on the engine or on the events. -/
theorem of_same_entries (accounted : Accounted log space)
    (states : later.states = space.states) (transitions : later.transitions = space.transitions) :
    Accounted log later := by
  obtain ⟨_, _, _, _, _, _⟩ := space
  obtain ⟨_, _, _, _, _, _⟩ := later
  cases states
  cases transitions
  exact { accounted with }

theorem ask (accounted : Accounted log space) (state : StateId) :
    Accounted log (space.ensureMatches state) where
  handles := by
    rw [(ensureMatches_frame space state).1]
    exact accounted.handles
  untried := by
    intro other info present pending
    rw [info?_ensureMatches] at present
    split at present
    · obtain ⟨before, presentBefore, rfl⟩ := Option.map_eq_some_iff.1 present
      rcases before.pending_asked with same | ⟨_, found⟩
      · exact accounted.untried presentBefore (same ▸ pending)
      · rw [found] at pending
        cases pending
    · exact accounted.untried present pending
  shared := by
    intro other info candidates present pending
    rw [info?_ensureMatches] at present
    split at present
    · obtain ⟨before, presentBefore, rfl⟩ := Option.map_eq_some_iff.1 present
      rw [StateInfo.graph_asked]
      rcases before.pending_asked with same | ⟨nothing, found⟩
      · exact accounted.shared presentBefore (same ▸ pending)
      · rw [found] at pending
        cases pending
        simp [accounted.untried presentBefore nothing]
    · exact accounted.shared present pending
  out other := by
    rw [out_ensureMatches]
    exact accounted.out other
  recorded member := by
    unfold Recorded
    simp only [graph?_ensureMatches, transition?_ensureMatches]
    exact accounted.recorded member
  discovered := by
    intro other contained
    simp only [transition?_ensureMatches]
    rw [StateSpace.contains, (ensureMatches_frame space state).2.1] at contained
    exact accounted.discovered contained

section Applied

variable {state other : StateId} {position : Nat} {info : StateInfo R}
  {candidates : List R.Match} {candidate : R.Match} {rule : String} {outcome : R.Graph}
  {result : Applied}

/-- Nothing was ever applied in a state that the application created. -/
theorem applicationsAt_created (accounted : Accounted log space)
    (records : space.Records state position rule outcome result later)
    (fresh : result.fresh = true) : applicationsAt log result.target = [] := by
  rw [applicationsAt, List.filter_eq_nil_iff]
  intro entry member
  obtain ⟨graph, _, _, _, stored, _⟩ := accounted.recorded member
  simp only [decide_eq_true_eq]
  intro atTarget
  rw [atTarget, (records.created fresh).1, graph?, info?_next] at stored
  cases stored

theorem untried_applied (accounted : Accounted log space) (present : space.info? state = some info)
    (pending : info.pending = some candidates)
    (records : space.Records state position rule outcome result later) {otherInfo : StateInfo R}
    (presentOther : later.info? other = some otherInfo) (nothing : otherInfo.pending = none) :
    applicationsAt (log ++ [⟨state, candidate, result.transition⟩]) other = [] := by
  by_cases same : other = state
  · subst same
    rw [records.source present pending] at presentOther
    cases presentOther
    cases nothing
  · rw [applicationsAt_concat_other log same]
    rcases records.info?_cases same presentOther with before | ⟨fresh, rfl, _⟩
    · exact accounted.untried before nothing
    · exact accounted.applicationsAt_created records fresh

/-- The match that was applied moves from the pending ones to the log. -/
theorem shared_applied (accounted : Accounted log space) (present : space.info? state = some info)
    (pending : info.pending = some candidates) (waiting : candidates[position]? = some candidate)
    (records : space.Records state position rule outcome result later) {otherInfo : StateInfo R}
    {others : List R.Match} (presentOther : later.info? other = some otherInfo)
    (pendingOther : otherInfo.pending = some others) :
    (R.matchesOf otherInfo.graph).Perm (others ++
      (applicationsAt (log ++ [⟨state, candidate, result.transition⟩]) other).map
        (·.candidate)) := by
  by_cases same : other = state
  · subst same
    rw [records.source present pending] at presentOther
    cases presentOther
    cases pendingOther
    obtain ⟨inside, rfl⟩ := List.getElem?_eq_some_iff.1 waiting
    rw [applicationsAt_concat_same log ⟨other, candidates[position], result.transition⟩,
      List.map_append]
    have split_ := (List.getElem_cons_eraseIdx_perm inside).symm
    calc List.Perm (R.matchesOf info.graph)
          (candidates ++ (applicationsAt log other).map (·.candidate)) :=
          accounted.shared present pending
      List.Perm _ (candidates[position] :: (candidates.eraseIdx position ++
          (applicationsAt log other).map (·.candidate))) :=
          split_.append_right _
      List.Perm _ ((candidates.eraseIdx position ++
          (applicationsAt log other).map (·.candidate)) ++ [candidates[position]]) :=
          (List.perm_append_singleton _ _).symm
      _ = _ := List.append_assoc _ _ _
  · rw [applicationsAt_concat_other log same]
    rcases records.info?_cases same presentOther with before | ⟨_, _, rfl⟩
    · exact accounted.shared before pendingOther
    · cases pendingOther

theorem out_applied (accounted : Accounted log space) (present : space.info? state = some info)
    (pending : info.pending = some candidates)
    (records : space.Records state position rule outcome result later) (other : StateId) :
    later.out other = (applicationsAt (log ++ [⟨state, candidate, result.transition⟩]) other).map
      (·.transition) := by
  by_cases same : other = state
  · subst same
    rw [out_of_info? (records.source present pending),
      applicationsAt_concat_same log ⟨other, candidate, _⟩, List.map_append, ← accounted.out,
      out_of_info? present]
    rfl
  · rw [applicationsAt_concat_other log same, ← accounted.out, records.out_other same]

theorem discovered_applied (accounted : Accounted log space)
    (present : space.info? state = some info)
    (records : space.Records state position rule outcome result later)
    (contained : later.contains other = true) (notStart : other ≠ startState) :
    ∃ entry ∈ log ++ [⟨state, candidate, result.transition⟩],
      entry.state.index < other.index ∧
        ∃ rule, later.transition? entry.transition = some ⟨entry.state, other, rule⟩ := by
  have old : space.contains other = true →
      ∃ entry ∈ log ++ [⟨state, candidate, result.transition⟩],
        entry.state.index < other.index ∧
          ∃ rule, later.transition? entry.transition = some ⟨entry.state, other, rule⟩ := by
    intro before
    obtain ⟨entry, member, earlier, rule, found⟩ := accounted.discovered before notStart
    exact ⟨entry, List.mem_append_left _ member, earlier, rule, records.transition?_kept found⟩
  by_cases same : other = state
  · exact old (same ▸ contains_of_info? present)
  · obtain ⟨otherInfo, presentOther⟩ := contains_iff.1 contained
    rcases records.info?_cases same presentOther with before | ⟨fresh, rfl, _⟩
    · exact old (contains_of_info? before)
    · refine ⟨_, List.mem_append_right _ (List.mem_singleton_self _), ?_, _,
        records.transition?_added⟩
      rw [(records.created fresh).1]
      simpa [StateSpace.contains] using contains_of_info? present

/-- A recorded application is one more entry of the log. -/
theorem applied (accounted : Accounted log space) {engine : R.Engine}
    (present : space.info? state = some info) (pending : info.pending = some candidates)
    (waiting : candidates[position]? = some candidate)
    (succeeds : (R.apply engine info.graph candidate).1 = .ok outcome)
    (records : space.Records state position (R.ruleName candidate) outcome result later) :
    Accounted (log ++ [⟨state, candidate, result.transition⟩]) later where
  handles := by
    rw [List.map_append, accounted.handles, records.count, List.range_succ, List.map_append]
    simp [records.handle]
  untried := accounted.untried_applied present pending records
  shared := accounted.shared_applied present pending waiting records
  out := accounted.out_applied present pending records
  recorded := by
    intro entry member
    rcases List.mem_append.1 member with old | new
    · obtain ⟨graph, reduct, memory, target, stored, ok, found, reached⟩ := accounted.recorded old
      exact ⟨graph, reduct, memory, target, records.graph?_kept present pending stored, ok,
        records.transition?_kept found, records.graph?_kept present pending reached⟩
    · obtain rfl := List.mem_singleton.1 new
      exact ⟨info.graph, outcome, engine, result.target,
        records.graph?_kept present pending (graph?_eq_some.2 ⟨info, present, rfl⟩), succeeds,
        records.transition?_added, records.stored⟩
  discovered := accounted.discovered_applied present records

end Applied

end Accounted

theorem Chronicle.accounted {log : List (Application R)} {space : StateSpace R}
    (chronicle : Chronicle log space) : Accounted log space := by
  induction chronicle with
  | fresh engine => exact .create engine
  | ask state _ inductionHypothesis => exact inductionHypothesis.ask state
  | drain _ inductionHypothesis => exact inductionHypothesis.of_same_entries rfl rfl
  | remind _ _ inductionHypothesis => exact inductionHypothesis.of_same_entries rfl rfl
  | @refused log space later state position _ before outcome inductionHypothesis =>
      rcases before.hasHistory.wellFormed.applyMatch_cases state position with
        ⟨_, _, _, _, _, _, _, _, succeeded, _⟩ | ⟨_, _, failed⟩
      · rw [succeeded] at outcome
        cases outcome
      · rw [failed] at outcome
        cases outcome
        exact (inductionHypothesis.ask state).of_same_entries rfl rfl
  | @applied log space later state position candidate applied before waiting outcome
      inductionHypothesis =>
      rcases before.hasHistory.wellFormed.applyMatch_cases state position with
        ⟨taken, info, _, _, _, present, found, succeeds, succeeded, records⟩ | ⟨_, _, failed⟩
      · rw [succeeded] at outcome
        cases outcome
        rw [waiting] at found
        cases found
        rw [pending_of_info? present] at waiting
        cases pending : info.pending with
        | none => simp [pending] at waiting
        | some candidates =>
            rw [pending, Option.getD_some] at waiting
            exact (inductionHypothesis.ask state).applied present pending waiting succeeds records
      · rw [failed] at outcome
        cases outcome

/-- In a closed state every match has been applied exactly once. -/
theorem Chronicle.applied_of_isClosed {log : List (Application R)} {space : StateSpace R}
    (chronicle : Chronicle log space) {state : StateId} {graph : R.Graph}
    (stored : space.graph? state = some graph) (closed : space.isClosed state = true) :
    (R.matchesOf graph).Perm ((applicationsAt log state).map (·.candidate)) := by
  obtain ⟨info, present, rfl⟩ := graph?_eq_some.1 stored
  obtain ⟨sameInfo, presentAgain, isClosed⟩ := isClosed_iff.1 closed
  rw [present] at presentAgain
  cases presentAgain
  have nothingLeft := chronicle.hasHistory.wellFormed.closed_done present isClosed
  simpa using chronicle.accounted.shared present nothingLeft

theorem HasHistory.graph?_startState {space : StateSpace R} (history : space.HasHistory) :
    space.graph? startState = some R.startGraph := by
  obtain ⟨engine, evolves⟩ := history
  have stored : (create R engine).graph? startState = some R.startGraph :=
    graph?_eq_some.2 ⟨_, info?_addState _ _ _ _, rfl⟩
  exact (evolves.continues (wellFormed_create engine)).kept.graph stored

theorem HasHistory.contains_startState {space : StateSpace R} (history : space.HasHistory) :
    space.contains startState = true := by
  obtain ⟨info, present, _⟩ := graph?_eq_some.1 history.graph?_startState
  exact contains_of_info? present

/-- Once all states are closed, the reachable graphs are the stored ones. -/
theorem HasHistory.reachable_iff {space : StateSpace R} (history : space.HasHistory)
    (functional : R.Functional)
    (closed : ∀ state, space.contains state = true → space.isClosed state = true)
    (graph : R.Graph) : R.Reachable graph ↔ ∃ state, space.graph? state = some graph := by
  refine ⟨fun reachable => ?_, fun ⟨_, stored⟩ => history.wellFormed.reachable stored⟩
  obtain ⟨log, chronicle⟩ := history.chronicle
  induction reachable with
  | start => exact ⟨startState, history.graph?_startState⟩
  | @apply graph target candidate engine _ offered applied inductionHypothesis =>
      obtain ⟨state, stored⟩ := inductionHypothesis
      obtain ⟨info, present, _⟩ := graph?_eq_some.1 stored
      have all := chronicle.applied_of_isClosed stored (closed state (contains_of_info? present))
      obtain ⟨entry, member, rfl⟩ := List.mem_map.1 (all.mem_iff.1 offered)
      obtain ⟨inLog, atState⟩ := List.mem_filter.1 member
      obtain rfl : entry.state = state := by simpa using atState
      obtain ⟨sameGraph, outcome, memory, reached, storedAgain, ok, _, storedTarget⟩ :=
        chronicle.accounted.recorded inLog
      rw [stored] at storedAgain
      cases storedAgain
      rw [functional applied ok]
      exact ⟨reached, storedTarget⟩

/-! ## Connection -/

/-- Whether a transition leads from one state to another. -/
def Leads (space : StateSpace R) (source target : StateId) : Prop :=
  ∃ handle transition, (handle, transition) ∈ space.outgoing source ∧ transition.target = target

/-- Whether transitions lead from one state to another. -/
abbrev Connected (space : StateSpace R) : StateId → StateId → Prop :=
  Relation.ReflTransGen space.Leads

theorem WellFormed.contains_of_leads {space : StateSpace R} (wellFormed : space.WellFormed)
    {source target : StateId} (leads : space.Leads source target) :
    space.contains target = true := by
  obtain ⟨handle, transition, member, rfl⟩ := leads
  obtain ⟨listed, found⟩ := mem_outgoing.1 member
  obtain ⟨valid, foundAgain, _, contained⟩ := wellFormed.out_valid listed
  rw [found] at foundAgain
  cases foundAgain
  exact contained

theorem WellFormed.contains_of_connected {space : StateSpace R} (wellFormed : space.WellFormed)
    {source target : StateId} (contained : space.contains source = true)
    (connected : space.Connected source target) : space.contains target = true := by
  cases connected with
  | refl => exact contained
  | tail _ leads => exact wellFormed.contains_of_leads leads

theorem Accounted.leads {log : List (Application R)} {space : StateSpace R}
    (accounted : Accounted log space) {entry : Application R} (member : entry ∈ log)
    {target : StateId} {rule : String}
    (found : space.transition? entry.transition = some ⟨entry.state, target, rule⟩) :
    space.Leads entry.state target := by
  refine ⟨entry.transition, _, mem_outgoing.2 ⟨?_, found⟩, rfl⟩
  rw [accounted.out]
  exact List.mem_map_of_mem (List.mem_filter.2 ⟨member, by simp⟩)

theorem Leads.evolves {space later : StateSpace R} (history : space.HasHistory)
    (evolves : space.Evolves later) {source target : StateId} (leads : space.Leads source target) :
    later.Leads source target := by
  obtain ⟨log, chronicle⟩ := history.chronicle
  obtain ⟨more, after⟩ := chronicle.evolves evolves
  obtain ⟨handle, transition, member, reached⟩ := leads
  obtain ⟨listed, found⟩ := mem_outgoing.1 member
  refine ⟨handle, transition, mem_outgoing.2 ⟨?_, ?_⟩, reached⟩
  · rw [after.accounted.out, applicationsAt_append, List.map_append, ← chronicle.accounted.out]
    exact List.mem_append_left _ listed
  · exact (evolves.continues history.wellFormed).kept.transition found

/-- Every state is connected to the start state by the transitions that
created it and the states before it. -/
theorem HasHistory.connected {space : StateSpace R} (history : space.HasHistory)
    {state : StateId} (contained : space.contains state = true) :
    space.Connected startState state := by
  obtain ⟨log, chronicle⟩ := history.chronicle
  -- The source of the transition that created a state is older than the state.
  induction index : state.index using Nat.strongRecOn generalizing state with
  | ind position inductionHypothesis =>
      by_cases atStart : state = startState
      · rw [atStart]
      · obtain ⟨entry, member, earlier, rule, found⟩ :=
          chronicle.accounted.discovered contained atStart
        obtain ⟨graph, _, _, _, stored, _⟩ := chronicle.accounted.recorded member
        obtain ⟨info, present, _⟩ := graph?_eq_some.1 stored
        exact (inductionHypothesis entry.state.index (index ▸ earlier)
          (contains_of_info? present) rfl).tail (chronicle.accounted.leads member found)

end StateSpace

end OnTheFly
