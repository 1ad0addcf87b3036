import Mathlib.Data.Set.Card
import OnTheFly.Proofs.Automaton.Draft
import OnTheFly.Proofs.Product.Relation
import OnTheFly.Proofs.StateSpace.Chronicle

/-!
Contract: the synchronous product of the rules and an automaton, apart from any
state space.

Owns: the product as a relation on graphs and locations, that every transition
of the product at a closed state is one of it, and when these are all of them.
-/

set_option autoImplicit false

namespace OnTheFly

variable {R : RuleSystem}

/-- Whether an application of the match can lead to `target`, whatever the
engine remembers. -/
def RuleSystem.LeadsTo (R : RuleSystem) (graph : R.Graph) (candidate : R.Match)
    (target : R.Graph) : Prop :=
  ∃ engine outcome, (R.apply engine graph candidate).1 = .ok outcome ∧
    R.canonicalize outcome = target

/-- The labels of all matches of a graph. -/
def RuleSystem.labels (R : RuleSystem) (graph : R.Graph) : NameSet :=
  NameSet.ofList ((R.matchesOf graph).map R.ruleName)

/-- A graph together with a location. -/
abbrev GraphPoint (R : RuleSystem) := R.Graph × LocationId

/-- A transition of the product of the rules and an automaton. The labels of all
matches enable the automaton's. With it the graph changes, or it stays the same
if no match changes it. -/
inductive GraphStep (R : RuleSystem) (automaton : Automaton) :
    GraphPoint R → GraphPoint R → Prop where
  | move {graph target : R.Graph} {place : LocationId} {location : Location}
      {edge : AutomatonEdge} {candidate : R.Match}
      (here : automaton.location? place = some location) (leaves : edge ∈ location.edges)
      (enabled : edge.guard.isEnabled (R.labels graph) = true)
      (offered : candidate ∈ R.matchesOf graph) (leads : R.LeadsTo graph candidate target)
      (elsewhere : target ≠ graph) : GraphStep R automaton (graph, place) (target, edge.target)
  | stay {graph : R.Graph} {place : LocationId} {location : Location} {edge : AutomatonEdge}
      (here : automaton.location? place = some location) (leaves : edge ∈ location.edges)
      (enabled : edge.guard.isEnabled (R.labels graph) = true)
      (stuck : ∀ candidate ∈ R.matchesOf graph, R.LeadsTo graph candidate graph) :
      GraphStep R automaton (graph, place) (graph, edge.target)

/-- The points that the product reaches from one of them. -/
def reachablePoints (R : RuleSystem) (automaton : Automaton) (root : GraphPoint R) :
    Set (GraphPoint R) :=
  { point | Relation.ReflTransGen (GraphStep R automaton) root point }

theorem reachablePoints.location? {automaton : Automaton} {root point : GraphPoint R}
    (located : automaton.Located)
    (first : ∃ location, automaton.location? root.2 = some location)
    (reached : point ∈ reachablePoints R automaton root) :
    ∃ location, automaton.location? point.2 = some location := by
  rcases Relation.ReflTransGen.cases_tail reached with rfl | ⟨before, _, step⟩
  · exact first
  · cases step with
    | move here leaves => exact located.target here leaves
    | stay here leaves => exact located.target here leaves

/-! ## Closed states -/

namespace StateSpace

variable {space : StateSpace R}

/-- Whether a transition is what an application of the match in `state` adds. -/
def Follows (space : StateSpace R) (state : StateId) (graph : R.Graph) (candidate : R.Match)
    (transition : Transition) : Prop :=
  transition.rule = R.ruleName candidate ∧ transition.source = state ∧
    ∃ target, space.graph? transition.target = some target ∧ R.LeadsTo graph candidate target

/-- The transitions of a closed state follow its matches. -/
theorem HasHistory.follows_of_closed (history : space.HasHistory) {state : StateId}
    {graph : R.Graph} (stored : space.graph? state = some graph)
    (closed : space.isClosed state = true) :
    (∀ handle transition, (handle, transition) ∈ space.outgoing state →
      ∃ candidate ∈ R.matchesOf graph, space.Follows state graph candidate transition) ∧
      ∀ candidate ∈ R.matchesOf graph, ∃ handle transition,
        (handle, transition) ∈ space.outgoing state ∧
          space.Follows state graph candidate transition := by
  obtain ⟨log, chronicle⟩ := history.chronicle
  have all := chronicle.applied_of_isClosed stored closed
  have accounted := chronicle.accounted
  -- An application in the state is one of its transitions and comes from a match.
  have entryOf : ∀ entry ∈ applicationsAt log state, ∃ transition,
      (entry.transition, transition) ∈ space.outgoing state ∧
        space.Follows state graph entry.candidate transition := by
    intro entry member
    obtain ⟨inLog, atState⟩ := List.mem_filter.1 member
    obtain rfl : entry.state = state := by simpa using atState
    obtain ⟨sameGraph, outcome, engine, target, storedAgain, ok, found, reached⟩ :=
      accounted.recorded inLog
    rw [stored] at storedAgain
    cases storedAgain
    refine ⟨_, mem_outgoing.2 ⟨?_, found⟩, rfl, rfl, _, reached, engine, outcome, ok, rfl⟩
    rw [accounted.out]
    exact List.mem_map_of_mem member
  constructor
  · intro handle transition member
    obtain ⟨listed, found⟩ := mem_outgoing.1 member
    rw [accounted.out] at listed
    obtain ⟨entry, inState, rfl⟩ := List.mem_map.1 listed
    obtain ⟨same, memberAgain, facts⟩ := entryOf entry inState
    rw [(mem_outgoing.1 memberAgain).2] at found
    cases found
    exact ⟨entry.candidate, all.mem_iff.2 (List.mem_map_of_mem inState), facts⟩
  · intro candidate offered
    obtain ⟨entry, inState, rfl⟩ := List.mem_map.1 (all.mem_iff.1 offered)
    exact ⟨entry.transition, entryOf entry inState⟩

/-- The labels of a closed state are those of its matches. -/
theorem HasHistory.mem_outLabels (history : space.HasHistory) {state : StateId}
    {graph : R.Graph} (stored : space.graph? state = some graph)
    (closed : space.isClosed state = true) (name : String) :
    name ∈ space.outLabels state ↔ name ∈ R.labels graph := by
  obtain ⟨ofTransitions, ofMatches⟩ := history.follows_of_closed stored closed
  rw [outLabels, RuleSystem.labels, NameSet.mem_ofList, NameSet.mem_ofList, List.mem_map,
    List.mem_map]
  constructor
  · rintro ⟨⟨handle, transition⟩, member, rfl⟩
    obtain ⟨candidate, offered, rule, _⟩ := ofTransitions handle transition member
    exact ⟨candidate, offered, rule.symm⟩
  · rintro ⟨candidate, offered, rfl⟩
    obtain ⟨handle, transition, member, rule, _⟩ := ofMatches candidate offered
    exact ⟨(handle, transition), member, rule⟩

theorem HasHistory.isEnabled_iff (history : space.HasHistory) {state : StateId}
    {graph : R.Graph} (stored : space.graph? state = some graph)
    (closed : space.isClosed state = true) (guard : Guard) :
    guard.isEnabled (space.outLabels state) = true ↔ guard.isEnabled (R.labels graph) = true := by
  rw [Guard.isEnabled_iff, Guard.isEnabled_iff]
  simp only [history.mem_outLabels stored closed]

/-- A transition of the product at a closed state is one of the product of the
rules. -/
theorem HasHistory.graphStep (history : space.HasHistory) {automaton : Automaton}
    {source target : ProductPoint} {via : Option TransitionId} {graph : R.Graph}
    (stored : space.graph? source.1 = some graph) (closed : space.isClosed source.1 = true)
    (step : Synchronous space automaton source via target) :
    ∃ targetGraph, space.graph? target.1 = some targetGraph ∧
      GraphStep R automaton (graph, source.2) (targetGraph, target.2) := by
  have enabled_iff := history.isEnabled_iff stored closed
  obtain ⟨ofTransitions, ofMatches⟩ := history.follows_of_closed stored closed
  cases step with
  | move here leaves enabled outgoing elsewhere =>
      obtain ⟨candidate, offered, _, atState, targetGraph, storedTarget, leads⟩ :=
        ofTransitions _ _ outgoing
      refine ⟨targetGraph, storedTarget,
        .move here leaves ((enabled_iff _).1 enabled) offered leads ?_⟩
      rintro rfl
      have same := history.wellFormed.stored_once storedTarget stored
      simp [Transition.isSelfLoop, atState, same] at elsewhere
  | stay here leaves enabled stuck =>
      refine ⟨graph, stored, .stay here leaves ((enabled_iff _).1 enabled) ?_⟩
      intro candidate offered
      obtain ⟨handle, transition, member, _, atState, targetGraph, storedTarget, leads⟩ :=
        ofMatches candidate offered
      have loops := stuck handle transition member
      have same : transition.target = transition.source := by
        simpa [Transition.isSelfLoop, eq_comm] using loops
      rw [same, atState, stored] at storedTarget
      cases storedTarget
      exact leads

/-- If applications depend on nothing in the engine, then a closed state has all
transitions of the product of the rules. -/
theorem HasHistory.synchronous_of_graphStep (history : space.HasHistory)
    (functional : R.Functional) {automaton : Automaton} {state : StateId} {graph : R.Graph}
    {place : LocationId} {target : GraphPoint R} (stored : space.graph? state = some graph)
    (closed : space.isClosed state = true)
    (step : GraphStep R automaton (graph, place) target) :
    ∃ via reached, space.graph? reached = some target.1 ∧
      Synchronous space automaton (state, place) via (reached, target.2) := by
  have enabled_iff := history.isEnabled_iff stored closed
  obtain ⟨ofTransitions, ofMatches⟩ := history.follows_of_closed stored closed
  have unique : ∀ {candidate first second}, R.LeadsTo graph candidate first →
      R.LeadsTo graph candidate second → first = second := by
    rintro candidate _ _ ⟨_, _, applied, rfl⟩ ⟨_, _, again, rfl⟩
    rw [functional applied again]
  cases step with
  | move here leaves enabled offered leads elsewhere =>
      obtain ⟨handle, transition, member, _, atState, reached, storedReached, leadsToo⟩ :=
        ofMatches _ offered
      obtain rfl := unique leads leadsToo
      refine ⟨_, transition.target, storedReached,
        .move here leaves ((enabled_iff _).2 enabled) member ?_⟩
      rw [Bool.eq_false_iff]
      intro loops
      have same : transition.target = state := by
        simpa [Transition.isSelfLoop, eq_comm, atState] using loops
      rw [same, stored] at storedReached
      exact elsewhere (Option.some.inj storedReached).symm
  | stay here leaves enabled stuck =>
      refine ⟨none, state, stored, .stay here leaves ((enabled_iff _).2 enabled) ?_⟩
      intro handle transition member
      obtain ⟨candidate, offered, _, atState, reached, storedReached, leads⟩ :=
        ofTransitions handle transition member
      obtain rfl := unique leads (stuck candidate offered)
      have same := history.wellFormed.stored_once storedReached stored
      simp [Transition.isSelfLoop, atState, same]

end StateSpace

end OnTheFly
