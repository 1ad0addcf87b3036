import OnTheFly.Proofs.Automaton.ByName

/-!
Contract: which drafts are accepted, and what is made of them.

Owns: when a guard can be met, when a draft is accepted and what is refused
first otherwise, that a draft describes exactly one automaton, and drafts that
are made call by call.
-/

set_option autoImplicit false

namespace OnTheFly

/-! ## Guards that can be met -/

namespace Guard

variable {guard : Guard} {proposition : String}

theorem contradiction?_eq_none_iff_disjoint :
    guard.contradiction? = none ↔
      ∀ proposition ∈ guard.positive, ¬ proposition ∈ guard.negative := by
  simp only [contradiction?, List.find?_eq_none, NameSet.contains_iff]
  rfl

/-- Whether a proposition is the least of those that a guard has in both signs. -/
structure LeastClash (guard : Guard) (proposition : String) : Prop where
  positive : proposition ∈ guard.positive
  negative : proposition ∈ guard.negative
  least {other : String} : other ∈ guard.positive → other ∈ guard.negative → proposition ≤ other

theorem leastClash_of_contradiction? (found : guard.contradiction? = some proposition) :
    guard.LeastClash proposition := by
  obtain ⟨forbidden, earlier, later, listed, before⟩ := List.find?_eq_some_iff_append.1 found
  have ascending := guard.positive.ascending
  rw [listed, List.pairwise_append] at ascending
  refine ⟨List.mem_of_find?_eq_some found, NameSet.contains_iff.1 forbidden, ?_⟩
  intro other required forbiddenToo
  rw [NameSet.mem_iff, listed, List.mem_append, List.mem_cons] at required
  rcases required with isEarlier | rfl | isLater
  · have allowed := before other isEarlier
    rw [NameSet.contains_iff.2 forbiddenToo] at allowed
    cases allowed
  · exact String.le_refl other
  · exact String.not_lt.1 fun below =>
      String.lt_irrefl _ (String.lt_trans below (List.rel_of_pairwise_cons ascending.2.1 isLater))

theorem contradiction?_eq_some_iff :
    guard.contradiction? = some proposition ↔ guard.LeastClash proposition := by
  refine ⟨leastClash_of_contradiction?, fun clash => ?_⟩
  cases found : guard.contradiction? with
  | none =>
      exact absurd clash.negative
        (contradiction?_eq_none_iff_disjoint.1 found proposition clash.positive)
  | some other =>
      have clashToo := leastClash_of_contradiction? found
      exact congrArg some (String.le_antisymm (clashToo.least clash.positive clash.negative)
        (clash.least clashToo.positive clashToo.negative))

/-- A guard that does not contradict itself is met by what it requires. -/
theorem contradiction?_eq_none_iff :
    guard.contradiction? = none ↔ ∃ satisfied, guard.isEnabled satisfied = true := by
  rw [contradiction?_eq_none_iff_disjoint]
  constructor
  · intro disjoint
    refine ⟨guard.positive, isEnabled_iff.2 ⟨fun _ required => required, ?_⟩⟩
    exact fun proposition forbidden required => disjoint proposition required forbidden
  · rintro ⟨satisfied, enabled⟩ proposition required forbidden
    obtain ⟨met, avoided⟩ := isEnabled_iff.1 enabled
    exact avoided proposition forbidden (met proposition required)

end Guard

namespace Draft

variable {draft : Draft} {automaton : Automaton}

/-! ## What a draft describes -/

/-- Whether an automaton is the one that a draft describes: its locations are
those declared, in order, and it refers to them by the names that were given. -/
structure Describes (draft : Draft) (automaton : Automaton) : Prop extends automaton.Located where
  declared : automaton.locations.toList.map (fun location => ⟨location.name, location.accepting⟩) =
    draft.locations
  initialName : draft.initial = some (automaton.nameOf automaton.initial)
  leaving {location : Location} : location ∈ automaton.locations.toList →
    location.edges.map (fun edge => (edge.guard, automaton.nameOf edge.target)) =
      draft.edgesFrom location.name

theorem describes_of_build (built : draft.build = .ok automaton) : draft.Describes automaton := by
  have located := located_of_build built
  have initialName := nameOf_initial_of_build built
  obtain ⟨distinct, _, initial, edges, _, _, resolves, rfl⟩ := build_eq_ok_iff.1 built
  refine ⟨located, ?_, initialName, fun {location} listed => ?_⟩
  · apply List.ext_getElem?
    intro index
    simp [assemble, Function.comp_def]
  · obtain ⟨index, declared, here, rfl⟩ := mem_locations_assemble.1 listed
    have named : draft.names[index]? = some declared.name := by
      rw [names, List.getElem?_map, here]
      rfl
    exact filter_resolved distinct (fun _ _ => nameOf_assemble distinct initial edges) named
      resolves

namespace Describes

theorem names (describes : draft.Describes automaton) : automaton.names = draft.names := by
  rw [Draft.names, ← describes.declared, List.map_map]
  rfl

/-- Where names are distinct, a location is found by its name. -/
theorem index_eq (describes : draft.Describes automaton) (distinct : draft.names.Nodup)
    {place : LocationId} {location : Location} (here : automaton.location? place = some location) :
    place = ⟨draft.names.idxOf (automaton.nameOf place)⟩ := by
  have named : draft.names[place.index]? = some (automaton.nameOf place) := by
    rw [← describes.names, Automaton.nameOf_of_location? here, Automaton.names, List.getElem?_map,
      Array.getElem?_toList]
    exact congrArg (Option.map (·.name)) here
  obtain ⟨bound, same⟩ := List.getElem?_eq_some_iff.1 named
  rw [← same, distinct.idxOf_getElem]

theorem edges_eq (describes : draft.Describes automaton) (distinct : draft.names.Nodup)
    {location : Location} (listed : location ∈ automaton.locations.toList) :
    location.edges = (draft.edgesFrom location.name).map fun edge =>
      ⟨edge.1, ⟨draft.names.idxOf edge.2⟩⟩ := by
  rw [← describes.leaving listed, List.map_map]
  refine (List.map_id _).symm.trans (List.map_congr_left fun edge leaves => ?_)
  obtain ⟨place, here⟩ := Automaton.location_mem_iff.1 listed
  obtain ⟨reached, there⟩ := describes.target here leaves
  exact congrArg (AutomatonEdge.mk edge.guard) (describes.index_eq distinct there)

/-- A draft describes at most one automaton. -/
theorem unique {other : Automaton} (describes : draft.Describes automaton)
    (describesToo : draft.Describes other) (distinct : draft.names.Nodup) : automaton = other := by
  have drawn {automaton : Automaton} (describes : draft.Describes automaton) :
      automaton.locations.toList = draft.locations.map fun declared =>
        ⟨declared.name, declared.accepting, (draft.edgesFrom declared.name).map fun edge =>
          ⟨edge.1, ⟨draft.names.idxOf edge.2⟩⟩⟩ := by
    rw [← describes.declared, List.map_map]
    refine (List.map_id _).symm.trans (List.map_congr_left fun location listed => ?_)
    exact congrArg (Location.mk location.name location.accepting)
      (describes.edges_eq distinct listed)
  have locations : automaton.locations = other.locations :=
    Array.toList_inj.1 ((drawn describes).trans (drawn describesToo).symm)
  have initial : automaton.initial = other.initial := by
    obtain ⟨_, here⟩ := describes.initial
    obtain ⟨_, there⟩ := describesToo.initial
    have sameName := Option.some.inj (describes.initialName.symm.trans describesToo.initialName)
    rw [describes.index_eq distinct here, describesToo.index_eq distinct there, sameName]
  cases automaton
  cases other
  cases locations
  cases initial
  rfl

end Describes

/-! ## Which drafts are accepted -/

/-- Whether nothing is wrong with a draft. -/
structure Acceptable (draft : Draft) : Prop where
  some_ : draft.locations ≠ []
  distinct : draft.names.Nodup
  initial : ∃ name ∈ draft.names, draft.initial = some name
  ends {edge : DraftEdge} : edge ∈ draft.edges →
    edge.source ∈ draft.names ∧ edge.target ∈ draft.names
  satisfiable {edge : DraftEdge} : edge ∈ draft.edges →
    ∃ satisfied, edge.guard.isEnabled satisfied = true

theorem mem_names_of_resolve {name : String} {place : LocationId}
    (resolved : draft.resolve name = .ok place) (distinct : draft.names.Nodup) :
    name ∈ draft.names :=
  List.mem_of_getElem? ((resolve_eq_ok_iff distinct).1 resolved)

theorem acceptable_of_build (built : draft.build = .ok automaton) : draft.Acceptable := by
  obtain ⟨distinct, name, initial, edges, named, found, resolves, rfl⟩ := build_eq_ok_iff.1 built
  have declared := mem_names_of_resolve found distinct
  have resolved {edge : DraftEdge} (member : edge ∈ draft.edges) :
      ∃ resolved, draft.resolveEdge edge = .ok resolved := by
    have listed : draft.resolveEdge edge ∈ edges.map Except.ok :=
      resolves ▸ List.mem_map_of_mem member
    obtain ⟨resolved, _, same⟩ := List.mem_map.1 listed
    exact ⟨resolved, same.symm⟩
  refine ⟨?_, distinct, ⟨name, declared, named⟩, fun {edge} member => ?_, fun {edge} member => ?_⟩
  · rintro nothing
    rw [names, nothing] at declared
    cases declared
  · obtain ⟨_, found⟩ := resolved member
    obtain ⟨source, target, _⟩ := resolveEdge_eq_ok_iff.1 found
    exact ⟨mem_names_of_resolve source distinct, mem_names_of_resolve target distinct⟩
  · obtain ⟨_, found⟩ := resolved member
    exact Guard.contradiction?_eq_none_iff.1 (resolveEdge_eq_ok_iff.1 found).2.2.1

/-- A draft is accepted exactly if nothing is wrong with it. -/
theorem exists_build_iff : (∃ automaton, draft.build = .ok automaton) ↔ draft.Acceptable := by
  constructor
  · rintro ⟨automaton, built⟩
    exact acceptable_of_build built
  · intro acceptable
    obtain ⟨name, declared, named⟩ := acceptable.initial
    exact exists_build acceptable.distinct named declared (fun _ => acceptable.ends)
      fun _ member => Guard.contradiction?_eq_none_iff.2 (acceptable.satisfiable member)

/-- An accepted draft is built into the automaton that it describes. -/
theorem build_eq_ok_iff_describes :
    draft.build = .ok automaton ↔ draft.Acceptable ∧ draft.Describes automaton := by
  constructor
  · intro built
    exact ⟨acceptable_of_build built, describes_of_build built⟩
  · rintro ⟨acceptable, describes⟩
    obtain ⟨made, built⟩ := exists_build_iff.2 acceptable
    rw [built, (describes_of_build built).unique describes acceptable.distinct]

/-! ## What is wrong with a draft -/

/-- The first transition that is wrong decides. -/
theorem resolveEdges_eq_error_iff {edges : List DraftEdge} {error : AutomatonError} :
    draft.resolveEdges edges = .error error ↔
      ∃ earlier edge later, edges = earlier ++ edge :: later ∧
        (∀ other ∈ earlier, ∃ resolved, draft.resolveEdge other = .ok resolved) ∧
          draft.resolveEdge edge = .error error := by
  induction edges with
  | nil => simp [resolveEdges]
  | cons first rest inductionHypothesis =>
      constructor
      · intro failed
        unfold resolveEdges at failed
        split at failed
        · rename_i wrong failedFirst
          cases failed
          exact ⟨[], first, rest, rfl, by simp, failedFirst⟩
        · rename_i resolved resolvedFirst
          split at failed
          · rename_i wrong failedLater
            cases failed
            obtain ⟨earlier, edge, later, rfl, clean, wrongEdge⟩ :=
              inductionHypothesis.1 failedLater
            exact ⟨first :: earlier, edge, later, rfl,
              List.forall_mem_cons.2 ⟨⟨resolved, resolvedFirst⟩, clean⟩, wrongEdge⟩
          · cases failed
      · rintro ⟨earlier, edge, later, parts, clean, wrongEdge⟩
        unfold resolveEdges
        cases earlier with
        | nil =>
            cases parts
            rw [wrongEdge]
        | cons _ earlier =>
            cases parts
            obtain ⟨⟨resolved, resolvedFirst⟩, cleanLater⟩ := List.forall_mem_cons.1 clean
            rw [resolvedFirst, inductionHypothesis.2 ⟨earlier, edge, later, rfl, cleanLater,
              wrongEdge⟩]

/-- Whether the names that a draft refers to are declared, each once. -/
structure Linked (draft : Draft) : Prop where
  distinct : draft.names.Nodup
  initial {name : String} : draft.initial = some name → name ∈ draft.names
  ends {edge : DraftEdge} : edge ∈ draft.edges →
    edge.source ∈ draft.names ∧ edge.target ∈ draft.names

namespace Linked

theorem resolveEdge_eq (linked : draft.Linked) {edge : DraftEdge} (member : edge ∈ draft.edges) :
    ∃ resolved, draft.resolveEdge edge =
      (edge.guard.contradiction?).elim (.ok resolved) fun proposition =>
        .error (.contradictoryGuard edge.source edge.target proposition) := by
  obtain ⟨sourceDeclared, targetDeclared⟩ := linked.ends member
  obtain ⟨source, foundSource⟩ := exists_resolve linked.distinct sourceDeclared
  obtain ⟨target, foundTarget⟩ := exists_resolve linked.distinct targetDeclared
  refine ⟨⟨source, edge.guard, target⟩, ?_⟩
  unfold resolveEdge
  rw [foundSource, foundTarget]
  cases edge.guard.contradiction? <;> rfl

theorem exists_resolveEdge_iff (linked : draft.Linked) {edge : DraftEdge}
    (member : edge ∈ draft.edges) :
    (∃ resolved, draft.resolveEdge edge = .ok resolved) ↔ edge.guard.contradiction? = none := by
  obtain ⟨resolved, same⟩ := linked.resolveEdge_eq member
  rw [same]
  cases edge.guard.contradiction? <;> simp

theorem resolveEdge_eq_error_iff (linked : draft.Linked) {edge : DraftEdge}
    (member : edge ∈ draft.edges) {error : AutomatonError} :
    draft.resolveEdge edge = .error error ↔
      ∃ proposition, edge.guard.contradiction? = some proposition ∧
        error = .contradictoryGuard edge.source edge.target proposition := by
  obtain ⟨resolved, same⟩ := linked.resolveEdge_eq member
  rw [same]
  cases edge.guard.contradiction? <;> simp [eq_comm]

/-- The first transition whose guard contradicts itself decides. -/
theorem resolveEdges_eq_error_iff (linked : draft.Linked) {error : AutomatonError} :
    draft.resolveEdges draft.edges = .error error ↔
      ∃ earlier edge later proposition, draft.edges = earlier ++ edge :: later ∧
        (∀ other ∈ earlier, other.guard.contradiction? = none) ∧
          edge.guard.contradiction? = some proposition ∧
            error = .contradictoryGuard edge.source edge.target proposition := by
  rw [Draft.resolveEdges_eq_error_iff]
  constructor
  · rintro ⟨earlier, edge, later, parts, clean, wrong⟩
    obtain ⟨proposition, clash, rfl⟩ :=
      (linked.resolveEdge_eq_error_iff (by simp [parts])).1 wrong
    exact ⟨earlier, edge, later, proposition, parts,
      fun other listed => (linked.exists_resolveEdge_iff (by simp [parts, listed])).1
        (clean other listed), clash, rfl⟩
  · rintro ⟨earlier, edge, later, proposition, parts, clean, clash, rfl⟩
    exact ⟨earlier, edge, later, parts,
      fun other listed => (linked.exists_resolveEdge_iff (by simp [parts, listed])).2
        (clean other listed),
      (linked.resolveEdge_eq_error_iff (by simp [parts])).2 ⟨proposition, clash, rfl⟩⟩

/-- Three things can be wrong where every name is declared. -/
theorem build_eq_error_iff (linked : draft.Linked) {error : AutomatonError} :
    draft.build = .error error ↔
      draft.locations = [] ∧ error = .noLocations ∨
        draft.locations ≠ [] ∧ draft.initial = none ∧ error = .missingInitial ∨
          draft.initial ≠ none ∧ draft.resolveEdges draft.edges = .error error := by
  have distinct : firstRepeated? [] draft.names = none :=
    firstRepeated?_eq_none_iff.2 ⟨linked.distinct, by simp⟩
  unfold build
  rw [distinct]
  cases named : draft.initial with
  | none =>
      by_cases nothing : draft.locations = []
      · simp [nothing, @eq_comm _ error]
      · simp [nothing, @eq_comm _ error]
  | some name =>
      have declared := linked.initial named
      obtain ⟨initial, found⟩ := exists_resolve linked.distinct declared
      have some_ : draft.locations ≠ [] := by
        intro nothing
        rw [names, nothing] at declared
        cases declared
      simp only [some_, List.isEmpty_eq_false_iff.2 some_, found]
      cases draft.resolveEdges draft.edges <;> simp

end Linked

/-! ## Drafts made call by call -/

/-- One thing that can be said about an automaton in the making. -/
inductive Call where
  | location (name : String) (accepting : Bool)
  | initial (name : String)
  | transition (source : String) (guard : Guard) (target : String)
deriving DecidableEq, Repr

namespace Call

def location? : Call → Option DraftLocation
  | .location name accepting => some ⟨name, accepting⟩
  | _ => none

def initial? : Call → Option String
  | .initial name => some name
  | _ => none

def transition? : Call → Option DraftEdge
  | .transition source guard target => some ⟨source, guard, target⟩
  | _ => none

end Call

def perform (draft : Draft) : Call → Draft
  | .location name accepting => draft.declare name accepting
  | .initial name => draft.setInitial name
  | .transition source guard target => draft.connect source guard target

/-- The draft after these calls, from one in which nothing is said. -/
def ofCalls (calls : List Call) : Draft :=
  calls.foldl perform {}

/-- What calls say together: locations and transitions in the order of the
calls, and the last initial name. -/
def recorded (calls : List Call) : Draft where
  locations := calls.filterMap Call.location?
  initial := (calls.filterMap Call.initial?).getLast?
  edges := calls.filterMap Call.transition?

theorem foldl_perform (calls : List Call) (draft : Draft) :
    calls.foldl perform draft =
      { locations := draft.locations ++ (recorded calls).locations
        initial := (recorded calls).initial.or draft.initial
        edges := draft.edges ++ (recorded calls).edges } := by
  induction calls generalizing draft with
  | nil => simp [recorded]
  | cons call calls inductionHypothesis =>
      rw [List.foldl_cons, inductionHypothesis]
      cases call with
      | location name accepting =>
          simp [recorded, perform, declare, List.filterMap_cons, Call.location?, Call.initial?,
            Call.transition?]
      | initial name =>
          simp [recorded, perform, setInitial, List.filterMap_cons, Call.location?, Call.initial?,
            Call.transition?, List.getLast?_cons]
      | transition source guard target =>
          simp [recorded, perform, connect, List.filterMap_cons, Call.location?, Call.initial?,
            Call.transition?]

theorem ofCalls_eq_recorded (calls : List Call) : ofCalls calls = recorded calls := by
  rw [ofCalls, foldl_perform]
  simp

end Draft

end OnTheFly
