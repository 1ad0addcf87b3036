import OnTheFly.Automaton.Draft

/-!
Contract: what the checks on a draft make sure of.

Owns: that the automaton of a draft has its initial location, that all its
edges lead to locations that it has, and when a draft is accepted.
-/

set_option autoImplicit false

namespace OnTheFly

/-- Whether all locations that an automaton refers to exist. -/
structure Automaton.Located (automaton : Automaton) : Prop where
  initial : ∃ location, automaton.location? automaton.initial = some location
  target {source : LocationId} {location : Location} {edge : AutomatonEdge} :
    automaton.location? source = some location → edge ∈ location.edges →
      ∃ reached, automaton.location? edge.target = some reached

namespace Draft

variable {draft : Draft}

theorem resolve_lt {name : String} {location : LocationId}
    (resolved : draft.resolve name = .ok location) : location.index < draft.locations.length := by
  unfold resolve at resolved
  split at resolved
  · rename_i index found
    cases resolved
    have bound := (List.findIdx?_eq_some_iff_getElem.1 found).1
    simpa [names] using bound
  · cases resolved

theorem location?_assemble {initial : LocationId} {edges : List ResolvedEdge}
    {place : LocationId} (inside : place.index < draft.locations.length) :
    ∃ location, (draft.assemble initial edges).location? place = some location := by
  refine ⟨_, Array.getElem?_eq_getElem ?_⟩
  simpa [assemble] using inside

theorem mem_edges_assemble {initial place : LocationId} {edges : List ResolvedEdge}
    {location : Location} {edge : AutomatonEdge}
    (here : (draft.assemble initial edges).location? place = some location)
    (leaves : edge ∈ location.edges) : ∃ resolved ∈ edges, resolved.edge = edge := by
  simp only [Automaton.location?, assemble, List.getElem?_toArray, List.getElem?_mapIdx,
    Option.map_eq_some_iff] at here
  obtain ⟨declared, _, rfl⟩ := here
  obtain ⟨resolved, member, same⟩ := List.mem_map.1 leaves
  exact ⟨resolved, (List.mem_filter.1 member).1, same⟩

/-! ## When a draft is accepted -/

theorem firstRepeated?_eq_none_iff {earlier names : List String} :
    firstRepeated? earlier names = none ↔ names.Nodup ∧ ∀ name ∈ names, name ∉ earlier := by
  induction names generalizing earlier with
  | nil => simp [firstRepeated?]
  | cons name names inductionHypothesis =>
      unfold firstRepeated?
      by_cases repeated : name ∈ earlier
      · simp [repeated]
      · rw [if_neg repeated, inductionHypothesis]
        grind

theorem resolve_eq_ok_iff (distinct : draft.names.Nodup) {name : String} {place : LocationId} :
    draft.resolve name = .ok place ↔ draft.names[place.index]? = some name := by
  unfold resolve
  constructor
  · intro resolved
    split at resolved
    · rename_i index found
      cases resolved
      obtain ⟨bound, same, _⟩ := List.findIdx?_eq_some_iff_getElem.1 found
      rw [List.getElem?_eq_getElem bound, eq_of_beq same]
    · cases resolved
  · intro here
    obtain ⟨bound, same⟩ := List.getElem?_eq_some_iff.1 here
    have found : draft.names.findIdx? (· == name) = some place.index := by
      rw [List.findIdx?_eq_some_iff_getElem]
      refine ⟨bound, beq_iff_eq.2 same, fun earlier below sameName => ?_⟩
      have sameIndex := (List.getElem_inj distinct).1 ((eq_of_beq sameName).trans same.symm)
      omega
    rw [found]

theorem exists_resolve {name : String} (distinct : draft.names.Nodup)
    (declared : name ∈ draft.names) : ∃ place, draft.resolve name = .ok place := by
  obtain ⟨index, bound, here⟩ := List.getElem_of_mem declared
  exact ⟨⟨index⟩, (resolve_eq_ok_iff distinct).2 (List.getElem?_eq_some_iff.2 ⟨bound, here⟩)⟩

theorem resolveEdge_eq_ok_iff {edge : DraftEdge} {resolved : ResolvedEdge} :
    draft.resolveEdge edge = .ok resolved ↔
      draft.resolve edge.source = .ok resolved.source ∧
        draft.resolve edge.target = .ok resolved.edge.target ∧
          edge.guard.contradiction? = none ∧ edge.guard = resolved.edge.guard := by
  obtain ⟨source, guard, target⟩ := resolved
  unfold resolveEdge
  cases draft.resolve edge.source with
  | error unknown => simp
  | ok foundSource =>
      cases draft.resolve edge.target with
      | error unknown => simp
      | ok foundTarget =>
          cases edge.guard.contradiction? with
          | some proposition => simp
          | none =>
              simp only [Except.ok.injEq, ResolvedEdge.mk.injEq, AutomatonEdge.mk.injEq, true_and]
              exact ⟨fun same => ⟨same.1, same.2.2, same.2.1⟩,
                fun same => ⟨same.1, same.2.2, same.2.1⟩⟩

theorem resolveEdges_eq_ok_iff {edges : List DraftEdge} {resolved : List ResolvedEdge} :
    draft.resolveEdges edges = .ok resolved ↔
      edges.map draft.resolveEdge = resolved.map Except.ok := by
  induction edges generalizing resolved with
  | nil => simp [resolveEdges, eq_comm]
  | cons edge edges inductionHypothesis =>
      unfold resolveEdges
      cases resolved with
      | nil =>
          cases draft.resolveEdge edge with
          | error wrong => simp
          | ok first => cases draft.resolveEdges edges <;> simp
      | cons first rest =>
          rw [List.map_cons, List.map_cons, List.cons.injEq, ← inductionHypothesis]
          cases draft.resolveEdge edge with
          | error wrong => simp
          | ok first => cases draft.resolveEdges edges <;> simp

theorem build_eq_ok_iff {automaton : Automaton} :
    draft.build = .ok automaton ↔ draft.names.Nodup ∧ ∃ name initial edges,
      draft.initial = some name ∧ draft.resolve name = .ok initial ∧
        draft.edges.map draft.resolveEdge = edges.map Except.ok ∧
          draft.assemble initial edges = automaton := by
  have distinct_iff : firstRepeated? [] draft.names = none ↔ draft.names.Nodup := by
    rw [firstRepeated?_eq_none_iff]
    simp
  constructor
  · intro built
    unfold build at built
    split at built
    · cases built
    split at built
    · cases built
    rename_i distinct
    split at built
    · cases built
    rename_i name named
    split at built
    · cases built
    rename_i initial foundInitial
    split at built
    · cases built
    rename_i edges foundEdges
    cases built
    exact ⟨distinct_iff.1 distinct, name, initial, edges, named, foundInitial,
      resolveEdges_eq_ok_iff.1 foundEdges, rfl⟩
  · rintro ⟨distinct, name, initial, edges, named, foundInitial, foundEdges, rfl⟩
    have some_ : draft.locations.isEmpty = false := by
      rw [List.isEmpty_eq_false_iff, ← List.length_pos_iff]
      have below := resolve_lt foundInitial
      omega
    unfold build
    rw [some_, if_neg Bool.false_ne_true, distinct_iff.2 distinct, named]
    simp only
    rw [foundInitial]
    simp only
    rw [resolveEdges_eq_ok_iff.2 foundEdges]

theorem located_of_build {automaton : Automaton} (built : draft.build = .ok automaton) :
    automaton.Located := by
  obtain ⟨_, name, initial, edges, _, foundInitial, foundEdges, rfl⟩ := build_eq_ok_iff.1 built
  constructor
  · exact location?_assemble (resolve_lt foundInitial)
  · intro source location edge here leaves
    obtain ⟨resolved, member, rfl⟩ := mem_edges_assemble here leaves
    have listed : Except.ok resolved ∈ draft.edges.map draft.resolveEdge := by
      rw [foundEdges]
      exact List.mem_map_of_mem member
    obtain ⟨written, _, found⟩ := List.mem_map.1 listed
    exact location?_assemble (resolve_lt (resolveEdge_eq_ok_iff.1 found).2.1)

/-- A draft with distinct names, whose references are declared and whose guards
do not contradict themselves, describes an automaton. -/
theorem exists_build (distinct : draft.names.Nodup) {name : String}
    (initial : draft.initial = some name) (declared : name ∈ draft.names)
    (ends : ∀ edge ∈ draft.edges, edge.source ∈ draft.names ∧ edge.target ∈ draft.names)
    (consistent : ∀ edge ∈ draft.edges, edge.guard.contradiction? = none) :
    ∃ automaton, draft.build = .ok automaton := by
  have resolves : ∀ edge ∈ draft.edges, ∃ resolved, draft.resolveEdge edge = .ok resolved := by
    intro edge member
    obtain ⟨source, foundSource⟩ := exists_resolve distinct (ends edge member).1
    obtain ⟨target, foundTarget⟩ := exists_resolve distinct (ends edge member).2
    exact ⟨⟨source, edge.guard, target⟩,
      resolveEdge_eq_ok_iff.2 ⟨foundSource, foundTarget, consistent edge member, rfl⟩⟩
  have all : ∃ edges : List ResolvedEdge,
      draft.edges.map draft.resolveEdge = edges.map Except.ok := by
    generalize draft.edges = listed at resolves
    induction listed with
    | nil => exact ⟨[], rfl⟩
    | cons edge listed inductionHypothesis =>
        obtain ⟨first, found⟩ := resolves edge List.mem_cons_self
        obtain ⟨rest, others⟩ := inductionHypothesis fun other member =>
          resolves other (List.mem_cons_of_mem _ member)
        exact ⟨first :: rest, by rw [List.map_cons, found, others, List.map_cons]⟩
  obtain ⟨place, found⟩ := exists_resolve distinct declared
  obtain ⟨edges, resolved⟩ := all
  exact ⟨_, build_eq_ok_iff.2 ⟨distinct, name, place, edges, initial, found, resolved, rfl⟩⟩

end Draft

end OnTheFly
