import Mathlib.Data.List.Nodup
import OnTheFly.Automaton.Format
import OnTheFly.Proofs.Automaton.Draft

/-!
Contract: automata as they are seen through the names of their locations.

Owns: the portrait of a location, in which the targets of transitions are given
by name, equality of automata up to the numbers of their locations, and the
portraits in an automaton that was built from a draft.
-/

set_option autoImplicit false

namespace OnTheFly

namespace Automaton

/-- A location as it is seen by name. -/
structure Portrait where
  accepting : Bool
  edges : List (Guard × String)
deriving DecidableEq, Repr

def names (automaton : Automaton) : List String :=
  automaton.locations.toList.map (·.name)

def portray (automaton : Automaton) (location : Location) : Portrait :=
  ⟨location.accepting, location.edges.map fun edge => (edge.guard, automaton.nameOf edge.target)⟩

/-- The portrait of the location of that name. -/
def portrait? (automaton : Automaton) (name : String) : Option Portrait :=
  (automaton.locations.toList.find? (·.name == name)).map automaton.portray

/-- Whether two automata differ at most in the numbers of their locations. -/
structure Renumbered (first second : Automaton) : Prop where
  names : first.names.Perm second.names
  initial : first.nameOf first.initial = second.nameOf second.initial
  portrait (name : String) : first.portrait? name = second.portrait? name

/-- Whether the names and guards of an automaton are in order, beside the
locations that it refers to. -/
structure WellFormed (automaton : Automaton) : Prop extends automaton.Located where
  distinct : automaton.names.Nodup
  consistent {location : Location} {edge : AutomatonEdge} :
    location ∈ automaton.locations.toList → edge ∈ location.edges →
      edge.guard.contradiction? = none

variable {automaton : Automaton}

theorem nameOf_eq (place : LocationId) :
    automaton.nameOf place = (automaton.names[place.index]?).getD "" := by
  simp [nameOf, names, location?]

theorem location_mem_iff {location : Location} :
    location ∈ automaton.locations.toList ↔
      ∃ place, automaton.location? place = some location := by
  rw [List.mem_iff_getElem?]
  constructor
  · rintro ⟨index, here⟩
    exact ⟨⟨index⟩, by rwa [Array.getElem?_toList] at here⟩
  · rintro ⟨place, here⟩
    exact ⟨place.index, by rwa [Array.getElem?_toList]⟩

theorem nameOf_of_location? {place : LocationId} {location : Location}
    (here : automaton.location? place = some location) :
    automaton.nameOf place = location.name := by
  rw [nameOf, here]
  rfl

theorem nameOf_mem {place : LocationId} {location : Location}
    (here : automaton.location? place = some location) :
    automaton.nameOf place ∈ automaton.names := by
  rw [nameOf_of_location? here]
  exact List.mem_map.2 ⟨location, location_mem_iff.2 ⟨place, here⟩, rfl⟩

/-- Where names are distinct, a name has one location. -/
theorem location_eq_of_name (distinct : automaton.names.Nodup) {first second : Location}
    (listedFirst : first ∈ automaton.locations.toList)
    (listedSecond : second ∈ automaton.locations.toList) (same : first.name = second.name) :
    first = second :=
  List.inj_on_of_nodup_map distinct listedFirst listedSecond same

theorem portrait?_eq_some_iff (distinct : automaton.names.Nodup) {name : String}
    {portrait : Portrait} :
    automaton.portrait? name = some portrait ↔
      ∃ location ∈ automaton.locations.toList,
        location.name = name ∧ automaton.portray location = portrait := by
  unfold portrait?
  rw [Option.map_eq_some_iff]
  constructor
  · rintro ⟨location, found, portrayed⟩
    have sameName := List.find?_some found
    exact ⟨location, List.mem_of_find?_eq_some found, eq_of_beq sameName, portrayed⟩
  · rintro ⟨location, listed, rfl, portrayed⟩
    cases found : automaton.locations.toList.find? (·.name == location.name) with
    | none =>
        have differs := List.find?_eq_none.1 found location listed
        simp at differs
    | some other =>
        have sameName := List.find?_some found
        have same := location_eq_of_name distinct (List.mem_of_find?_eq_some found) listed
          (eq_of_beq sameName)
        exact ⟨other, rfl, same ▸ portrayed⟩

end Automaton

namespace Draft

open Automaton

/-- The transitions that leave the location of that name. -/
def edgesFrom (draft : Draft) (name : String) : List (Guard × String) :=
  (draft.edges.filter (·.source == name)).map fun edge => (edge.guard, edge.target)

variable {draft : Draft} {automaton : Automaton}

theorem names_assemble (initial : LocationId) (edges : List ResolvedEdge) :
    (draft.assemble initial edges).names = draft.names := by
  apply List.ext_getElem?
  intro index
  simp [Automaton.names, names, assemble, Function.comp_def]

theorem nameOf_assemble (distinct : draft.names.Nodup) (initial : LocationId)
    (edges : List ResolvedEdge) {name : String} {place : LocationId}
    (resolved : draft.resolve name = .ok place) :
    (draft.assemble initial edges).nameOf place = name := by
  rw [nameOf_eq, names_assemble, (resolve_eq_ok_iff distinct).1 resolved]
  rfl

/-- Grouping transitions by the number of their source is grouping them by its
name. -/
theorem filter_resolved (distinct : draft.names.Nodup) {nameOf : LocationId → String}
    (named : ∀ name place, draft.resolve name = .ok place → nameOf place = name)
    {index : Nat} {name : String} (here : draft.names[index]? = some name)
    {edges : List DraftEdge} {resolved : List ResolvedEdge}
    (resolves : edges.map draft.resolveEdge = resolved.map Except.ok) :
    ((resolved.filter (·.source.index == index)).map (·.edge)).map
        (fun edge => (edge.guard, nameOf edge.target)) =
      (edges.filter (·.source == name)).map fun edge => (edge.guard, edge.target) := by
  induction edges generalizing resolved with
  | nil =>
      obtain rfl := List.map_eq_nil_iff.1 resolves.symm
      rfl
  | cons edge edges inductionHypothesis =>
      cases resolved with
      | nil => cases resolves
      | cons first rest =>
          rw [List.map_cons, List.map_cons, List.cons.injEq, resolveEdge_eq_ok_iff] at resolves
          obtain ⟨⟨source, target, _, guard⟩, others⟩ := resolves
          have sameSource : (first.source.index == index) = (edge.source == name) := by
            have declared := (resolve_eq_ok_iff distinct).1 source
            rw [Bool.eq_iff_iff, beq_iff_eq, beq_iff_eq]
            constructor
            · rintro rfl
              exact Option.some.inj (declared.symm.trans here)
            · intro sameName
              have found : draft.resolve edge.source = .ok ⟨index⟩ :=
                (resolve_eq_ok_iff distinct).2 (sameName ▸ here)
              exact congrArg LocationId.index (Except.ok.inj (source.symm.trans found))
          rw [List.filter_cons, List.filter_cons, sameSource]
          split
          · rw [List.map_cons, List.map_cons, List.map_cons, inductionHypothesis others, guard,
              named _ _ target]
          · exact inductionHypothesis others

theorem mem_locations_assemble {initial : LocationId} {edges : List ResolvedEdge}
    {location : Location} :
    location ∈ (draft.assemble initial edges).locations.toList ↔
      ∃ index declared, draft.locations[index]? = some declared ∧
        location = ⟨declared.name, declared.accepting,
          (edges.filter (·.source.index == index)).map (·.edge)⟩ := by
  simp only [assemble, List.mem_iff_getElem?, List.getElem?_mapIdx, Option.map_eq_some_iff]
  constructor
  · rintro ⟨index, declared, here, rfl⟩
    exact ⟨index, declared, here, rfl⟩
  · rintro ⟨index, declared, here, rfl⟩
    exact ⟨index, declared, here, rfl⟩

theorem names_of_build (built : draft.build = .ok automaton) : automaton.names = draft.names := by
  obtain ⟨_, _, initial, edges, _, _, _, rfl⟩ := build_eq_ok_iff.1 built
  exact names_assemble initial edges

theorem nameOf_initial_of_build (built : draft.build = .ok automaton) :
    draft.initial = some (automaton.nameOf automaton.initial) := by
  obtain ⟨distinct, name, initial, edges, named, found, _, rfl⟩ := build_eq_ok_iff.1 built
  rw [named]
  exact congrArg some (nameOf_assemble distinct initial edges found).symm

/-- The locations of the automaton are the declared ones, with the transitions
that name them as their source. -/
theorem portrait?_of_build (built : draft.build = .ok automaton) {name : String}
    {portrait : Portrait} :
    automaton.portrait? name = some portrait ↔
      ∃ declared ∈ draft.locations, declared.name = name ∧
        ⟨declared.accepting, draft.edgesFrom name⟩ = portrait := by
  obtain ⟨distinct, _, initial, edges, _, _, resolves, rfl⟩ := build_eq_ok_iff.1 built
  have portrayed {index : Nat} {declared : DraftLocation}
      (here : draft.locations[index]? = some declared) :
      (draft.assemble initial edges).portray ⟨declared.name, declared.accepting,
          (edges.filter (·.source.index == index)).map (·.edge)⟩ =
        ⟨declared.accepting, draft.edgesFrom declared.name⟩ := by
    have named : draft.names[index]? = some declared.name := by
      rw [names, List.getElem?_map, here]
      rfl
    rw [portray, edgesFrom]
    congr 1
    exact filter_resolved distinct (fun _ _ => nameOf_assemble distinct initial edges) named
      resolves
  rw [portrait?_eq_some_iff (by rwa [names_assemble])]
  constructor
  · rintro ⟨location, listed, rfl, rfl⟩
    obtain ⟨index, declared, here, rfl⟩ := mem_locations_assemble.1 listed
    exact ⟨declared, List.mem_of_getElem? here, rfl, (portrayed here).symm⟩
  · rintro ⟨declared, listed, rfl, rfl⟩
    obtain ⟨index, here⟩ := List.mem_iff_getElem?.1 listed
    exact ⟨_, mem_locations_assemble.2 ⟨index, declared, here, rfl⟩, rfl, portrayed here⟩

theorem wellFormed_of_build (built : draft.build = .ok automaton) : automaton.WellFormed := by
  have located := located_of_build built
  obtain ⟨distinct, _, initial, edges, _, _, resolves, rfl⟩ := build_eq_ok_iff.1 built
  refine ⟨located, by rwa [names_assemble], fun {location edge} listed leaves => ?_⟩
  obtain ⟨place, here⟩ := location_mem_iff.1 listed
  obtain ⟨resolved, member, rfl⟩ := mem_edges_assemble here leaves
  have found : Except.ok resolved ∈ draft.edges.map draft.resolveEdge :=
    resolves ▸ List.mem_map_of_mem member
  obtain ⟨written, _, resolvesTo⟩ := List.mem_map.1 found
  obtain ⟨_, _, consistent, guard⟩ := resolveEdge_eq_ok_iff.1 resolvesTo
  exact guard ▸ consistent

end Draft

end OnTheFly
