import Mathlib.Data.Set.Card
import OnTheFly.Proofs.Exploration.Closing
import OnTheFly.Proofs.StateSpace.Chronicle
import OnTheFly.Proofs.StateSpace.Interruption
import OnTheFly.RuleSystem.Labelled

/-!
Contract: labelled systems are finite, and nothing but interruptions makes
their edges fail.

Owns: a bound on the reachable nodes of a labelled system, that the target of
an edge is all that following it depends on, that all matches can be applied
once no interruption is left, and that interruptions are used up.
-/

set_option autoImplicit false

namespace OnTheFly

namespace Interruptions

/-- A bound on the applications that can still be aborted. -/
def total (interruptions : Interruptions) : Nat :=
  (interruptions.remaining.map (·.2)).sum

theorem lookup_add_sum_le (rule : String) (entries : List (String × Nat)) :
    (entries.lookup rule).getD 0 + ((entries.filter (·.1 ≠ rule)).map (·.2)).sum ≤
      (entries.map (·.2)).sum := by
  induction entries with
  | nil => simp
  | cons entry entries inductionHypothesis =>
      obtain ⟨other, times⟩ := entry
      by_cases same : other = rule
      · subst same
        rw [List.lookup_cons_self, Option.getD_some, List.filter_cons_of_neg (by simp),
          List.map_cons, List.sum_cons]
        omega
      · have differs : (rule == other) = false := by simpa using Ne.symm same
        simp only [List.lookup_cons, differs, List.map_cons, List.sum_cons]
        rw [List.filter_cons_of_pos (by simpa using same), List.map_cons, List.sum_cons]
        omega

/-- Every aborted application lowers the bound. -/
theorem total_of_take? {interruptions fewer : Interruptions} {rule : String}
    (taken : interruptions.take? rule = some fewer) : fewer.total < interruptions.total := by
  have bound := lookup_add_sum_le rule interruptions.remaining
  unfold take? at taken
  split at taken
  · cases taken
  · rename_i times left
    cases taken
    rw [count] at left
    rw [left] at bound
    simp only [total, schedule, List.map_cons, List.sum_cons]
    omega

end Interruptions

namespace LabelledSystem

variable {system : LabelledSystem}

/-- Following an edge leads to its target. -/
theorem apply_ok {interruptions : Interruptions} {node target : NodeId} {candidate : EdgeMatch}
    (applied : (system.apply interruptions node candidate).1 = .ok target) :
    ∃ edge, system.edges[candidate.edge]? = some edge ∧ edge.target = target := by
  unfold apply at applied
  split at applied
  · cases applied
  · split at applied
    · rename_i edge found
      split at applied
      · cases applied
        exact ⟨edge, found, rfl⟩
      · cases applied
    · cases applied

theorem functional (system : LabelledSystem) : system.rules.Functional := by
  intro node candidate first second target other applied again
  obtain ⟨edge, found, rfl⟩ := apply_ok applied
  obtain ⟨sameEdge, foundAgain, rfl⟩ := apply_ok again
  rw [found] at foundAgain
  cases foundAgain
  rfl

/-- The start node and the targets of edges. -/
def targets (system : LabelledSystem) : Finset NodeId :=
  insert system.startNode (system.edges.toList.map (·.target)).toFinset

theorem mem_targets {node : system.rules.Graph} (reachable : system.rules.Reachable node) :
    (show NodeId from node) ∈ system.targets := by
  unfold targets
  cases reachable with
  | start => exact Finset.mem_insert_self _ _
  | apply _ _ applied =>
      obtain ⟨edge, found, rfl⟩ := apply_ok applied
      have member := Array.mem_toList_iff.2 (Array.mem_of_getElem? found)
      exact Finset.mem_insert_of_mem (List.mem_toFinset.2 (List.mem_map_of_mem member))

theorem reachable_subset :
    { node | system.rules.Reachable node } ⊆ (system.targets : Set NodeId) :=
  fun _ reachable => mem_targets reachable

theorem finite_reachable : { node | system.rules.Reachable node }.Finite :=
  system.targets.finite_toSet.subset reachable_subset

theorem ncard_reachable_le :
    { node | system.rules.Reachable node }.ncard ≤ system.edges.size + 1 :=
  calc { node | system.rules.Reachable node }.ncard
      ≤ (system.targets : Set NodeId).ncard :=
        Set.ncard_le_ncard reachable_subset system.targets.finite_toSet
    _ = system.targets.card := Set.ncard_coe_finset _
    _ ≤ (system.edges.toList.map (·.target)).toFinset.card + 1 := Finset.card_insert_le _ _
    _ ≤ system.edges.size + 1 := by
        have bound := List.toFinset_card_le (system.edges.toList.map (·.target))
        rw [List.length_map, Array.length_toList] at bound
        omega

/-- A match of a node is an edge that leaves it. -/
theorem edge_of_mem_matchesOf {node : NodeId} {candidate : EdgeMatch}
    (offered : candidate ∈ system.matchesOf node) :
    ∃ edge, system.edges[candidate.edge]? = some edge ∧ edge.source = node := by
  obtain ⟨⟨edge, index⟩, member, rfl⟩ := List.mem_map.1 offered
  obtain ⟨listed, leaves⟩ := List.mem_filter.1 member
  refine ⟨edge, ?_, by simpa using leaves⟩
  have found := List.mem_zipIdx_iff_getElem?.1 listed
  simpa using found

/-- Without interruptions an application leaves the engine as it was. -/
theorem apply_calm {interruptions : Interruptions} (calm : ∀ rule, interruptions.count rule = 0)
    (node : NodeId) (candidate : EdgeMatch) :
    (system.apply interruptions node candidate).2 = interruptions ∧
      (candidate ∈ system.matchesOf node →
        ∃ target, (system.apply interruptions node candidate).1 = .ok target) := by
  have nothing : interruptions.take? candidate.rule = none := by
    simp [Interruptions.take?, calm]
  unfold apply
  rw [nothing]
  constructor
  · simp only
    split
    · split <;> rfl
    · rfl
  · intro offered
    obtain ⟨edge, found, leaves⟩ := edge_of_mem_matchesOf offered
    simp [found, leaves]

/-- Every match can be applied when no interruption is left. -/
theorem succeeds_of_calm {interruptions : Interruptions}
    (calm : ∀ rule, interruptions.count rule = 0) : system.rules.Succeeds interruptions := by
  have unchanged : ∀ later, system.rules.After interruptions later → later = interruptions := by
    intro later after
    induction after with
    | now => rfl
    | apply node candidate _ inductionHypothesis =>
        rw [inductionHypothesis]
        exact (apply_calm calm node candidate).1
  intro later after node candidate _ offered
  rw [unchanged later after]
  exact (apply_calm calm node candidate).2 offered

/-- An application that is not aborted depends on nothing in the engine. -/
theorem apply_of_untaken {interruptions calm : Interruptions} {candidate : EdgeMatch}
    (untaken : interruptions.take? candidate.rule = none)
    (calmly : calm.take? candidate.rule = none) (node : NodeId) :
    system.apply interruptions node candidate =
      ((system.apply calm node candidate).1, interruptions) := by
  unfold apply
  rw [untaken, calmly]
  simp only
  split
  · split <;> rfl
  · rfl

theorem apply_ne_interrupted {interruptions : Interruptions} {candidate : EdgeMatch}
    (untaken : interruptions.take? candidate.rule = none) (node : NodeId) :
    (system.apply interruptions node candidate).1 ≠ .error .interrupted := by
  intro aborted
  unfold apply at aborted
  rw [untaken] at aborted
  simp only at aborted
  split at aborted
  · split at aborted <;> cases aborted
  · cases aborted

/-- An engine without interruptions is what is left of any other. -/
theorem calms {calm : Interruptions} (nothing : ∀ rule, calm.count rule = 0) :
    system.rules.Calms Interruptions.total calm := by
  have calmly : ∀ rule, calm.take? rule = none := by
    intro rule
    simp [Interruptions.take?, nothing]
  constructor
  · exact fun node candidate => (apply_calm nothing node candidate).1
  · exact fun node candidate => apply_ne_interrupted (calmly _) node
  · intro interruptions node candidate
    change ((system.apply interruptions node candidate).1 = .error .interrupted ∧
        (system.apply interruptions node candidate).2.total < interruptions.total) ∨
      ((system.apply interruptions node candidate).1 = (system.apply calm node candidate).1 ∧
        (system.apply interruptions node candidate).2.total ≤ interruptions.total)
    cases taken : interruptions.take? (EdgeMatch.rule candidate) with
    | none =>
        rw [apply_of_untaken taken (calmly _) node]
        exact .inr ⟨rfl, Nat.le_refl _⟩
    | some fewer =>
        unfold apply
        rw [taken]
        exact .inl ⟨rfl, Interruptions.total_of_take? taken⟩

end LabelledSystem

end OnTheFly
