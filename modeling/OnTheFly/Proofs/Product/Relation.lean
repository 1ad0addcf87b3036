import Mathlib.Data.List.Basic
import OnTheFly.Product.Synchronous
import OnTheFly.Proofs.StateSpace.Evolution

/-!
Contract: the synchronous product as a relation, apart from any search.

Owns: the transitions of the product of a state space and an automaton, their
agreement with the listed steps, and what of them evolution keeps.
Does not own: cycles of the product.
-/

set_option autoImplicit false

namespace OnTheFly

variable {R : RuleSystem}

/-- A system state together with a location. -/
abbrev ProductPoint := StateId × LocationId

/-- A transition of the synchronous product. The labels of all outgoing system
transitions enable the automaton's. With it the system moves to another state,
or it stays put if it has no transition other than self-loops. -/
inductive Synchronous (space : StateSpace R) (automaton : Automaton) :
    ProductPoint → Option TransitionId → ProductPoint → Prop where
  | move {state : StateId} {place : LocationId} {location : Location} {edge : AutomatonEdge}
      {handle : TransitionId} {transition : Transition}
      (here : automaton.location? place = some location) (leaves : edge ∈ location.edges)
      (enabled : edge.guard.isEnabled (space.outLabels state) = true)
      (outgoing : (handle, transition) ∈ space.outgoing state)
      (elsewhere : transition.isSelfLoop = false) :
      Synchronous space automaton (state, place) (some handle) (transition.target, edge.target)
  | stay {state : StateId} {place : LocationId} {location : Location} {edge : AutomatonEdge}
      (here : automaton.location? place = some location) (leaves : edge ∈ location.edges)
      (enabled : edge.guard.isEnabled (space.outLabels state) = true)
      (stuck : ∀ handle transition, (handle, transition) ∈ space.outgoing state →
        transition.isSelfLoop = true) :
      Synchronous space automaton (state, place) none (state, edge.target)

/-- A transition of the product, whatever the system does. -/
def Successor (space : StateSpace R) (automaton : Automaton) (source target : ProductPoint) :
    Prop :=
  ∃ via, Synchronous space automaton source via target

/-! ## The product in lists -/

theorem StateSpace.mem_moves {space : StateSpace R} {state : StateId} {handle : TransitionId}
    {transition : Transition} :
    (handle, transition) ∈ space.moves state ↔
      (handle, transition) ∈ space.outgoing state ∧ transition.isSelfLoop = false := by
  simp [StateSpace.moves]

theorem StateSpace.moves_eq_nil {space : StateSpace R} {state : StateId} :
    space.moves state = [] ↔
      ∀ handle transition, (handle, transition) ∈ space.outgoing state →
        transition.isSelfLoop = true := by
  simp [StateSpace.moves, List.filter_eq_nil_iff]

theorem mem_systemSteps {space : StateSpace R} {state target : StateId}
    {via : Option TransitionId} :
    (via, target) ∈ systemSteps space state ↔
      (∃ handle transition, (handle, transition) ∈ space.moves state ∧ via = some handle ∧
        target = transition.target) ∨
      (space.moves state = [] ∧ via = none ∧ target = state) := by
  unfold systemSteps
  split
  · rename_i nothing
    simp [nothing]
  · rename_i moves some_
    have present : space.moves state ≠ [] := some_
    simp only [List.mem_map, Prod.mk.injEq, Prod.exists, present, false_and, or_false]
    constructor
    · rintro ⟨handle, transition, member, rfl, rfl⟩
      exact ⟨handle, transition, member, rfl, rfl⟩
    · rintro ⟨handle, transition, member, rfl, rfl⟩
      exact ⟨handle, transition, member, rfl, rfl⟩

/-- The listed steps are the transitions of the product. -/
theorem mem_productSteps_iff {space : StateSpace R} {automaton : Automaton} {state : StateId}
    {place : LocationId} {location : Location}
    (here : automaton.location? place = some location) (step : ProductStep) :
    step ∈ productSteps space state location ↔
      Synchronous space automaton (state, place) step.via (step.state, step.location) := by
  obtain ⟨via, target, targetPlace⟩ := step
  simp only [productSteps, Automaton.enabledTargets, List.mem_flatMap, List.mem_map,
    List.mem_filter, ProductStep.mk.injEq, Prod.exists]
  constructor
  · rintro ⟨_, ⟨edge, ⟨leaves, enabled⟩, rfl⟩, _, _, member, rfl, rfl, rfl⟩
    rcases mem_systemSteps.1 member with ⟨handle, transition, moving, rfl, rfl⟩ | ⟨none_, rfl, rfl⟩
    · obtain ⟨outgoing, elsewhere⟩ := StateSpace.mem_moves.1 moving
      exact .move here leaves enabled outgoing elsewhere
    · exact .stay here leaves enabled (StateSpace.moves_eq_nil.1 none_)
  · intro step
    cases step with
    | move found leaves enabled outgoing elsewhere =>
        rw [here] at found
        cases found
        refine ⟨_, ⟨_, ⟨leaves, enabled⟩, rfl⟩, _, _, mem_systemSteps.2 (.inl ?_), rfl, rfl, rfl⟩
        exact ⟨_, _, StateSpace.mem_moves.2 ⟨outgoing, elsewhere⟩, rfl, rfl⟩
    | stay found leaves enabled stuck =>
        rw [here] at found
        cases found
        refine ⟨_, ⟨_, ⟨leaves, enabled⟩, rfl⟩, _, _, mem_systemSteps.2 (.inr ?_), rfl, rfl, rfl⟩
        exact ⟨StateSpace.moves_eq_nil.2 stuck, rfl, rfl⟩

theorem Synchronous.location? {space : StateSpace R} {automaton : Automaton}
    {source target : ProductPoint} {via : Option TransitionId}
    (step : Synchronous space automaton source via target) :
    ∃ location, automaton.location? source.2 = some location := by
  cases step with
  | move here => exact ⟨_, here⟩
  | stay here => exact ⟨_, here⟩

/-- Where the system stays put once, it stays put from then on. -/
theorem Synchronous.stays {space : StateSpace R} {automaton : Automaton}
    {source middle target : ProductPoint} {via : Option TransitionId}
    (first : Synchronous space automaton source none middle)
    (second : Synchronous space automaton middle via target) : via = none := by
  cases first with
  | stay _ _ _ stuck =>
      cases second with
      | move _ _ _ outgoing elsewhere =>
          rw [stuck _ _ outgoing] at elsewhere
          cases elsewhere
      | stay => rfl

/-! ## Evolution -/

section Evolution

variable {space later : StateSpace R} {automaton : Automaton}

theorem StateSpace.WellFormed.outgoing_of_closed (wellFormed : space.WellFormed)
    (kept : space.Extends later) {state : StateId} (closed : space.isClosed state = true) :
    later.outgoing state = space.outgoing state := by
  unfold StateSpace.outgoing
  rw [(kept.closed closed).2]
  refine List.filterMap_congr fun handle member => ?_
  obtain ⟨transition, found, _⟩ := wellFormed.out_valid member
  rw [found, kept.transition found]

/-- The product of a closed system state is the same ever after. -/
theorem StateSpace.WellFormed.productSteps_of_closed (wellFormed : space.WellFormed)
    (kept : space.Extends later) {state : StateId} (closed : space.isClosed state = true)
    (location : Location) :
    productSteps later state location = productSteps space state location := by
  have same := wellFormed.outgoing_of_closed kept closed
  simp only [productSteps, systemSteps, StateSpace.moves, StateSpace.outLabels, same]

theorem StateSpace.WellFormed.synchronous_of_closed (wellFormed : space.WellFormed)
    (kept : space.Extends later) {source target : ProductPoint} {via : Option TransitionId}
    (closed : space.isClosed source.1 = true) :
    Synchronous later automaton source via target ↔
      Synchronous space automaton source via target := by
  -- Both sides need a location to leave from, and with it they are the same list.
  constructor <;> intro step <;> obtain ⟨location, here⟩ := step.location?
  · have listed := (mem_productSteps_iff here ⟨via, target.1, target.2⟩).2 step
    rw [wellFormed.productSteps_of_closed kept closed] at listed
    exact (mem_productSteps_iff here _).1 listed
  · have listed := (mem_productSteps_iff here ⟨via, target.1, target.2⟩).2 step
    rw [← wellFormed.productSteps_of_closed kept closed] at listed
    exact (mem_productSteps_iff here _).1 listed

/-- The system state that a transition of the product leads to is stored. -/
theorem StateSpace.WellFormed.contains_target (wellFormed : space.WellFormed)
    {source target : ProductPoint} {via : Option TransitionId}
    (contained : space.contains source.1 = true)
    (step : Synchronous space automaton source via target) :
    space.contains target.1 = true := by
  cases step with
  | move _ _ _ outgoing _ =>
      obtain ⟨member, found⟩ := StateSpace.mem_outgoing.1 outgoing
      obtain ⟨transition, foundOther, _, containedTarget⟩ := wellFormed.out_valid member
      rw [found] at foundOther
      cases foundOther
      exact containedTarget
  | stay => exact contained

end Evolution

end OnTheFly
