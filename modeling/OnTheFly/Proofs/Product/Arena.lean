import Mathlib.Data.List.Basic
import OnTheFly.Product.Synchronous

/-!
Contract: the arena of product states and transitions.

Owns: the invariant of the arena, the steps that it holds for a product state,
and what painting, marking and adding steps do to them.
-/

set_option autoImplicit false

namespace OnTheFly

namespace Product

/-- The pair that a product state stands for. -/
def point (product : Product) (state : ProductStateId) : StateId × LocationId :=
  (product.systemState state, product.location state)

def stepOf (product : Product) (transition : ProductTransition) : ProductStep :=
  ⟨transition.via, product.systemState transition.target, product.location transition.target⟩

/-- The steps that the arena holds for a product state, in order. -/
def steps (product : Product) (state : ProductStateId) : List ProductStep :=
  (product.outgoing state).map fun entry => product.stepOf entry.2

/-- Whether the arena holds a transition between the two. -/
def Linked (product : Product) (source target : ProductStateId) : Prop :=
  ∃ handle transition, (handle, transition) ∈ product.outgoing source ∧ transition.target = target

structure WellFormed (product : Product) : Prop where
  find_iff {state : StateId} {location : LocationId} {handle : ProductStateId} :
    product.find? state location = some handle ↔
      ∃ entry, product.state? handle = some entry ∧ entry.state = state ∧
        entry.location = location
  out_valid {state : ProductStateId} {entry : ProductState} {handle : ProductTransitionId} :
    product.state? state = some entry → handle ∈ entry.out →
      ∃ transition, product.transition? handle = some transition ∧ transition.source = state ∧
        ∃ target, product.state? transition.target = some target

theorem mem_outgoing {product : Product} {state : ProductStateId}
    {handle : ProductTransitionId} {transition : ProductTransition} :
    (handle, transition) ∈ product.outgoing state ↔
      handle ∈ product.out state ∧ product.transition? handle = some transition := by
  simp only [outgoing, List.mem_filterMap, Option.map_eq_some_iff, Prod.mk.injEq]
  constructor
  · rintro ⟨other, member, found, present, rfl, rfl⟩
    exact ⟨member, present⟩
  · rintro ⟨member, present⟩
    exact ⟨handle, member, transition, present, rfl, rfl⟩

theorem mem_out {product : Product} {state : ProductStateId} {handle : ProductTransitionId} :
    handle ∈ product.out state ↔
      ∃ entry, product.state? state = some entry ∧ handle ∈ entry.out := by
  unfold out
  cases product.state? state <;> simp

theorem point_of_state? {product : Product} {state : ProductStateId} {entry : ProductState}
    (present : product.state? state = some entry) :
    product.point state = (entry.state, entry.location) := by
  simp [point, systemState, location, present]

/-- A transition of the arena, seen from its source. -/
theorem WellFormed.outgoing_valid {product : Product} (wellFormed : product.WellFormed)
    {state : ProductStateId} {handle : ProductTransitionId} {transition : ProductTransition}
    (member : (handle, transition) ∈ product.outgoing state) :
    transition.source = state ∧ ∃ target, product.state? transition.target = some target := by
  obtain ⟨memberOut, found⟩ := mem_outgoing.1 member
  obtain ⟨entry, present, memberEntry⟩ := mem_out.1 memberOut
  obtain ⟨other, foundOther, source, target⟩ := wellFormed.out_valid present memberEntry
  rw [found] at foundOther
  cases foundOther
  exact ⟨source, target⟩

theorem WellFormed.linked_valid {product : Product} (wellFormed : product.WellFormed)
    {source target : ProductStateId} (linked : product.Linked source target) :
    ∃ entry, product.state? target = some entry := by
  obtain ⟨handle, transition, member, rfl⟩ := linked
  exact (wellFormed.outgoing_valid member).2

/-- Two product states with the same pair are the same. -/
theorem WellFormed.point_injective {product : Product} (wellFormed : product.WellFormed)
    {left right : ProductStateId} {leftEntry rightEntry : ProductState}
    (leftPresent : product.state? left = some leftEntry)
    (rightPresent : product.state? right = some rightEntry)
    (same : product.point left = product.point right) : left = right := by
  rw [point_of_state? leftPresent, point_of_state? rightPresent, Prod.mk.injEq] at same
  have leftFound : product.find? leftEntry.state leftEntry.location = some left :=
    wellFormed.find_iff.2 ⟨leftEntry, leftPresent, rfl, rfl⟩
  have rightFound : product.find? leftEntry.state leftEntry.location = some right :=
    wellFormed.find_iff.2 ⟨rightEntry, rightPresent, same.1.symm, same.2.symm⟩
  rw [leftFound] at rightFound
  exact Option.some.inj rightFound

/-- The steps of a product state are the pairs behind its transitions. -/
theorem mem_steps {product : Product} {state : ProductStateId} {step : ProductStep} :
    step ∈ product.steps state ↔
      ∃ handle transition, (handle, transition) ∈ product.outgoing state ∧
        transition.via = step.via ∧
        product.point transition.target = (step.state, step.location) := by
  obtain ⟨via, target, location⟩ := step
  simp only [steps, stepOf, point, List.mem_map, Prod.exists, ProductStep.mk.injEq,
    Prod.mk.injEq]

/-! ## Changes that keep the shape -/

/-- Arenas that differ at most in colours and marks. -/
structure SameShape (old new : Product) : Prop where
  transition? : new.transition? = old.transition?
  find? : new.find? = old.find?
  entry (state : ProductStateId) :
    (new.state? state).map (fun entry => (entry.state, entry.location, entry.out)) =
      (old.state? state).map fun entry => (entry.state, entry.location, entry.out)

namespace SameShape

variable {old new : Product}

theorem refl (product : Product) : product.SameShape product :=
  ⟨rfl, rfl, fun _ => rfl⟩

theorem trans {third : Product} (before : old.SameShape new) (after : new.SameShape third) :
    old.SameShape third :=
  ⟨after.transition?.trans before.transition?, after.find?.trans before.find?,
    fun state => (after.entry state).trans (before.entry state)⟩

theorem symm (same : old.SameShape new) : new.SameShape old :=
  ⟨same.transition?.symm, same.find?.symm, fun state => (same.entry state).symm⟩

theorem state? (same : old.SameShape new) {state : ProductStateId} {entry : ProductState}
    (present : old.state? state = some entry) :
    ∃ after, new.state? state = some after ∧ after.state = entry.state ∧
      after.location = entry.location ∧ after.out = entry.out := by
  have equal := same.entry state
  rw [present, Option.map_some, Option.map_eq_some_iff] at equal
  obtain ⟨after, presentAfter, fields⟩ := equal
  simp only [Prod.mk.injEq] at fields
  exact ⟨after, presentAfter, fields⟩

theorem point (same : old.SameShape new) : new.point = old.point := by
  funext state
  have equal := same.entry state
  unfold Product.point Product.systemState Product.location
  cases before : old.state? state <;> cases after : new.state? state <;>
    simp_all

theorem systemState (same : old.SameShape new) : new.systemState = old.systemState :=
  funext fun state => congrArg Prod.fst (congrFun same.point state)

theorem location (same : old.SameShape new) : new.location = old.location :=
  funext fun state => congrArg Prod.snd (congrFun same.point state)

theorem out (same : old.SameShape new) : new.out = old.out := by
  funext state
  have equal := same.entry state
  unfold Product.out
  cases before : old.state? state <;> cases after : new.state? state <;>
    simp_all

theorem outgoing (same : old.SameShape new) : new.outgoing = old.outgoing := by
  funext state
  simp only [Product.outgoing, same.out, same.transition?]

theorem linked (same : old.SameShape new) : new.Linked = old.Linked := by
  funext source target
  simp only [Linked, same.outgoing]

theorem steps (same : old.SameShape new) : new.steps = old.steps := by
  funext state
  have sameStep : new.stepOf = old.stepOf := by
    funext transition
    rw [stepOf, same.systemState, same.location, stepOf]
  simp only [Product.steps, same.outgoing, sameStep]

theorem wellFormed (same : old.SameShape new) (wellFormed : old.WellFormed) :
    new.WellFormed where
  find_iff := by
    intro state location handle
    rw [same.find?, wellFormed.find_iff]
    constructor
    · rintro ⟨entry, present, rfl, rfl⟩
      obtain ⟨after, presentAfter, sameState, sameLocation, _⟩ := same.state? present
      exact ⟨after, presentAfter, sameState, sameLocation⟩
    · rintro ⟨entry, present, rfl, rfl⟩
      obtain ⟨before, presentBefore, sameState, sameLocation, _⟩ := same.symm.state? present
      exact ⟨before, presentBefore, sameState, sameLocation⟩
  out_valid := by
    intro state entry handle present member
    obtain ⟨before, presentBefore, _, _, sameOut⟩ := same.symm.state? present
    obtain ⟨transition, found, source, target, targetPresent⟩ :=
      wellFormed.out_valid presentBefore (sameOut ▸ member)
    obtain ⟨targetAfter, presentAfter, _⟩ := same.state? targetPresent
    exact ⟨transition, by rw [same.transition?, found], source, targetAfter, presentAfter⟩

end SameShape

@[simp] theorem state?_modify (product : Product) (state other : ProductStateId)
    (change : ProductState → ProductState) :
    (product.modify state change).state? other =
      if state = other then (product.state? other).map change else product.state? other := by
  obtain ⟨position⟩ := state
  obtain ⟨otherPosition⟩ := other
  simp [modify, Product.state?, Array.getElem?_modify]

theorem sameShape_modify (product : Product) (state : ProductStateId)
    {change : ProductState → ProductState}
    (keeps : ∀ entry, ((change entry).state, (change entry).location, (change entry).out) =
      (entry.state, entry.location, entry.out)) :
    product.SameShape (product.modify state change) where
  transition? := rfl
  find? := rfl
  entry := by
    intro other
    rw [state?_modify]
    split
    · cases product.state? other <;> simp [keeps]
    · rfl

theorem present_of_colour {product : Product} {state : ProductStateId}
    (painted : product.colour state ≠ .unpainted) :
    ∃ entry, product.state? state = some entry := by
  unfold colour at painted
  cases present : product.state? state with
  | none => simp [present] at painted
  | some entry => exact ⟨entry, rfl⟩

theorem colour_modify {product : Product} {state : ProductStateId} {entry : ProductState}
    (present : product.state? state = some entry) (change : ProductState → ProductState)
    (other : ProductStateId) :
    (product.modify state change).colour other =
      if other = state then (change entry).colour else product.colour other := by
  unfold colour
  rw [state?_modify]
  by_cases same : other = state
  · subst same
    simp [present]
  · rw [if_neg (Ne.symm same), if_neg same]

theorem colour_modify_of_keeps (product : Product) (state : ProductStateId)
    {change : ProductState → ProductState} (keeps : ∀ entry, (change entry).colour = entry.colour) :
    (product.modify state change).colour = product.colour := by
  funext other
  unfold colour
  rw [state?_modify]
  split
  · cases product.state? other <;> simp [keeps]
  · rfl

theorem isClosed_modify (product : Product) (state : ProductStateId)
    {change : ProductState → ProductState} (keeps : ∀ entry, (change entry).closed = entry.closed) :
    (product.modify state change).isClosed = product.isClosed := by
  funext other
  unfold isClosed
  rw [state?_modify]
  split
  · cases product.state? other <;> simp [keeps]
  · rfl

theorem isPocket_modify (product : Product) (state : ProductStateId)
    {change : ProductState → ProductState} (keeps : ∀ entry, (change entry).pocket = entry.pocket) :
    (product.modify state change).isPocket = product.isPocket := by
  funext other
  unfold isPocket
  rw [state?_modify]
  split
  · cases product.state? other <;> simp [keeps]
  · rfl

/-- Marking a state as a pocket changes nothing else. -/
theorem mark_spec {product : Product} {state : ProductStateId} {entry : ProductState}
    (present : product.state? state = some entry) (marks : Bool) :
    ∃ after, (if marks then product.modify state ({ · with pocket := true }) else product) = after ∧
      product.SameShape after ∧ after.colour = product.colour ∧
      after.isClosed = product.isClosed ∧
      ∀ other, after.isPocket other = true ↔
        product.isPocket other = true ∨ (other = state ∧ marks = true) := by
  cases marks with
  | false => exact ⟨product, rfl, .refl product, rfl, rfl, by simp⟩
  | true =>
      refine ⟨_, rfl, sameShape_modify _ _ fun _ => rfl, colour_modify_of_keeps _ _ fun _ => rfl,
        isClosed_modify _ _ fun _ => rfl, fun other => ?_⟩
      unfold isPocket
      simp only [if_true, state?_modify]
      by_cases same : state = other
      · subst same
        simp [present]
      · simp [same, Ne.symm same]

/-- Closing a state and painting it changes nothing else. -/
theorem close_spec {product : Product} {state : ProductStateId} {entry : ProductState}
    (present : product.state? state = some entry) (paint : Colour) :
    ∃ after, product.modify state ({ · with closed := true, colour := paint }) = after ∧
      product.SameShape after ∧
      (∀ other, after.colour other = if other = state then paint else product.colour other) ∧
      ∀ other, after.isClosed other = true ↔ product.isClosed other = true ∨ other = state := by
  refine ⟨_, rfl, sameShape_modify _ _ fun _ => rfl, colour_modify present _, fun other => ?_⟩
  unfold isClosed
  rw [state?_modify]
  by_cases same : state = other
  · subst same
    simp [present]
  · simp [same, Ne.symm same]

/-! ## Adding steps -/

/-- What adding transitions from `source` keeps: all but the outgoing
transitions of `source` and room for new, untouched states. -/
structure Extends (source : ProductStateId) (old new : Product) : Prop where
  kept {state : ProductStateId} {entry : ProductState} :
    old.state? state = some entry →
      ∃ out, new.state? state = some { entry with out := out } ∧
        (state ≠ source → out = entry.out)
  added {state : ProductStateId} {entry : ProductState} :
    new.state? state = some entry → old.state? state = none →
      entry.colour = .unpainted ∧ entry.closed = false ∧ entry.pocket = false ∧ entry.out = []
  transition {handle : ProductTransitionId} {transition : ProductTransition} :
    old.transition? handle = some transition → new.transition? handle = some transition

theorem Extends.refl (source : ProductStateId) (product : Product) :
    Extends source product product where
  kept {state entry} present := ⟨entry.out, present, fun _ => rfl⟩
  added present absent := by
    rw [absent] at present
    cases present
  transition := id

theorem Extends.trans {source : ProductStateId} {first second third : Product}
    (before : Extends source first second) (after : Extends source second third)
    (known : ∃ entry, first.state? source = some entry) : Extends source first third where
  kept := by
    intro state entry present
    obtain ⟨out, presentSecond, sameOut⟩ := before.kept present
    obtain ⟨outThird, presentThird, sameOutThird⟩ := after.kept presentSecond
    exact ⟨outThird, presentThird, fun other => (sameOutThird other).trans (sameOut other)⟩
  added := by
    intro state entry present absent
    cases middle : second.state? state with
    | none => exact after.added present middle
    | some middleEntry =>
        obtain ⟨out, presentThird, sameOut⟩ := after.kept middle
        rw [present] at presentThird
        cases presentThird
        obtain ⟨colour, closed, pocket, nothing⟩ := before.added middle absent
        have other : state ≠ source := by
          rintro rfl
          obtain ⟨knownEntry, knownPresent⟩ := known
          rw [absent] at knownPresent
          cases knownPresent
        exact ⟨colour, closed, pocket, (sameOut other).trans nothing⟩
  transition present := after.transition (before.transition present)

namespace Extends

variable {source : ProductStateId} {old new : Product}

/-- What does not depend on the transitions of a state, and is blank in a new
one, is as before. -/
theorem field {Value : Type} (extends_ : Extends source old new) (field : ProductState → Value)
    (blank : Value) (ignores : ∀ entry out, field { entry with out := out } = field entry)
    (untouched : ∀ entry, entry.colour = .unpainted → entry.closed = false →
      entry.pocket = false → field entry = blank) (state : ProductStateId) :
    ((new.state? state).map field).getD blank = ((old.state? state).map field).getD blank := by
  cases before : old.state? state with
  | some entry =>
      obtain ⟨out, present, _⟩ := extends_.kept before
      simp [present, ignores]
  | none =>
      cases after : new.state? state with
      | none => rfl
      | some entry =>
          obtain ⟨colour, closed, pocket, _⟩ := extends_.added after before
          simp [untouched entry colour closed pocket]

theorem colour (extends_ : Extends source old new) : new.colour = old.colour :=
  funext (extends_.field (·.colour) .unpainted (fun _ _ => rfl) fun _ unpainted _ _ => unpainted)

theorem isClosed (extends_ : Extends source old new) : new.isClosed = old.isClosed := by
  funext state
  have same := extends_.field (·.closed) false (fun _ _ => rfl) (fun _ _ open_ _ => open_) state
  revert same
  unfold Product.isClosed
  cases old.state? state <;> cases new.state? state <;> simp

theorem isPocket (extends_ : Extends source old new) : new.isPocket = old.isPocket := by
  funext state
  have same := extends_.field (·.pocket) false (fun _ _ => rfl) (fun _ _ _ plain => plain) state
  revert same
  unfold Product.isPocket
  cases old.state? state <;> cases new.state? state <;> simp

theorem out_of_ne (extends_ : Extends source old new) {state : ProductStateId}
    (other : state ≠ source) : new.out state = old.out state := by
  unfold Product.out
  cases before : old.state? state with
  | some entry =>
      obtain ⟨out, present, sameOut⟩ := extends_.kept before
      simp [present, sameOut other]
  | none =>
      cases after : new.state? state with
      | none => rfl
      | some entry => simp [(extends_.added after before).2.2.2]

theorem point (extends_ : Extends source old new) {state : ProductStateId}
    {entry : ProductState} (present : old.state? state = some entry) :
    new.point state = old.point state := by
  obtain ⟨out, presentAfter, _⟩ := extends_.kept present
  rw [point_of_state? presentAfter, point_of_state? present]

/-- The transitions of another state are as before. -/
theorem outgoing_of_ne (extends_ : Extends source old new) (wellFormed : old.WellFormed)
    {state : ProductStateId} (other : state ≠ source) :
    new.outgoing state = old.outgoing state := by
  unfold Product.outgoing
  rw [extends_.out_of_ne other]
  refine List.filterMap_congr fun handle member => ?_
  obtain ⟨entry, present, memberEntry⟩ := mem_out.1 member
  obtain ⟨transition, found, _⟩ := wellFormed.out_valid present memberEntry
  rw [found, extends_.transition found]

theorem steps_of_ne (extends_ : Extends source old new) (wellFormed : old.WellFormed)
    {state : ProductStateId} (other : state ≠ source) : new.steps state = old.steps state := by
  unfold Product.steps
  rw [extends_.outgoing_of_ne wellFormed other]
  refine List.map_congr_left fun entry member => ?_
  obtain ⟨_, target, targetPresent⟩ := wellFormed.outgoing_valid member
  have samePoint := extends_.point targetPresent
  simp only [Product.point, Prod.mk.injEq] at samePoint
  simp only [stepOf, samePoint]

end Extends

theorem state?_next (product : Product) : product.state? ⟨product.states.size⟩ = none := by
  simp [state?]

theorem ne_next {product : Product} {state : ProductStateId} {entry : ProductState}
    (present : product.state? state = some entry) : state ≠ ⟨product.states.size⟩ := by
  rintro rfl
  rw [state?_next] at present
  cases present

section AddState

variable {product : Product} {state : StateId} {location : LocationId} {iteration : Nat}

theorem addState_of_find? {existing : ProductStateId}
    (found : product.find? state location = some existing) :
    product.addState state location iteration = ((existing, false), product) := by
  simp [addState, found]

@[simp] theorem transition?_addState :
    (product.addState state location iteration).2.transition? = product.transition? := by
  unfold addState
  split <;> rfl

variable (product state location iteration) in
theorem transitions_addState :
    (product.addState state location iteration).2.transitions = product.transitions := by
  unfold addState
  split <;> rfl

theorem addState_handle (unknown : product.find? state location = none) :
    (product.addState state location iteration).1 = (⟨product.states.size⟩, true) := by
  simp [addState, unknown]

theorem state?_addState (unknown : product.find? state location = none)
    (other : ProductStateId) :
    (product.addState state location iteration).2.state? other =
      if other = ⟨product.states.size⟩ then
        some { state := state, location := location, iteration := iteration }
      else product.state? other := by
  obtain ⟨position⟩ := other
  simp [addState, unknown, state?, Array.getElem?_push]

theorem find?_addState (unknown : product.find? state location = none) (other : StateId)
    (otherLocation : LocationId) :
    (product.addState state location iteration).2.find? other otherLocation =
      if state = other ∧ location = otherLocation then some ⟨product.states.size⟩
      else product.find? other otherLocation := by
  obtain ⟨position⟩ := state
  obtain ⟨otherPosition⟩ := other
  obtain ⟨place⟩ := location
  obtain ⟨otherPlace⟩ := otherLocation
  simp only [addState, unknown]
  simp [find?, Std.TreeMap.getElem?_insert, Std.LawfulEqCmp.compare_eq_iff_eq]

theorem state?_addState_of_some {other : ProductStateId} {entry : ProductState}
    (present : product.state? other = some entry) :
    (product.addState state location iteration).2.state? other = some entry := by
  cases found : product.find? state location with
  | some existing => rw [addState_of_find? found, present]
  | none => rw [state?_addState found, if_neg (ne_next present), present]

/-- A state that adding a pair brought is the one asked for, and blank. -/
theorem addState_cases {other : ProductStateId} {entry : ProductState}
    (present : (product.addState state location iteration).2.state? other = some entry) :
    product.state? other = some entry ∨
      ((product.addState state location iteration).1 = (other, true) ∧
        product.state? other = none ∧
        entry = { state := state, location := location, iteration := iteration }) := by
  cases found : product.find? state location with
  | some existing =>
      rw [addState_of_find? found] at present
      exact .inl present
  | none =>
      rw [state?_addState found] at present
      split at present
      · rename_i new
        subst new
        cases present
        exact .inr ⟨addState_handle found, state?_next product, rfl⟩
      · exact .inl present

variable (state location iteration) in
theorem WellFormed.addState_target (wellFormed : product.WellFormed) :
    ∃ entry, (product.addState state location iteration).2.state?
        (product.addState state location iteration).1.1 = some entry ∧
      entry.state = state ∧ entry.location = location := by
  cases found : product.find? state location with
  | some existing =>
      rw [addState_of_find? found]
      exact wellFormed.find_iff.1 found
  | none =>
      rw [addState_handle found, state?_addState found, if_pos rfl]
      exact ⟨_, rfl, rfl, rfl⟩

theorem wellFormed_empty : ({} : Product).WellFormed where
  find_iff := by simp [find?, state?]
  out_valid present := by simp [state?] at present

/-- A state that is called new was not there before. -/
theorem addState_fresh (fresh : (product.addState state location iteration).1.2 = true) :
    product.state? (product.addState state location iteration).1.1 = none := by
  cases found : product.find? state location with
  | some existing =>
      rw [addState_of_find? found] at fresh
      cases fresh
  | none =>
      rw [addState_handle found]
      exact state?_next product

theorem WellFormed.addState (wellFormed : product.WellFormed) :
    (product.addState state location iteration).2.WellFormed := by
  cases found : product.find? state location with
  | some existing =>
      rw [addState_of_find? found]
      exact wellFormed
  | none =>
      constructor
      · intro other otherLocation handle
        rw [find?_addState found, state?_addState found]
        by_cases same : state = other ∧ location = otherLocation
        · obtain ⟨rfl, rfl⟩ := same
          rw [if_pos ⟨rfl, rfl⟩, Option.some.injEq]
          constructor
          · rintro rfl
            exact ⟨_, if_pos rfl, rfl, rfl⟩
          · rintro ⟨entry, present, sameState, sameLocation⟩
            split at present
            · rename_i new
              exact new.symm
            · have known := wellFormed.find_iff.2 ⟨entry, present, sameState, sameLocation⟩
              rw [found] at known
              cases known
        · rw [if_neg same, wellFormed.find_iff]
          constructor
          · rintro ⟨entry, present, fields⟩
            exact ⟨entry, by rw [if_neg (ne_next present), present], fields⟩
          · rintro ⟨entry, present, sameState, sameLocation⟩
            split at present
            · cases present
              exact absurd ⟨sameState, sameLocation⟩ same
            · exact ⟨entry, present, sameState, sameLocation⟩
      · intro other entry handle present member
        rcases addState_cases present with before | ⟨_, _, blank⟩
        · obtain ⟨transition, found, source, target, targetPresent⟩ :=
            wellFormed.out_valid before member
          exact ⟨transition, by rw [transition?_addState, found], source, target,
            state?_addState_of_some targetPresent⟩
        · subst blank
          cases member

end AddState

section AddSuccessor

variable {product : Product} {source : ProductStateId} {via : Option TransitionId}
  {state : StateId} {location : LocationId} {iteration : Nat}

theorem transition?_addSuccessor (handle : ProductTransitionId) :
    (product.addSuccessor source via state location iteration).2.transition? handle =
      if handle = ⟨product.transitions.size⟩ then
        some ⟨source, via, (product.addState state location iteration).1.1⟩
      else product.transition? handle := by
  obtain ⟨position⟩ := handle
  unfold addSuccessor
  cases added : product.addState state location iteration with
  | mk entry extended =>
      obtain ⟨target, fresh⟩ := entry
      have same : extended.transitions = product.transitions := by
        simpa [added] using transitions_addState product state location iteration
      cases fresh <;> simp [modify, transition?, Array.getElem?_push, same]

theorem find?_addSuccessor :
    (product.addSuccessor source via state location iteration).2.find? =
      (product.addState state location iteration).2.find? := by
  unfold addSuccessor
  cases product.addState state location iteration with
  | mk entry extended =>
      obtain ⟨target, fresh⟩ := entry
      cases fresh <;> rfl

/-- A successor changes the transitions of its source and the origin of a
target that it brought. -/
theorem state?_addSuccessor (other : ProductStateId) :
    (product.addSuccessor source via state location iteration).2.state? other =
      ((product.addState state location iteration).2.state? other).map fun entry =>
        { entry with
          out := if source = other then entry.out ++ [⟨product.transitions.size⟩] else entry.out
          origin :=
            if (product.addState state location iteration).1 = (other, true) then
              some ⟨product.transitions.size⟩
            else entry.origin } := by
  unfold addSuccessor
  cases added : product.addState state location iteration with
  | mk entry extended =>
      obtain ⟨target, fresh⟩ := entry
      have same : extended.transitions = product.transitions := by
        simpa [added] using transitions_addState product state location iteration
      have unchanged (transitions : Array ProductTransition) :
          state? { extended with transitions := transitions } other = extended.state? other := rfl
      cases fresh <;> by_cases atSource : source = other <;> by_cases atTarget : target = other <;>
        cases present : extended.state? other <;>
          simp [unchanged, present, atSource, atTarget, same]

variable (via state location iteration) in
theorem extends_addSuccessor (known : ∃ entry, product.state? source = some entry) :
    Extends source product (product.addSuccessor source via state location iteration).2 where
  kept := by
    intro other entry present
    have notNew : (product.addState state location iteration).1 ≠ (other, true) := by
      intro new
      have fresh : (product.addState state location iteration).1.2 = true := by rw [new]
      have absent := addState_fresh fresh
      rw [new, present] at absent
      cases absent
    rw [state?_addSuccessor, state?_addState_of_some present]
    simp only [Option.map_some, if_neg notNew]
    refine ⟨_, rfl, ?_⟩
    intro different
    rw [if_neg (Ne.symm different)]
  added := by
    intro other entry present absent
    rw [state?_addSuccessor] at present
    obtain ⟨before, presentBefore, rfl⟩ := Option.map_eq_some_iff.1 present
    rcases addState_cases presentBefore with old | ⟨_, _, blank⟩
    · rw [absent] at old
      cases old
    · have different : source ≠ other := by
        rintro rfl
        obtain ⟨knownEntry, knownPresent⟩ := known
        rw [absent] at knownPresent
        cases knownPresent
      subst blank
      simp [different]
  transition := by
    intro handle transition present
    have different : handle ≠ ⟨product.transitions.size⟩ := by
      rintro rfl
      simp [transition?] at present
    rw [transition?_addSuccessor, if_neg different, present]

/-- A successor is listed last at its source, and nowhere else. -/
theorem out_addSuccessor (known : ∃ entry, product.state? source = some entry)
    (other : ProductStateId) :
    (product.addSuccessor source via state location iteration).2.out other =
      if other = source then product.out other ++ [⟨product.transitions.size⟩]
      else product.out other := by
  by_cases isSource : other = source
  · subst isSource
    obtain ⟨entry, present⟩ := known
    simp [Product.out, state?_addSuccessor, state?_addState_of_some present, present]
  · rw [if_neg isSource]
    exact (extends_addSuccessor via state location iteration known).out_of_ne isSource

theorem WellFormed.addSuccessor (wellFormed : product.WellFormed)
    (known : ∃ entry, product.state? source = some entry) :
    (product.addSuccessor source via state location iteration).2.WellFormed := by
  have extended := extends_addSuccessor via state location iteration known
  constructor
  · intro other otherLocation handle
    rw [find?_addSuccessor, wellFormed.addState.find_iff, state?_addSuccessor]
    constructor
    · rintro ⟨entry, present, fields⟩
      rw [present]
      exact ⟨_, rfl, fields⟩
    · rintro ⟨entry, present, fields⟩
      obtain ⟨before, presentBefore, rfl⟩ := Option.map_eq_some_iff.1 present
      exact ⟨before, presentBefore, fields⟩
  · intro other entry handle present member
    have old : ∀ {before : ProductState}, product.state? other = some before →
        handle ∈ before.out → ∃ transition,
          (product.addSuccessor source via state location iteration).2.transition? handle =
              some transition ∧ transition.source = other ∧
            ∃ target, (product.addSuccessor source via state location iteration).2.state?
              transition.target = some target := by
      intro before presentBefore memberBefore
      obtain ⟨transition, found, origin, target, targetPresent⟩ :=
        wellFormed.out_valid presentBefore memberBefore
      obtain ⟨out, targetAfter, _⟩ := extended.kept targetPresent
      exact ⟨transition, extended.transition found, origin, _, targetAfter⟩
    rw [state?_addSuccessor] at present
    obtain ⟨before, presentBefore, rfl⟩ := Option.map_eq_some_iff.1 present
    rcases addState_cases presentBefore with oldPresent | ⟨_, absent, blank⟩
    · by_cases atSource : source = other
      · simp only [if_pos atSource, List.mem_append, List.mem_singleton] at member
        rcases member with memberBefore | rfl
        · exact old oldPresent memberBefore
        · obtain ⟨target, targetPresent, _⟩ :=
            wellFormed.addState_target state location iteration
          refine ⟨_, by rw [transition?_addSuccessor, if_pos rfl], atSource, ?_⟩
          rw [state?_addSuccessor, targetPresent]
          exact ⟨_, rfl⟩
      · simp only [if_neg atSource] at member
        exact old oldPresent member
    · have different : source ≠ other := by
        rintro rfl
        obtain ⟨knownEntry, knownPresent⟩ := known
        rw [absent] at knownPresent
        cases knownPresent
      simp [different, blank] at member

/-- A successor is the last step of its source. -/
theorem WellFormed.steps_addSuccessor (wellFormed : product.WellFormed)
    (known : ∃ entry, product.state? source = some entry) :
    (product.addSuccessor source via state location iteration).2.steps source =
      product.steps source ++ [⟨via, state, location⟩] := by
  have extended := extends_addSuccessor via state location iteration known
  obtain ⟨target, targetPresent, targetState, targetLocation⟩ :=
    wellFormed.addState_target state location iteration
  have oldOutgoing :
      (product.out source).filterMap (fun handle =>
        ((product.addSuccessor source via state location iteration).2.transition? handle).map
          fun transition => (handle, transition)) = product.outgoing source := by
    refine List.filterMap_congr fun handle member => ?_
    obtain ⟨entry, present, memberEntry⟩ := mem_out.1 member
    obtain ⟨transition, found, _⟩ := wellFormed.out_valid present memberEntry
    rw [found, extended.transition found]
  have oldSteps : (product.outgoing source).map (fun entry =>
      (product.addSuccessor source via state location iteration).2.stepOf entry.2) =
        product.steps source := by
    refine List.map_congr_left fun entry member => ?_
    obtain ⟨_, targetEntry, present⟩ := wellFormed.outgoing_valid member
    have samePoint := extended.point present
    simp only [Product.point, Prod.mk.injEq] at samePoint
    simp only [stepOf, samePoint]
  have newStep : (product.addSuccessor source via state location iteration).2.stepOf
      ⟨source, via, (product.addState state location iteration).1.1⟩ =
        ⟨via, state, location⟩ := by
    simp [stepOf, systemState, Product.location, state?_addSuccessor, targetPresent, targetState,
      targetLocation]
  rw [Product.steps, outgoing, out_addSuccessor known, if_pos rfl, List.filterMap_append,
    List.map_append, oldOutgoing, oldSteps]
  simp [transition?_addSuccessor, newStep]

end AddSuccessor

/-- Adding steps to a product state gives it exactly these, after those that it
had, and leaves all else as it was. -/
theorem WellFormed.addSteps {product : Product} (wellFormed : product.WellFormed)
    {source : ProductStateId} (known : ∃ entry, product.state? source = some entry)
    (iteration : Nat) (added : List ProductStep) :
    (product.addSteps source iteration added).WellFormed ∧
      Extends source product (product.addSteps source iteration added) ∧
      (product.addSteps source iteration added).steps source =
        product.steps source ++ added := by
  induction added generalizing product with
  | nil => exact ⟨wellFormed, .refl source product, by simp [Product.addSteps]⟩
  | cons step rest inductionHypothesis =>
      have extended := extends_addSuccessor step.via step.state step.location iteration known
      have knownAfter : ∃ entry, (product.addSuccessor source step.via step.state step.location
          iteration).2.state? source = some entry := by
        obtain ⟨entry, present⟩ := known
        obtain ⟨out, presentAfter, _⟩ := extended.kept present
        exact ⟨_, presentAfter⟩
      obtain ⟨restWellFormed, restExtends, restSteps⟩ :=
        inductionHypothesis (wellFormed.addSuccessor known) knownAfter
      refine ⟨restWellFormed, extended.trans restExtends known, ?_⟩
      change ((product.addSuccessor source step.via step.state step.location iteration).2.addSteps
        source iteration rest).steps source = _
      rw [restSteps, wellFormed.steps_addSuccessor known, List.append_assoc]
      rfl

/-- A state that adding steps brought has the pair of one of them. -/
theorem addSteps_pair {product : Product} {source state : ProductStateId} {iteration : Nat}
    {added : List ProductStep} {entry : ProductState}
    (present : (product.addSteps source iteration added).state? state = some entry) :
    (∃ before, product.state? state = some before ∧ before.state = entry.state ∧
      before.location = entry.location) ∨
      ∃ step ∈ added, step.state = entry.state ∧ step.location = entry.location := by
  induction added generalizing product with
  | nil => exact .inl ⟨entry, present, rfl, rfl⟩
  | cons step rest inductionHypothesis =>
      rcases inductionHypothesis present with ⟨middle, found, pair⟩ | ⟨other, member, pair⟩
      · rw [state?_addSuccessor, Option.map_eq_some_iff] at found
        obtain ⟨before, foundBefore, rfl⟩ := found
        rcases addState_cases foundBefore with old | ⟨_, _, rfl⟩
        · exact .inl ⟨before, old, pair⟩
        · exact .inr ⟨step, by simp, pair⟩
      · exact .inr ⟨other, List.mem_cons_of_mem step member, pair⟩

/-! ## Growth of arenas of the same shape -/

namespace SameShape

variable {old new : Product}

theorem state?_eq_none (same : old.SameShape new) (state : ProductStateId) :
    new.state? state = none ↔ old.state? state = none := by
  have equal := same.entry state
  rw [← Option.map_eq_none_iff, equal, Option.map_eq_none_iff]

theorem states_size (same : old.SameShape new) : new.states.size = old.states.size := by
  have bound : ∀ {first second : Product}, first.SameShape second →
      second.states.size ≤ first.states.size := by
    intro first second shape
    exact Array.getElem?_eq_none_iff.1 ((shape.state?_eq_none _).2 (state?_next first))
  exact Nat.le_antisymm (bound same) (bound same.symm)

theorem transitions_size (same : old.SameShape new) :
    new.transitions.size = old.transitions.size := by
  have bound : ∀ {first second : Product}, first.SameShape second →
      second.transitions.size ≤ first.transitions.size := by
    intro first second shape
    have absent : first.transition? ⟨first.transitions.size⟩ = none := by simp [Product.transition?]
    rw [← shape.transition?] at absent
    exact Array.getElem?_eq_none_iff.1 absent
  exact Nat.le_antisymm (bound same) (bound same.symm)

theorem addState (same : old.SameShape new) (state : StateId) (location : LocationId)
    (iteration : Nat) :
    (new.addState state location iteration).1 = (old.addState state location iteration).1 ∧
      (old.addState state location iteration).2.SameShape
        (new.addState state location iteration).2 := by
  cases found : old.find? state location with
  | some existing =>
      have foundNew : new.find? state location = some existing := by rw [same.find?, found]
      rw [addState_of_find? found, addState_of_find? foundNew]
      exact ⟨rfl, same⟩
  | none =>
      have foundNew : new.find? state location = none := by rw [same.find?, found]
      refine ⟨by rw [addState_handle found, addState_handle foundNew, same.states_size], ?_⟩
      constructor
      · simp only [transition?_addState, same.transition?]
      · funext other place
        rw [find?_addState found, find?_addState foundNew, same.states_size, same.find?]
      · intro other
        rw [state?_addState found, state?_addState foundNew, same.states_size]
        split
        · rfl
        · exact same.entry other

theorem addSuccessor (same : old.SameShape new) (source : ProductStateId)
    (via : Option TransitionId) (state : StateId) (location : LocationId) (iteration : Nat) :
    (old.addSuccessor source via state location iteration).2.SameShape
      (new.addSuccessor source via state location iteration).2 := by
  obtain ⟨sameHandle, added⟩ := same.addState state location iteration
  constructor
  · funext handle
    rw [transition?_addSuccessor, transition?_addSuccessor, same.transitions_size, sameHandle,
      same.transition?]
  · rw [find?_addSuccessor, find?_addSuccessor, added.find?]
  · intro other
    have entry := added.entry other
    rw [state?_addSuccessor, state?_addSuccessor, same.transitions_size]
    simp only [Option.map_map, Function.comp_def]
    cases before : (old.addState state location iteration).2.state? other <;>
      cases after : (new.addState state location iteration).2.state? other <;>
        simp_all

/-- The same steps keep arenas of the same shape alike. -/
theorem addSteps (same : old.SameShape new) (source : ProductStateId) (iteration : Nat)
    (added : List ProductStep) :
    (old.addSteps source iteration added).SameShape (new.addSteps source iteration added) := by
  induction added generalizing old new with
  | nil => exact same
  | cons step rest inductionHypothesis =>
      exact inductionHypothesis
        (same.addSuccessor source step.via step.state step.location iteration)

end SameShape

end Product

end OnTheFly
