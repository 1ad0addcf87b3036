import Mathlib.Data.List.DropRight
import Mathlib.Data.List.Nodup
import Mathlib.Logic.Relation
import OnTheFly.Proofs.Product.Arena

/-!
Contract: the arena as a record of the calls made on it.

Owns: sequences of calls, the pair and the transition that each of them asks
for, where a product state comes from, and that an arena holds what was asked
for since it was last cleared: every pair once, every transition at its source,
and at every state the transition that brought it.
Does not own: which calls a search makes.
-/

set_option autoImplicit false

namespace OnTheFly

namespace Product

/-! ## Calls -/

/-- A call that changes the arena. -/
inductive Call where
  | addState (state : StateId) (location : LocationId) (iteration : Nat)
  | addSuccessor (source : ProductStateId) (via : Option TransitionId) (state : StateId)
      (location : LocationId) (iteration : Nat)
  | clear
deriving DecidableEq, Repr

/-- The pair that a call asks for. -/
def Call.point? : Call → Option (StateId × LocationId)
  | .addState state location _ => some (state, location)
  | .addSuccessor _ _ state location _ => some (state, location)
  | .clear => none

/-- A transition as it is asked for: its source, its system transition and the
pair to which it leads. -/
abbrev Link := ProductStateId × Option TransitionId × StateId × LocationId

def Call.link? : Call → Option Link
  | .addSuccessor source via state location _ => some (source, via, state, location)
  | _ => none

/-- Whether a call may be made: a transition starts at a state that is there. -/
def Call.Permitted (product : Product) : Call → Prop
  | .addSuccessor source _ _ _ _ => ∃ entry, product.state? source = some entry
  | _ => True

/-- The arena after a call. -/
def perform (product : Product) : Call → Product
  | .addState state location iteration => (product.addState state location iteration).2
  | .addSuccessor source via state location iteration =>
      (product.addSuccessor source via state location iteration).2
  | .clear => product.clear

/-- What calls make of an empty arena. -/
inductive Built : List Call → Product → Prop where
  | empty : Built [] {}
  | called {calls : List Call} {product : Product} (call : Call) (before : Built calls product)
      (permitted : call.Permitted product) : Built (calls ++ [call]) (product.perform call)

/-- The calls since the arena was last cleared. -/
def sinceClear (calls : List Call) : List Call :=
  calls.rtakeWhile fun call => call ≠ .clear

/-- The call that is the first to ask for a pair. -/
def firstFor? (calls : List Call) (point : StateId × LocationId) : Option Call :=
  calls.find? fun call => call.point? = some point

/-! ## Where a product state comes from -/

/-- All product states in order of creation. -/
def stateIds (product : Product) : List ProductStateId :=
  (List.range product.states.size).map ProductStateId.mk

/-- All transitions in order of creation. -/
def transitionIds (product : Product) : List ProductTransitionId :=
  (List.range product.transitions.size).map ProductTransitionId.mk

def linkOf (product : Product) (transition : ProductTransition) : Link :=
  (transition.source, transition.via, product.point transition.target)

/-- Whether no older transition leads to the target of this one. -/
def FirstInto (product : Product) (handle : ProductTransitionId)
    (transition : ProductTransition) : Prop :=
  product.transition? handle = some transition ∧
    ∀ other rival, product.transition? other = some rival → rival.target = transition.target →
      handle.index ≤ other.index

/-- Where a product state comes from, by its entry. Its pair was first asked for
by itself or as a successor. In the second case the transition of that call is
the origin, and no older one leads to the state. -/
inductive Originates (calls : List Call) (product : Product) (state : ProductStateId)
    (entry : ProductState) : Prop where
  | added {iteration : Nat}
      (first : firstFor? calls (entry.state, entry.location) =
        some (.addState entry.state entry.location iteration))
      (origin : entry.origin = none)
  | reached {source : ProductStateId} {via : Option TransitionId} {iteration : Nat}
      {handle : ProductTransitionId}
      (first : firstFor? calls (entry.state, entry.location) =
        some (.addSuccessor source via entry.state entry.location iteration))
      (origin : entry.origin = some handle)
      (into : product.FirstInto handle ⟨source, via, state⟩)
      (older : source.index < state.index)

/-- The source of the transition that brought a product state. -/
def parent? (product : Product) (state : ProductStateId) : Option ProductStateId :=
  ((product.state? state).bind (·.origin)).bind fun handle =>
    (product.transition? handle).map (·.source)

/-- What an arena holds after the calls since it was last cleared. -/
structure Represents (calls : List Call) (product : Product) : Prop where
  find_iff (state : StateId) (location : LocationId) (handle : ProductStateId) :
    product.find? state location = some handle ↔
      ∃ entry, product.state? handle = some entry ∧ entry.state = state ∧
        entry.location = location
  /-- No pair occurs twice. -/
  once {first second : ProductStateId} {left right : ProductState} :
    product.state? first = some left → product.state? second = some right →
      left.state = right.state → left.location = right.location → first = second
  /-- The pairs are those that were asked for. -/
  asked (state : StateId) (location : LocationId) :
    (∃ handle, product.find? state location = some handle) ↔
      ∃ call ∈ calls, call.point? = some (state, location)
  /-- The transitions are those that were asked for, in order. -/
  links : product.transitions.toList.map product.linkOf = calls.filterMap Call.link?
  inside {handle : ProductTransitionId} {transition : ProductTransition} :
    product.transition? handle = some transition →
      (∃ entry, product.state? transition.source = some entry) ∧
        ∃ entry, product.state? transition.target = some entry
  /-- Every transition is listed at exactly one state, and once. -/
  partition : (product.stateIds.flatMap product.out).Perm product.transitionIds
  ascending (state : ProductStateId) :
    (product.out state).Pairwise fun first second => first.index < second.index
  /-- That state is its source. -/
  listed {state : ProductStateId} {handle : ProductTransitionId} :
    handle ∈ product.out state ↔
      ∃ transition, product.transition? handle = some transition ∧ transition.source = state
  origin {state : ProductStateId} {entry : ProductState} :
    product.state? state = some entry → Originates calls product state entry
  /-- The way back along the origins ends, at a state that was asked for by
  itself. -/
  rooted {state : ProductStateId} {entry : ProductState} : product.state? state = some entry →
    ∃ root rootEntry iteration,
      Relation.ReflTransGen (fun later earlier => product.parent? later = some earlier) state root ∧
      product.state? root = some rootEntry ∧ product.parent? root = none ∧
      firstFor? calls (rootEntry.state, rootEntry.location) =
        some (.addState rootEntry.state rootEntry.location iteration)

/-! ## One call -/

theorem mem_transitionIds {product : Product} {handle : ProductTransitionId} :
    handle ∈ product.transitionIds ↔
      ∃ transition, product.transition? handle = some transition := by
  obtain ⟨position⟩ := handle
  simp only [transitionIds, List.mem_map, List.mem_range, ProductTransitionId.mk.injEq,
    exists_eq_right, transition?]
  constructor
  · exact fun below => ⟨_, Array.getElem?_eq_getElem below⟩
  · rintro ⟨_, found⟩
    exact (Array.getElem?_eq_some_iff.1 found).1

theorem mem_stateIds {product : Product} {state : ProductStateId} :
    state ∈ product.stateIds ↔ ∃ entry, product.state? state = some entry := by
  obtain ⟨position⟩ := state
  simp only [stateIds, List.mem_map, List.mem_range, ProductStateId.mk.injEq, exists_eq_right,
    state?]
  constructor
  · exact fun below => ⟨_, Array.getElem?_eq_getElem below⟩
  · rintro ⟨_, found⟩
    exact (Array.getElem?_eq_some_iff.1 found).1

theorem firstFor?_concat {calls : List Call} {point : StateId × LocationId} {first : Call}
    (found : firstFor? calls point = some first) (call : Call) :
    firstFor? (calls ++ [call]) point = some first := by
  unfold firstFor? at found ⊢
  rw [List.find?_append, found, Option.some_or]

/-- Only a pair that is not stored gets a new state. -/
theorem find?_of_addState_fresh {product : Product} {state : StateId} {location : LocationId}
    {iteration : Nat} {target : ProductStateId}
    (new : (product.addState state location iteration).1 = (target, true)) :
    product.find? state location = none := by
  cases found : product.find? state location with
  | none => rfl
  | some existing =>
      rw [addState_of_find? found] at new
      cases new

theorem transitions_addSuccessor (product : Product) (source : ProductStateId)
    (via : Option TransitionId) (state : StateId) (location : LocationId) (iteration : Nat) :
    (product.addSuccessor source via state location iteration).2.transitions =
      product.transitions.push ⟨source, via, (product.addState state location iteration).1.1⟩ := by
  have same := transitions_addState product state location iteration
  unfold addSuccessor
  cases added : product.addState state location iteration with
  | mk entry extended =>
      obtain ⟨target, fresh⟩ := entry
      rw [added] at same
      change extended.transitions = product.transitions at same
      cases fresh <;> simp [modify, same]

/-- A call that asks for a pair nobody asked for before is the first one. -/
theorem firstFor?_new {calls : List Call} {point : StateId × LocationId} {call : Call}
    (never : ¬ ∃ earlier ∈ calls, earlier.point? = some point)
    (asks : call.point? = some point) : firstFor? (calls ++ [call]) point = some call := by
  have nothing : calls.find? (fun earlier => earlier.point? = some point) = none := by
    rw [List.find?_eq_none]
    intro earlier member same
    exact never ⟨earlier, member, by simpa using same⟩
  unfold firstFor?
  rw [List.find?_append, nothing, Option.none_or]
  simp [asks]

/-- More calls and more transitions do not change where a state comes from. -/
theorem Originates.kept {calls : List Call} {product later : Product} {state : ProductStateId}
    {entry after : ProductState} (originates : Originates calls product state entry)
    (call : Call) (sameState : after.state = entry.state)
    (sameLocation : after.location = entry.location) (sameOrigin : after.origin = entry.origin)
    (transitions : ∀ handle transition, product.transition? handle = some transition →
      later.transition? handle = some transition)
    (added : ∀ handle transition, later.transition? handle = some transition →
      product.transition? handle = some transition ∨ product.transitions.size ≤ handle.index) :
    Originates (calls ++ [call]) later state after := by
  cases originates with
  | added first origin =>
      rw [← sameState, ← sameLocation] at first
      exact .added (firstFor?_concat first call) (sameOrigin.trans origin)
  | @reached source via iteration handle first origin into older =>
      rw [← sameState, ← sameLocation] at first
      obtain ⟨found, earliest⟩ := into
      have inside : handle.index < product.transitions.size :=
        (Array.getElem?_eq_some_iff.1 found).1
      refine .reached (firstFor?_concat first call) (sameOrigin.trans origin)
        ⟨transitions _ _ found, ?_⟩ older
      intro other rival foundOther sameTarget
      rcases added other rival foundOther with before | new
      · exact earliest other rival before sameTarget
      · omega

/-- The invariant of an arena, from which all that it holds follows. -/
structure Arranged (calls : List Call) (product : Product) : Prop where
  wellFormed : product.WellFormed
  asked (state : StateId) (location : LocationId) :
    (∃ handle, product.find? state location = some handle) ↔
      ∃ call ∈ calls, call.point? = some (state, location)
  links : product.transitions.toList.map product.linkOf = calls.filterMap Call.link?
  out (state : ProductStateId) : product.out state = product.transitionIds.filter fun handle =>
    (product.transition? handle).any (·.source = state)
  origin {state : ProductStateId} {entry : ProductState} :
    product.state? state = some entry → Originates calls product state entry

theorem arranged_empty : Arranged [] {} where
  wellFormed := wellFormed_empty
  asked := by simp [find?]
  links := rfl
  out _ := rfl
  origin present := by simp [state?] at present

namespace Arranged

variable {calls : List Call} {product : Product}

theorem listed (arranged : Arranged calls product) {state : ProductStateId}
    {handle : ProductTransitionId} : handle ∈ product.out state ↔
      ∃ transition, product.transition? handle = some transition ∧ transition.source = state := by
  rw [arranged.out, List.mem_filter, mem_transitionIds]
  constructor
  · rintro ⟨⟨transition, found⟩, source⟩
    rw [found, Option.any_some, decide_eq_true_eq] at source
    exact ⟨transition, found, source⟩
  · rintro ⟨transition, found, source⟩
    exact ⟨⟨transition, found⟩, by simp [found, source]⟩

theorem inside (arranged : Arranged calls product) {handle : ProductTransitionId}
    {transition : ProductTransition} (found : product.transition? handle = some transition) :
    (∃ entry, product.state? transition.source = some entry) ∧
      ∃ entry, product.state? transition.target = some entry := by
  have member := arranged.listed.2 ⟨transition, found, rfl⟩
  obtain ⟨entry, present, memberEntry⟩ := mem_out.1 member
  obtain ⟨same, foundAgain, _, target⟩ := arranged.wellFormed.out_valid present memberEntry
  rw [found] at foundAgain
  cases foundAgain
  exact ⟨⟨entry, present⟩, target⟩

/-- A pair that is not stored has not been asked for. -/
theorem never_asked (arranged : Arranged calls product) {state : StateId} {location : LocationId}
    (unknown : product.find? state location = none) :
    ¬ ∃ call ∈ calls, call.point? = some (state, location) := by
  rw [← arranged.asked]
  rintro ⟨handle, found⟩
  rw [unknown] at found
  cases found

/-- The pairs of all targets stay, so the transitions lead where they led. -/
theorem links_kept (arranged : Arranged calls product) {later : Product}
    (kept : ∀ state entry, product.state? state = some entry →
      later.point state = product.point state) :
    product.transitions.toList.map later.linkOf = calls.filterMap Call.link? := by
  rw [← arranged.links]
  refine List.map_congr_left fun transition member => ?_
  obtain ⟨position, found⟩ := Array.mem_iff_getElem?.1 (Array.mem_toList_iff.1 member)
  obtain ⟨_, entry, present⟩ :=
    arranged.inside (show product.transition? ⟨position⟩ = some transition from found)
  rw [linkOf, linkOf, kept _ entry present]

section AddState

variable (state : StateId) (location : LocationId) (iteration : Nat)

theorem asked_addState (arranged : Arranged calls product) {call : Call}
    (asks : call.point? = some (state, location)) (other : StateId)
    (otherLocation : LocationId) :
    (∃ handle, (product.addState state location iteration).2.find? other otherLocation =
      some handle) ↔ ∃ earlier ∈ calls ++ [call], earlier.point? = some (other, otherLocation) := by
  have more : (∃ earlier ∈ calls ++ [call], earlier.point? = some (other, otherLocation)) ↔
      (∃ handle, product.find? other otherLocation = some handle) ∨
        (state = other ∧ location = otherLocation) := by
    rw [arranged.asked]
    simp [or_and_right, exists_or, asks]
  rw [more]
  cases found : product.find? state location with
  | some existing =>
      rw [addState_of_find? found]
      refine ⟨.inl, ?_⟩
      rintro (known | ⟨rfl, rfl⟩)
      · exact known
      · exact ⟨existing, found⟩
  | none =>
      rw [find?_addState found]
      split
      · rename_i same
        exact ⟨fun _ => .inr same, fun _ => ⟨_, rfl⟩⟩
      · rename_i different
        exact ⟨.inl, fun known => known.resolve_right different⟩

/-- Asking for a pair leaves the states where they come from. -/
theorem addState (arranged : Arranged calls product) :
    Arranged (calls ++ [.addState state location iteration])
      (product.addState state location iteration).2 := by
  have sameTransitions := transitions_addState product state location iteration
  have kept : ∀ other entry, product.state? other = some entry →
      (product.addState state location iteration).2.point other = product.point other :=
    fun other entry present => by
      rw [point_of_state? (state?_addState_of_some present), point_of_state? present]
  constructor
  · exact arranged.wellFormed.addState
  · exact arranged.asked_addState state location iteration rfl
  · rw [sameTransitions, arranged.links_kept kept, List.filterMap_append]
    exact (List.append_nil _).symm
  · intro other
    rw [transitionIds, sameTransitions, ← transitionIds, transition?_addState, ← arranged.out]
    unfold Product.out
    cases present : (product.addState state location iteration).2.state? other with
    | none =>
        cases before : product.state? other with
        | none => rfl
        | some entry =>
            rw [state?_addState_of_some before] at present
            cases present
    | some entry =>
        rcases addState_cases present with before | ⟨_, absent, blank⟩
        · rw [before]
        · rw [absent, blank]
          rfl
  · intro other entry present
    rcases addState_cases present with before | ⟨new, _, blank⟩
    · refine (arranged.origin before).kept _ rfl rfl rfl ?_ ?_
      · exact fun _ _ found => by rw [transition?_addState, found]
      · exact fun _ _ found => .inl (by rwa [transition?_addState] at found)
    · subst blank
      have unknown := find?_of_addState_fresh new
      exact .added (firstFor?_new (arranged.never_asked unknown) rfl) rfl

end AddState

section AddSuccessor

variable {source : ProductStateId} {via : Option TransitionId} {state : StateId}
  {location : LocationId} {iteration : Nat}

/-- The state that a call brings remembers the transition of the call, which is
the first one into it. -/
theorem originates_new (arranged : Arranged calls product)
    (known : ∃ entry, product.state? source = some entry) {target : ProductStateId}
    (new : (product.addState state location iteration).1 = (target, true)) {entry : ProductState}
    (sameState : entry.state = state) (sameLocation : entry.location = location)
    (origin : entry.origin = some ⟨product.transitions.size⟩) :
    Originates (calls ++ [.addSuccessor source via state location iteration])
      (product.addSuccessor source via state location iteration).2 target entry := by
  subst sameState sameLocation
  have unknown := find?_of_addState_fresh new
  obtain rfl : target = ⟨product.states.size⟩ := by
    rw [addState_handle unknown] at new
    exact (congrArg Prod.fst new).symm
  refine .reached (firstFor?_new (arranged.never_asked unknown) rfl) origin ⟨?_, ?_⟩ ?_
  · rw [transition?_addSuccessor, if_pos rfl, new]
  · intro other rival found sameTarget
    rw [transition?_addSuccessor] at found
    split at found
    · rename_i same
      rw [same]
    · obtain ⟨_, _, present⟩ := arranged.inside found
      exact absurd sameTarget (ne_next present)
  · obtain ⟨_, present⟩ := known
    exact (Array.getElem?_eq_some_iff.1 present).1

theorem addSuccessor (arranged : Arranged calls product)
    (known : ∃ entry, product.state? source = some entry) :
    Arranged (calls ++ [.addSuccessor source via state location iteration])
      (product.addSuccessor source via state location iteration).2 := by
  have extended := extends_addSuccessor via state location iteration known
  have pushed := transitions_addSuccessor product source via state location iteration
  constructor
  · exact arranged.wellFormed.addSuccessor known
  · rw [find?_addSuccessor]
    exact arranged.asked_addState state location iteration rfl
  · obtain ⟨target, present, sameState, sameLocation⟩ :=
      arranged.wellFormed.addState_target state location iteration
    have link : (product.addSuccessor source via state location iteration).2.linkOf
        ⟨source, via, (product.addState state location iteration).1.1⟩ =
          (source, via, state, location) := by
      simp [linkOf, point, systemState, Product.location, state?_addSuccessor, present, sameState,
        sameLocation]
    rw [pushed, Array.toList_push, List.map_append,
      arranged.links_kept fun _ _ present => extended.point present, List.filterMap_append,
      List.map_singleton, link]
    rfl
  · intro other
    have old : product.transitionIds.filter (fun handle =>
        ((product.addSuccessor source via state location iteration).2.transition? handle).any
          (·.source = other)) = product.out other := by
      rw [arranged.out]
      refine List.filter_congr fun handle member => ?_
      obtain ⟨transition, found⟩ := mem_transitionIds.1 member
      rw [found, extended.transition found]
    have ids : (product.addSuccessor source via state location iteration).2.transitionIds =
        product.transitionIds ++ [⟨product.transitions.size⟩] := by
      simp [transitionIds, pushed, List.range_succ]
    rw [ids, List.filter_append, old, out_addSuccessor known, List.filter_singleton,
      transition?_addSuccessor, if_pos rfl, Option.any_some]
    by_cases atSource : other = source
    · simp [atSource]
    · simp [atSource, Ne.symm atSource]
  · intro other entry present
    rw [state?_addSuccessor] at present
    obtain ⟨before, presentBefore, rfl⟩ := Option.map_eq_some_iff.1 present
    rcases addState_cases presentBefore with old | ⟨new, _, rfl⟩
    · have notNew : (product.addState state location iteration).1 ≠ (other, true) := by
        intro new
        have absent := addState_fresh (congrArg Prod.snd new)
        rw [new, old] at absent
        cases absent
      refine (arranged.origin old).kept _ rfl rfl (if_neg notNew) ?_ ?_
      · exact fun _ _ found => extended.transition found
      · intro handle transition found
        rw [transition?_addSuccessor] at found
        split at found
        · rename_i same
          exact .inr (by rw [same])
        · exact .inl found
    · exact arranged.originates_new known new rfl rfl (if_pos new)

end AddSuccessor

theorem perform (arranged : Arranged calls product) (call : Call) (recent : call ≠ .clear)
    (permitted : call.Permitted product) : Arranged (calls ++ [call]) (product.perform call) := by
  cases call with
  | addState state location iteration => exact arranged.addState state location iteration
  | addSuccessor source via state location iteration => exact arranged.addSuccessor permitted
  | clear => exact absurd rfl recent

end Arranged

/-- The calls since the last clearing keep the invariant. -/
theorem Built.arranged {calls : List Call} {product : Product} (built : Built calls product) :
    Arranged (sinceClear calls) product := by
  induction built with
  | empty => exact arranged_empty
  | called call _ permitted inductionHypothesis =>
      unfold sinceClear at inductionHypothesis ⊢
      by_cases cleared : call = .clear
      · subst cleared
        rw [List.rtakeWhile_concat_neg _ _ _ (by simp)]
        exact arranged_empty
      · rw [List.rtakeWhile_concat_pos _ _ _ (by simpa using cleared)]
        exact inductionHypothesis.perform call cleared permitted

/-! ## What follows -/

namespace Arranged

variable {calls : List Call} {product : Product}

theorem ascending (arranged : Arranged calls product) (state : ProductStateId) :
    (product.out state).Pairwise fun first second => first.index < second.index := by
  rw [arranged.out]
  refine List.Pairwise.filter _ ?_
  exact List.Pairwise.map ProductTransitionId.mk (fun _ _ less => less) List.pairwise_lt_range

theorem partition (arranged : Arranged calls product) :
    (product.stateIds.flatMap product.out).Perm product.transitionIds := by
  have distinctIds : product.transitionIds.Nodup :=
    List.nodup_range.map fun _ _ same => congrArg ProductTransitionId.index same
  have distinctStates : product.stateIds.Nodup :=
    List.nodup_range.map fun _ _ same => congrArg ProductStateId.index same
  have distinct : (product.stateIds.flatMap product.out).Nodup := by
    rw [List.nodup_flatMap]
    refine ⟨fun state _ => ?_, distinctStates.imp ?_⟩
    · rw [arranged.out]
      exact distinctIds.filter _
    · intro first second different handle atFirst atSecond
      obtain ⟨transition, found, source⟩ := arranged.listed.1 atFirst
      obtain ⟨same, foundAgain, sourceToo⟩ := arranged.listed.1 atSecond
      rw [found] at foundAgain
      cases foundAgain
      exact different (source.symm.trans sourceToo)
  rw [List.perm_ext_iff_of_nodup distinct distinctIds]
  intro handle
  rw [List.mem_flatMap, mem_transitionIds]
  constructor
  · rintro ⟨state, _, listed⟩
    exact (arranged.listed.1 listed).imp fun _ => And.left
  · rintro ⟨transition, found⟩
    exact ⟨transition.source, mem_stateIds.2 (arranged.inside found).1,
      arranged.listed.2 ⟨transition, found, rfl⟩⟩

/-- The source of an origin is older than its target, so the way back ends. -/
theorem rooted (arranged : Arranged calls product) {state : ProductStateId}
    {entry : ProductState} (present : product.state? state = some entry) :
    ∃ root rootEntry iteration,
      Relation.ReflTransGen (fun later earlier => product.parent? later = some earlier) state root ∧
      product.state? root = some rootEntry ∧ product.parent? root = none ∧
      firstFor? calls (rootEntry.state, rootEntry.location) =
        some (.addState rootEntry.state rootEntry.location iteration) := by
  induction index : state.index using Nat.strongRecOn generalizing state entry with
  | ind position inductionHypothesis =>
      cases arranged.origin present with
      | @added iteration first origin =>
          exact ⟨state, entry, iteration, .refl, present, by simp [parent?, present, origin], first⟩
      | @reached source via iteration handle first origin into older =>
          have parent : product.parent? state = some source := by
            simp [parent?, present, origin, into.1]
          obtain ⟨_, sourcePresent⟩ := (arranged.inside into.1).1
          obtain ⟨root, rootEntry, rootIteration, back, rest⟩ :=
            inductionHypothesis source.index (index ▸ older) sourcePresent rfl
          exact ⟨root, rootEntry, rootIteration, .head parent back, rest⟩

end Arranged

/-- **The arena is what was asked for.** After any calls it holds the pairs and
the transitions asked for since it was last cleared, each pair once and each
transition at its source, and the way back from any state along the origins ends
at a state that was asked for by itself. -/
theorem arena_represents_calls {calls : List Call} {product : Product}
    (built : Built calls product) : Represents (sinceClear calls) product := by
  have arranged := built.arranged
  refine ⟨fun _ _ _ => arranged.wellFormed.find_iff, ?_, arranged.asked, arranged.links,
    arranged.inside, arranged.partition, arranged.ascending, arranged.listed, arranged.origin,
    arranged.rooted⟩
  intro first second left right leftPresent rightPresent sameState sameLocation
  refine arranged.wellFormed.point_injective leftPresent rightPresent ?_
  rw [point_of_state? leftPresent, point_of_state? rightPresent, sameState, sameLocation]

/-- A pair that is forgotten, then a way from a root to a second state, and from
there to itself, back to the root and on to a third state. -/
def roundTripCalls : List Call :=
  [.addState ⟨7⟩ ⟨0⟩ 1, .clear, .addState ⟨0⟩ ⟨0⟩ 1, .addSuccessor ⟨0⟩ (some ⟨0⟩) ⟨1⟩ ⟨0⟩ 1,
    .addSuccessor ⟨1⟩ none ⟨1⟩ ⟨0⟩ 2, .addSuccessor ⟨1⟩ (some ⟨1⟩) ⟨0⟩ ⟨0⟩ 2,
    .addState ⟨1⟩ ⟨0⟩ 3, .addSuccessor ⟨1⟩ (some ⟨2⟩) ⟨2⟩ ⟨1⟩ 3]

def roundTrip : Product :=
  roundTripCalls.foldl perform {}

theorem roundTrip_built : Built roundTripCalls roundTrip :=
  have root := ((Built.empty.called (.addState ⟨7⟩ ⟨0⟩ 1) trivial).called .clear trivial).called
    (.addState ⟨0⟩ ⟨0⟩ 1) trivial
  have second := root.called (.addSuccessor ⟨0⟩ (some ⟨0⟩) ⟨1⟩ ⟨0⟩ 1) ⟨_, rfl⟩
  have onward := second.called (.addSuccessor ⟨1⟩ none ⟨1⟩ ⟨0⟩ 2) ⟨_, rfl⟩
  have back := onward.called (.addSuccessor ⟨1⟩ (some ⟨1⟩) ⟨0⟩ ⟨0⟩ 2) ⟨_, rfl⟩
  (back.called (.addState ⟨1⟩ ⟨0⟩ 3) trivial).called
    (.addSuccessor ⟨1⟩ (some ⟨2⟩) ⟨2⟩ ⟨1⟩ 3) ⟨_, rfl⟩

theorem roundTrip_represents_calls :
    Built roundTripCalls roundTrip ∧ (sinceClear roundTripCalls).length = 6 ∧
      roundTrip.stateIds.map roundTrip.out = [[⟨0⟩], [⟨1⟩, ⟨2⟩, ⟨3⟩], []] ∧
      roundTrip.stateIds.map roundTrip.parent? = [none, some ⟨0⟩, some ⟨1⟩] ∧
      Represents (sinceClear roundTripCalls) roundTrip :=
  ⟨roundTrip_built, by decide +kernel, by decide +kernel, by decide +kernel,
    arena_represents_calls roundTrip_built⟩

end Product

end OnTheFly
