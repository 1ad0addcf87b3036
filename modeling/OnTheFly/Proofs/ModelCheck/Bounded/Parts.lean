import Mathlib.Logic.Relation
import OnTheFly.ModelCheck.Bounded
import OnTheFly.Proofs.ModelCheck.Search

/-!
Contract: what the parts of a step of the bounded search do.

Owns: one statement for each part: deferring a transition, looking for a cycle,
looking for a successor to enter, leaving a frame and starting again.
Does not own: the invariant of the search.

Nothing here depends on when a boundary is crossed. A transition that does not
pass is deferred, and only transitions that move the system are.
-/

set_option autoImplicit false

namespace OnTheFly

namespace Limit

/-- The limit of a fresh instance that has been relaxed so many times. -/
def relaxed : Limit → Nat → Limit
  | .nodeCount initial step _, times => .nodeCount initial step (initial + times * step)
  | .ruleSet forbidden, _ => .ruleSet forbidden

/-- Whether a fresh instance can be relaxed so many times. -/
def Fits : Limit → Nat → Prop
  | .nodeCount initial step _, times => initial + times * step < counterLimit
  | .ruleSet _, _ => True

end Limit

namespace BoundedSearch

variable {R : RuleSystem}

/-! ## Deferring -/

/-- What defers transitions and otherwise only touches marks that nothing
depends on. -/
structure Defers (bounded after : BoundedSearch) : Prop where
  touches : bounded.search.Touches after.search
  colour : after.search.product.colour = bounded.search.product.colour
  isClosed : after.search.product.isClosed = bounded.search.product.isClosed
  isPocket : after.search.product.isPocket = bounded.search.product.isPocket
  stack : after.search.stack = bounded.search.stack
  next : after.search.next = bounded.search.next
  counterExample : after.search.counterExample = bounded.search.counterExample
  prototype : after.prototype = bounded.prototype
  pocket : after.pocket = bounded.pocket
  more {handle : ProductTransitionId} : handle ∈ bounded.deferred → handle ∈ after.deferred

namespace Defers

variable {bounded after : BoundedSearch}

theorem refl (bounded : BoundedSearch) : bounded.Defers bounded :=
  ⟨⟨rfl, rfl, rfl, .refl _⟩, rfl, rfl, rfl, rfl, rfl, rfl, rfl, rfl, id⟩

theorem trans {last : BoundedSearch} (first : bounded.Defers after) (second : after.Defers last) :
    bounded.Defers last where
  touches :=
    { automaton := second.touches.automaton.trans first.touches.automaton
      initial := second.touches.initial.trans first.touches.initial
      round := second.touches.round.trans first.touches.round
      shape := first.touches.shape.trans second.touches.shape }
  colour := second.colour.trans first.colour
  isClosed := second.isClosed.trans first.isClosed
  isPocket := second.isPocket.trans first.isPocket
  stack := second.stack.trans first.stack
  next := second.next.trans first.next
  counterExample := second.counterExample.trans first.counterExample
  prototype := second.prototype.trans first.prototype
  pocket := second.pocket.trans first.pocket
  more member := second.more (first.more member)

theorem isUnexplored (defers : bounded.Defers after) (state : ProductStateId) :
    after.isUnexplored state = bounded.isUnexplored state := by
  unfold BoundedSearch.isUnexplored
  rw [defers.colour, defers.isPocket, defers.touches.round, defers.pocket]

theorem closesCycle (defers : bounded.Defers after) (handle : ProductTransitionId) :
    after.search.closesCycle handle = bounded.search.closesCycle handle := by
  unfold Search.closesCycle Search.isAccepting
  rw [defers.touches.shape.transition?, defers.colour, defers.touches.round,
    defers.touches.automaton, defers.touches.shape.location]

end Defers

theorem defers_boundary (bounded : BoundedSearch) (boundary : Option Boundary) :
    bounded.Defers { bounded with boundary := boundary } :=
  ⟨⟨rfl, rfl, rfl, .refl _⟩, rfl, rfl, rfl, rfl, rfl, rfl, rfl, rfl, id⟩

theorem defers_modify (bounded : BoundedSearch) (state : ProductStateId)
    {change : ProductState → ProductState}
    (keeps : ∀ entry, change entry =
      { entry with iteration := (change entry).iteration }) :
    bounded.Defers (bounded.setProduct (bounded.search.product.modify state change)) where
  touches := ⟨rfl, rfl, rfl, Product.sameShape_modify _ _ fun entry => by rw [keeps]⟩
  colour := Product.colour_modify_of_keeps _ _ fun entry => by rw [keeps]
  isClosed := Product.isClosed_modify _ _ fun entry => by rw [keeps]
  isPocket := Product.isPocket_modify _ _ fun entry => by rw [keeps]
  stack := rfl
  next := rfl
  counterExample := rfl
  prototype := rfl
  pocket := rfl
  more := id

/-- A deferred transition is remembered, and no other is new. -/
theorem defer_spec (bounded : BoundedSearch) (transition : ProductTransitionId)
    (target : ProductStateId) :
    bounded.Defers (bounded.defer transition target) ∧
      transition ∈ (bounded.defer transition target).deferred ∧
      ∀ handle ∈ (bounded.defer transition target).deferred,
        handle ∈ bounded.deferred ∨ handle = transition := by
  unfold defer
  split
  · rename_i known
    exact ⟨.refl bounded, by simpa using known, fun _ => .inl⟩
  · have remembered : bounded.Defers
        { bounded with deferred := transition :: bounded.deferred } :=
      ⟨⟨rfl, rfl, rfl, .refl _⟩, rfl, rfl, rfl, rfl, rfl, rfl, rfl, rfl,
        fun member => List.mem_cons_of_mem _ member⟩
    have only : ∀ handle ∈ transition :: bounded.deferred,
        handle ∈ bounded.deferred ∨ handle = transition := by
      intro handle member
      exact (List.mem_cons.1 member).symm
    simp only
    split
    · refine ⟨remembered.trans (defers_modify _ _ fun _ => rfl), List.mem_cons_self, only⟩
    · exact ⟨remembered, List.mem_cons_self, only⟩

/-! ## Looking at transitions -/

/-- What going through the transitions of `entries` does: some that move the
system are deferred. -/
structure Passes (entries : List (ProductTransitionId × ProductTransition))
    (bounded after : BoundedSearch) : Prop where
  defers : bounded.Defers after
  moves {handle : ProductTransitionId} : handle ∈ after.deferred → handle ∈ bounded.deferred ∨
    ∃ transition, (handle, transition) ∈ entries ∧ transition.via.isSome = true

namespace Passes

variable {bounded after last : BoundedSearch} {handle : ProductTransitionId}
  {entry : ProductTransition} {entries : List (ProductTransitionId × ProductTransition)}

theorem skip (rest : Passes entries bounded after) :
    Passes ((handle, entry) :: entries) bounded after where
  defers := rest.defers
  moves := by
    intro other member
    rcases rest.moves member with before | ⟨transition, listed, moves⟩
    · exact .inl before
    · exact .inr ⟨transition, List.mem_cons_of_mem _ listed, moves⟩

theorem defer {target : ProductStateId} (isMove : entry.via.isSome = true)
    (rest : Passes entries (bounded.defer handle target) last) :
    Passes ((handle, entry) :: entries) bounded last ∧ handle ∈ last.deferred := by
  obtain ⟨defers, remembered, only⟩ := defer_spec bounded handle target
  refine ⟨⟨defers.trans rest.defers, ?_⟩, rest.defers.more remembered⟩
  intro other member
  rcases rest.moves member with before | ⟨transition, listed, moves⟩
  · rcases only other before with known | rfl
    · exact .inl known
    · exact .inr ⟨entry, List.mem_cons_self, isMove⟩
  · exact .inr ⟨transition, List.mem_cons_of_mem _ listed, moves⟩

end Passes

section Looking

variable {space : StateSpace R} {bounded after : BoundedSearch}

/-- A transition is looked at, or it moves the system and is deferred. -/
theorem allows_spec {handle : ProductTransitionId} {entry : ProductTransition} {allowed : Bool}
    (answer : bounded.allows space handle entry = (.ok allowed, after)) :
    (allowed = true ∧ after = bounded) ∨
      (allowed = false ∧ entry.via.isSome = true ∧
        after = bounded.defer handle entry.target) := by
  unfold allows at answer
  split at answer
  · rename_i transition boundary found _
    split at answer
    · cases answer
    · split at answer
      · cases answer
        exact .inl ⟨rfl, rfl⟩
      · cases answer
        refine .inr ⟨rfl, ?_, rfl⟩
        cases via : entry.via with
        | none => simp [via] at found
        | some _ => rfl
  · cases answer
    exact .inl ⟨rfl, rfl⟩

/-- A cycle is found at a transition that closes one. If none is found, each
transition closes none or is deferred. -/
theorem findCycle_spec {entries : List (ProductTransitionId × ProductTransition)} {found : Bool}
    (answer : findCycle space entries bounded = (.ok found, after)) :
    Passes entries bounded after ∧
      (found = true → ∃ handle transition, (handle, transition) ∈ entries ∧
        bounded.search.closesCycle handle = true) ∧
      (found = false → ∀ handle transition, (handle, transition) ∈ entries →
        handle ∈ after.deferred ∨ bounded.search.closesCycle handle = false) := by
  induction entries generalizing bounded with
  | nil =>
      cases answer
      exact ⟨⟨.refl _, .inl⟩, by simp, by simp⟩
  | cons head rest inductionHypothesis =>
      obtain ⟨handle, entry⟩ := head
      unfold findCycle at answer
      split at answer
      · cases answer
      · rename_i allowed seen looked
        rcases allows_spec looked with ⟨rfl, rfl⟩ | ⟨rfl, isMove, rfl⟩
        · split at answer
          · rename_i closes
            cases answer
            exact ⟨⟨.refl _, .inl⟩,
              fun _ => ⟨handle, entry, List.mem_cons_self, by simpa using closes⟩, by simp⟩
          · rename_i closesNot
            obtain ⟨passes, yes, no⟩ := inductionHypothesis answer
            refine ⟨passes.skip, fun isFound => ?_, fun notFound other transition member => ?_⟩
            · obtain ⟨other, transition, member, closes⟩ := yes isFound
              exact ⟨other, transition, List.mem_cons_of_mem _ member, closes⟩
            · rcases List.mem_cons.1 member with same | listed
              · cases same
                exact .inr (by simpa using closesNot)
              · exact no notFound other transition listed
        · obtain ⟨defers, _⟩ := defer_spec bounded handle entry.target
          simp only [Bool.false_and, Bool.false_eq_true, if_false] at answer
          obtain ⟨passes, yes, no⟩ := inductionHypothesis answer
          obtain ⟨passesAll, remembered⟩ := passes.defer isMove
          refine ⟨passesAll, fun isFound => ?_, fun notFound other transition member => ?_⟩
          · obtain ⟨other, transition, member, closes⟩ := yes isFound
            rw [defers.closesCycle] at closes
            exact ⟨other, transition, List.mem_cons_of_mem _ member, closes⟩
          · rcases List.mem_cons.1 member with same | listed
            · cases same
              exact .inl remembered
            · have known := no notFound other transition listed
              rwa [defers.closesCycle] at known

/-- A transition that does not pass moves the system. -/
theorem pass?_spec {entry : ProductTransition} {passed : Option Frame}
    {boundary : Option Boundary}
    (answer : bounded.pass? space entry = .ok (passed, boundary)) :
    (∀ frame, passed = some frame → frame.state = entry.target) ∧
      (passed = none → entry.via.isSome = true) := by
  unfold pass? at answer
  split at answer
  · rename_i transition boundary found _
    have isMove : entry.via.isSome = true := by
      cases via : entry.via with
      | none => simp [via] at found
      | some _ => rfl
    refine ⟨?_, fun _ => isMove⟩
    rintro frame rfl
    split at answer
    · cases answer
    · cases answer
      rfl
    · split at answer
      · cases answer
        rfl
      · cases answer
  · cases answer
    exact ⟨by rintro _ ⟨⟩; rfl, nofun⟩

/-- A successor to enter is one of the transitions to an unexplored state. If
there is none, each transition leads to an explored state or is deferred. -/
theorem freshSuccessor_spec {entries : List (ProductTransitionId × ProductTransition)}
    {passed : Option Frame}
    (answer : freshSuccessor space entries bounded = (.ok passed, after)) :
    Passes entries bounded after ∧
      (∀ frame, passed = some frame → ∃ handle transition, (handle, transition) ∈ entries ∧
        transition.target = frame.state ∧ bounded.isUnexplored transition.target = true) ∧
      (passed = none → ∀ handle transition, (handle, transition) ∈ entries →
        bounded.isUnexplored transition.target = false ∨
          (handle ∈ after.deferred ∧ transition.via.isSome = true)) := by
  induction entries generalizing bounded with
  | nil =>
      cases answer
      exact ⟨⟨.refl _, .inl⟩, nofun, by simp⟩
  | cons head rest inductionHypothesis =>
      obtain ⟨handle, entry⟩ := head
      unfold freshSuccessor at answer
      split at answer
      · rename_i explored
        obtain ⟨passes, yes, no⟩ := inductionHypothesis answer
        refine ⟨passes.skip, fun frame isFrame => ?_, fun isNone other transition member => ?_⟩
        · obtain ⟨other, transition, member, rest⟩ := yes frame isFrame
          exact ⟨other, transition, List.mem_cons_of_mem _ member, rest⟩
        · rcases List.mem_cons.1 member with same | listed
          · cases same
            exact .inl (by simpa using explored)
          · exact no isNone other transition listed
      · rename_i unexplored
        split at answer
        · cases answer
        · rename_i frame boundary pass
          cases answer
          have target := (pass?_spec pass).1 frame rfl
          refine ⟨⟨defers_boundary bounded boundary, .inl⟩, ?_, nofun⟩
          rintro _ ⟨⟩
          exact ⟨handle, entry, List.mem_cons_self, target.symm, by simpa using unexplored⟩
        · rename_i boundary stop
          have isMove := (pass?_spec stop).2 rfl
          have relaxed := defers_boundary bounded boundary
          obtain ⟨defers, _⟩ := defer_spec { bounded with boundary := boundary } handle entry.target
          obtain ⟨passes, yes, no⟩ := inductionHypothesis answer
          obtain ⟨passesAll, remembered⟩ := passes.defer isMove
          have same : ∀ state, isUnexplored
              (({ bounded with boundary := boundary }).defer handle entry.target) state =
                bounded.isUnexplored state := (relaxed.trans defers).isUnexplored
          refine ⟨⟨relaxed.trans passesAll.defers, passesAll.moves⟩, fun frame isFrame => ?_,
            fun isNone other transition member => ?_⟩
          · obtain ⟨other, transition, member, target, isFresh⟩ := yes frame isFrame
            rw [same] at isFresh
            exact ⟨other, transition, List.mem_cons_of_mem _ member, target, isFresh⟩
          · rcases List.mem_cons.1 member with isHead | listed
            · cases isHead
              exact .inr ⟨remembered, isMove⟩
            · have known := no isNone other transition listed
              rwa [same] at known

end Looking

theorem isUnexplored_eq_false {bounded : BoundedSearch} {state : ProductStateId}
    (known : bounded.isUnexplored state = false) :
    bounded.search.round.isExplored (bounded.search.product.colour state) = true ∨
      bounded.search.product.isPocket state = true := by
  unfold isUnexplored at known
  cases explored : bounded.search.round.isExplored (bounded.search.product.colour state) with
  | true => exact .inl rfl
  | false =>
      simp only [explored, Bool.not_false, Bool.true_and, Bool.or_eq_false_iff] at known
      exact .inr (by simpa using known.1.2)

/-- With pruning on, a painted pocket state is left out. -/
theorem isUnexplored_of_isPocket {bounded : BoundedSearch} {state : ProductStateId}
    (enabled : bounded.pocket = true) (isPocket : bounded.search.product.isPocket state = true)
    (painted : bounded.search.product.colour state ≠ .unpainted) :
    bounded.isUnexplored state = false := by
  simp [isUnexplored, enabled, isPocket, Colour.isUnpainted, painted]

theorem isExplored_eq_false {bounded : BoundedSearch} {state : ProductStateId}
    (unknown : bounded.isUnexplored state = true) :
    bounded.search.round.isExplored (bounded.search.product.colour state) = false := by
  unfold isUnexplored at unknown
  simp only [Bool.and_eq_true, Bool.not_eq_true'] at unknown
  exact unknown.1

/-! ## Leaving a frame -/

/-- Whether all transitions that move the system lead to pocket states. -/
def LeadsToPockets (product : Product) (state : ProductStateId) : Prop :=
  ∀ handle transition, (handle, transition) ∈ product.outgoing state →
    transition.via.isSome = true → product.isPocket transition.target = true

theorem leadsToPockets_iff {product : Product} {state : ProductStateId} :
    leadsToPockets product state = true ↔ LeadsToPockets product state := by
  simp only [leadsToPockets, LeadsToPockets, List.all_eq_true, List.mem_filter, Prod.forall,
    and_imp]

/-- What leaving the top frame does: its state is painted for good, and it is
marked if it is found to be a pocket. -/
structure Leaves (top : Frame) (bounded after : BoundedSearch) : Prop where
  touches : bounded.search.Touches after.search
  stack : bounded.search.stack = top :: after.search.stack
  next : after.search.next = bounded.search.next
  counterExample : after.search.counterExample = bounded.search.counterExample
  prototype : after.prototype = bounded.prototype
  pocket : after.pocket = bounded.pocket
  deferred : after.deferred = bounded.deferred
  colour (state : ProductStateId) : after.search.product.colour state =
    if state = top.state then
      .painted bounded.search.round.iteration
        (if bounded.search.isAccepting top.state then .red else .blue)
    else bounded.search.product.colour state
  isClosed : after.search.product.isClosed = bounded.search.product.isClosed
  isPocket_iff {state : ProductStateId} : after.search.product.isPocket state = true ↔
    bounded.search.product.isPocket state = true ∨
      (state = top.state ∧ bounded.pocket = true ∧
        LeadsToPockets bounded.search.product top.state)

theorem paintLeft_leaves {bounded : BoundedSearch} {top : Frame} {rest : List Frame}
    {boundary : Option Boundary} {entry : ProductState}
    (present : bounded.search.product.state? top.state = some entry)
    (stack : bounded.search.stack = top :: rest) :
    bounded.Leaves top (({ bounded with
      search := { bounded.search with stack := rest }
      boundary := boundary }).paintLeft top.state) := by
  let colour := if bounded.search.isAccepting top.state then bounded.search.round.red
    else bounded.search.round.blue
  let painted := bounded.search.product.paint top.state colour
  have shape : bounded.search.product.SameShape painted :=
    Product.sameShape_modify _ _ fun _ => rfl
  have samePocket : painted.isPocket = bounded.search.product.isPocket :=
    Product.isPocket_modify _ _ fun _ => rfl
  have sameClosed : painted.isClosed = bounded.search.product.isClosed :=
    Product.isClosed_modify _ _ fun _ => rfl
  have colours : ∀ state, painted.colour state =
      if state = top.state then .painted bounded.search.round.iteration
        (if bounded.search.isAccepting top.state then .red else .blue)
      else bounded.search.product.colour state := by
    intro state
    have repainted : painted.colour state =
        if state = top.state then colour else bounded.search.product.colour state :=
      Product.colour_modify present _ state
    rw [repainted]
    simp only [colour]
    cases bounded.search.isAccepting top.state <;> rfl
  have leads : leadsToPockets painted top.state = true ↔
      LeadsToPockets bounded.search.product top.state := by
    rw [leadsToPockets_iff, LeadsToPockets, LeadsToPockets, shape.outgoing, samePocket]
  obtain ⟨entryPainted, presentPainted, _⟩ := shape.state? present
  obtain ⟨product, final, marked, markedColour, markedClosed, markedPocket⟩ :=
    Product.mark_spec presentPainted (bounded.pocket && leadsToPockets painted top.state)
  have result : ({ bounded with
      search := { bounded.search with stack := rest }
      boundary := boundary }).paintLeft top.state =
        { bounded with
          search := { bounded.search with stack := rest, product := product }
          boundary := boundary } := by
    rw [← final]
    rfl
  rw [result]
  constructor
  · exact ⟨rfl, rfl, rfl, shape.trans marked⟩
  · exact stack
  · rfl
  · rfl
  · rfl
  · rfl
  · rfl
  · intro state
    exact (congrFun markedColour state).trans (colours state)
  · exact markedClosed.trans sameClosed
  · intro state
    rw [markedPocket, samePocket, Bool.and_eq_true, leads]

/-- Leaving a frame paints its state, whatever happens to the boundary. -/
theorem leave_leaves {bounded after : BoundedSearch} {top : Frame} {rest : List Frame}
    {entry : ProductState} (present : bounded.search.product.state? top.state = some entry)
    (stack : bounded.search.stack = top :: rest)
    (answer : bounded.leave top rest = (.ok (), after)) : bounded.Leaves top after := by
  unfold leave at answer
  simp only at answer
  split at answer
  · split at answer
    · cases answer
    · cases answer
      exact paintLeft_leaves present stack
  · cases answer
    exact paintLeft_leaves present stack

/-! ## Starting again -/

/-- The search at the beginning of its next round. -/
def restarted (bounded : BoundedSearch) (boundary : Option Boundary) : BoundedSearch :=
  { bounded with
    boundary := boundary
    deferred := []
    search := { bounded.search with
      round := bounded.search.round.next
      next := bounded.search.initial.map fun state => { state := state } } }

/-- The search in a round for which its limit could not be relaxed. -/
def halted (bounded : BoundedSearch) : BoundedSearch :=
  { bounded with search := { bounded.search with round := bounded.search.round.next } }

/-- A search that runs dry rests, or it goes on in a new round from the initial
state with nothing deferred. -/
theorem restart_cases {bounded after : BoundedSearch} {config : Config}
    (answer : bounded.restart config = (.ok (), after)) :
    after = bounded ∨ ∃ boundary, after = { bounded with
      boundary := boundary
      deferred := []
      search := { bounded.search with
        round := bounded.search.round.next
        next := bounded.search.initial.map fun state => { state := state } } } := by
  unfold restart at answer
  split at answer
  · cases answer
    exact .inl rfl
  · simp only at answer
    split at answer
    · cases answer
    · rename_i boundary _
      cases answer
      exact .inr ⟨boundary, rfl⟩

/-! ## Walking back -/

/-- At the top frame a successor is chosen, or the frame is left. -/
theorem retreat_cases {bounded after : BoundedSearch} {space : StateSpace R} {config : Config}
    {top : Frame} {rest : List Frame}
    (answer : retreat space config (top :: rest) bounded = (.ok (), after)) :
    (∃ frame moved,
      freshSuccessor space (bounded.search.product.outgoing top.state) bounded =
        (.ok (some frame), moved) ∧
      after = { moved with search := { moved.search with next := some frame } }) ∨
      ∃ moved left,
        freshSuccessor space (bounded.search.product.outgoing top.state) bounded =
          (.ok none, moved) ∧
        moved.leave top rest = (.ok (), left) ∧
        retreat space config rest left = (.ok (), after) := by
  unfold retreat at answer
  split at answer
  · cases answer
  · rename_i frame moved fresh
    cases answer
    exact .inl ⟨frame, moved, fresh, rfl⟩
  · rename_i moved fresh
    split at answer
    · cases answer
    · rename_i left leave
      exact .inr ⟨moved, left, fresh, leave, answer⟩

theorem retreat_parts {bounded after : BoundedSearch} {space : StateSpace R} {config : Config}
    {top : Frame} {rest : List Frame}
    (answer : retreat space config (top :: rest) bounded = (.ok (), after)) :
    ∃ passed moved,
      freshSuccessor space (bounded.search.product.outgoing top.state) bounded =
        (.ok passed, moved) ∧
      (∀ frame, passed = some frame →
        after = { moved with search := { moved.search with next := some frame } }) ∧
      (passed = none → ∃ left, moved.leave top rest = (.ok (), left) ∧
        retreat space config rest left = (.ok (), after)) := by
  rcases retreat_cases answer with ⟨frame, moved, fresh, isAfter⟩ |
    ⟨moved, left, fresh, leave, walk⟩
  · refine ⟨some frame, moved, fresh, ?_, nofun⟩
    rintro _ ⟨⟩
    exact isAfter
  · exact ⟨none, moved, fresh, nofun, fun _ => ⟨left, leave, walk⟩⟩

/-- One frame back: the top frame has no successor to enter and is left. -/
inductive Backs (space : StateSpace R) (bounded : BoundedSearch) : BoundedSearch → Prop where
  | leaves {top : Frame} {rest : List Frame} {moved left : BoundedSearch}
      (onTop : bounded.search.stack = top :: rest)
      (fresh : freshSuccessor space (bounded.search.product.outgoing top.state) bounded =
        (.ok none, moved))
      (leave : moved.leave top rest = (.ok (), left)) : Backs space bounded left

/-- Any number of frames back. -/
def Walks (space : StateSpace R) : BoundedSearch → BoundedSearch → Prop :=
  Relation.ReflTransGen (Backs space)

/-- What becomes of a search that has walked back as far as it has to. -/
inductive Arrives (space : StateSpace R) (config : Config) (reached : BoundedSearch) :
    Except Breach Unit → BoundedSearch → Prop where
  | chooses {top frame : Frame} {rest : List Frame} {moved : BoundedSearch}
      (onTop : reached.search.stack = top :: rest)
      (fresh : freshSuccessor space (reached.search.product.outgoing top.state) reached =
        (.ok (some frame), moved)) :
      Arrives space config reached (.ok ())
        { moved with search := { moved.search with next := some frame } }
  | rests (empty : reached.search.stack = []) (may : reached.mayRestart config = false) :
      Arrives space config reached (.ok ()) reached
  | restarts (boundary : Option Boundary) (empty : reached.search.stack = [])
      (may : reached.mayRestart config = true) :
      Arrives space config reached (.ok ()) (reached.restarted boundary)
  | overflows (empty : reached.search.stack = []) (may : reached.mayRestart config = true)
      (large : ¬ reached.prototype.limit.Fits reached.iteration) :
      Arrives space config reached (.error .overflow) reached.halted

/-- Without a limit on the iterations the search ends only if nothing is
deferred. -/
theorem retreat_deferred {bounded after : BoundedSearch} {space : StateSpace R} {config : Config}
    {stack : List Frame} (unlimited : config.maxIterations = 0)
    (answer : retreat space config stack bounded = (.ok (), after))
    (stopped : after.search.next = none) : after.deferred = [] := by
  induction stack generalizing bounded with
  | nil =>
      unfold retreat restart at answer
      split at answer
      · rename_i may
        cases answer
        simpa [mayRestart, unlimited] using may
      · simp only at answer
        split at answer <;> cases answer
        rfl
  | cons top rest inductionHypothesis =>
      rcases retreat_cases answer with ⟨frame, moved, _, rfl⟩ | ⟨moved, left, _, _, walk⟩
      · cases stopped
      · exact inductionHypothesis walk

end BoundedSearch

end OnTheFly
