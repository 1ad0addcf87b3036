import OnTheFly.Proofs.Exploration.Driven
import OnTheFly.Proofs.ModelCheck.Bounded.Pockets
import OnTheFly.Proofs.ModelCheck.Lasso

/-!
Contract: the bounded search over all its iterations.

Owns: the invariant of the bounded search, with or without pocket pruning, that
every step and every restart keeps it, and what it says of a search that has
come to its end with nothing deferred.
-/

set_option autoImplicit false

namespace OnTheFly

namespace BoundedSearch

variable {R : RuleSystem}

/-- What a search without counterexample knows. -/
structure Knows (bounded : BoundedSearch) (automaton : Automaton) (initial : ProductStateId)
    (space : StateSpace R) : Prop where
  coherent : bounded.search.Coherent automaton initial space
  examined : bounded.search.Examined automaton space bounded.deferred
    fun state => bounded.search.product.isPocket state = true
  pockets : bounded.Pockets automaton space
  moves : bounded.DefersMoves
  unreported : bounded.search.counterExample = none
  accepts {state : ProductStateId} {iteration : Nat} {paint : Paint} :
    bounded.search.product.colour state = .painted iteration paint → paint ≠ .cyan →
      paint = if automaton.isAccepting (bounded.search.product.location state) then .red else .blue

/-- Whether the states that are complete are those that have been painted. -/
def ClosedWhenPainted (bounded : BoundedSearch) : Prop :=
  ∀ state, bounded.search.product.isClosed state = true ↔
    bounded.search.product.colour state ≠ .unpainted

section

variable {bounded after : BoundedSearch} {automaton : Automaton} {initial : ProductStateId}
  {space later : StateSpace R}

namespace Knows

theorem evolves (knows : bounded.Knows automaton initial space) (wellFormed : space.WellFormed)
    (evolved : space.Evolves later) : bounded.Knows automaton initial later :=
  { knows with
    coherent := knows.coherent.evolves wellFormed (evolved.continues wellFormed).kept
    examined := knows.examined.evolves evolved
    pockets := knows.pockets.evolves evolved }

/-- Marks change that none of this depends on, and more is deferred. -/
theorem marked (knows : bounded.Knows automaton initial space)
    (touches : bounded.search.Touches after.search)
    (colour : after.search.product.colour = bounded.search.product.colour)
    (isPocket : after.search.product.isPocket = bounded.search.product.isPocket)
    (stack : after.search.stack = bounded.search.stack)
    (next : after.search.next = bounded.search.next)
    (counterExample : after.search.counterExample = bounded.search.counterExample)
    (pocket : after.pocket = bounded.pocket)
    (more : ∀ handle ∈ bounded.deferred, handle ∈ after.deferred)
    (moves : after.DefersMoves) : after.Knows automaton initial space where
  coherent := knows.coherent.marked touches colour stack next counterExample
  examined := by
    rw [isPocket]
    exact knows.examined.marked touches colour stack more
  pockets := knows.pockets.marked touches colour isPocket stack pocket
  moves := moves
  unreported := counterExample.trans knows.unreported
  accepts := by
    intro state iteration paint painted
    rw [colour] at painted
    rw [touches.shape.location]
    exact knows.accepts painted

/-- The transitions of a state are looked at, and some are deferred. -/
theorem passed (knows : bounded.Knows automaton initial space) {state : ProductStateId}
    (passes : Passes (bounded.search.product.outgoing state) bounded after) :
    after.Knows automaton initial space := by
  have defers := passes.defers
  refine knows.marked defers.touches defers.colour defers.isPocket defers.stack defers.next
    defers.counterExample defers.pocket (fun _ => defers.more) ?_
  intro handle deferred
  rw [defers.touches.shape.transition?]
  rcases passes.moves deferred with before | ⟨transition, member, isMove⟩
  · exact knows.moves handle before
  · exact ⟨transition, (Product.mem_outgoing.1 member).2, isMove⟩

/-- The top frame leaves the stack. -/
theorem left (knows : bounded.Knows automaton initial space) (wellFormed : space.WellFormed)
    (stopped : bounded.search.next = none) {top : Frame} (leaves : bounded.Leaves top after)
    (followed : bounded.Followed top.state) : after.Knows automaton initial space := by
  have accepting : bounded.search.isAccepting top.state =
      automaton.isAccepting (bounded.search.product.location top.state) := by
    simp [Search.isAccepting, knows.coherent.installed]
  constructor
  · refine knows.coherent.left leaves.touches leaves.stack ?_ leaves.colour
      (leaves.next.trans stopped)
    split <;> exact Paint.noConfusion
  · rw [leaves.deferred]
    refine knows.examined.left knows.coherent wellFormed leaves.touches leaves.stack leaves.colour
      ?_ (fun _ => knows.pockets.settled) fun _ isPocket => leaves.isPocket_iff.2 (.inl isPocket)
    rintro nothing _ ⟨handle, transition, member, rfl⟩
    rcases followed handle transition member with known | ⟨deferred, _⟩
    · exact isUnexplored_eq_false known
    · simp [nothing] at deferred
  · exact knows.pockets.left knows.coherent wellFormed knows.examined.tested knows.moves leaves
      followed
  · intro handle deferred
    rw [leaves.deferred] at deferred
    rw [leaves.touches.shape.transition?]
    exact knows.moves handle deferred
  · exact leaves.counterExample.trans knows.unreported
  · intro state iteration paint painted
    rw [leaves.colour] at painted
    rw [leaves.touches.shape.location]
    split at painted
    · rename_i isTop
      cases painted
      rw [isTop, ← accepting]
      exact fun _ => rfl
    · exact knows.accepts painted

/-- The frame of a transition that has passed is next. -/
theorem chosen (knows : bounded.Knows automaton initial space) {top frame : Frame}
    {rest : List Frame} (stack : bounded.search.stack = top :: rest)
    (linked : bounded.search.product.Linked top.state frame.state)
    (unexplored :
      bounded.search.round.isExplored (bounded.search.product.colour frame.state) = false) :
    ({ bounded with search := { bounded.search with next := some frame } } :
      BoundedSearch).Knows automaton initial space where
  coherent := knows.coherent.chosen knows.unreported frame stack linked unexplored
  examined := { knows.examined with }
  pockets := { knows.pockets with }
  moves := knows.moves
  unreported := knows.unreported
  accepts := knows.accepts

/-- A new round begins with an empty stack. No state has been explored in it. -/
theorem restarted (knows : bounded.Knows automaton initial space)
    (known : ∃ entry, bounded.search.product.state? initial = some entry)
    (stack : bounded.search.stack = []) (boundary : Option Boundary) :
    ({ bounded with
      boundary := boundary
      deferred := []
      search := { bounded.search with
        round := bounded.search.round.next
        next := bounded.search.initial.map fun state => { state := state } } } :
      BoundedSearch).Knows automaton initial space := by
  have unexplored := knows.coherent.unexplored_next
  have empty := Search.onStack_eq_nil stack
  constructor
  · refine knows.coherent.renewed stack fun frame next => ?_
    rw [knows.coherent.origin] at next
    cases next
    exact ⟨rfl, known, knows.unreported⟩
  · refine ⟨?_, ?_, ?_⟩
    · change Search.Tested bounded.search.product automaton [] bounded.search.onStack
      rw [empty]
      trivial
    · intro state target _ finished
      have explored := finished.1
      rw [unexplored state] at explored
      cases explored
    · intro state _ finished
      have explored := finished.1
      rw [unexplored state] at explored
      cases explored
  · refine { knows.pockets with stuck := ?_ }
    intro state _ finished
    have explored := finished.1
    rw [unexplored state] at explored
    cases explored
  · intro handle deferred
    cases deferred
  · exact knows.unreported
  · exact knows.accepts

end Knows

/-- What goes on with its round, in which explored states stay explored, or
begins the next one. -/
def Paces (bounded after : BoundedSearch) : Prop :=
  (after.search.round = bounded.search.round ∧
    ∀ state, bounded.search.round.isExplored (bounded.search.product.colour state) = true →
      bounded.search.round.isExplored (after.search.product.colour state) = true) ∨
    after.search.round = bounded.search.round.next

/-- What walking back establishes. -/
structure Retreats (bounded after : BoundedSearch) (automaton : Automaton)
    (initial : ProductStateId) (space : StateSpace R) : Prop where
  knows : after.Knows automaton initial space
  closed : after.ClosedWhenPainted
  shape : bounded.search.product.SameShape after.search.product
  stops : after.search.next = none → after.search.stack = []
  begun : after.search.round.isExplored (after.search.product.colour initial) = true ∨
    ∃ frame, after.search.next = some frame ∧ frame.state = initial
  paces : bounded.Paces after

/-- A top frame that has no successor to enter is left. -/
theorem Knows.walked (knows : bounded.Knows automaton initial space)
    (wellFormed : space.WellFormed) (closed : bounded.ClosedWhenPainted)
    (stopped : bounded.search.next = none) {top : Frame} {rest : List Frame}
    (onTop : bounded.search.stack = top :: rest) {moved left : BoundedSearch}
    (fresh : freshSuccessor space (bounded.search.product.outgoing top.state) bounded =
      (.ok none, moved))
    (leave : moved.leave top rest = (.ok (), left)) :
    left.Knows automaton initial space ∧ left.ClosedWhenPainted ∧ bounded.Defers moved ∧
      moved.Leaves top left ∧ left.search.stack = rest := by
  obtain ⟨passes, _, followed⟩ := freshSuccessor_spec fresh
  have defers := passes.defers
  have knowsMoved := knows.passed passes
  have onTopMoved : moved.search.stack = top :: rest := defers.stack.trans onTop
  have paintedTop : moved.search.product.colour top.state ≠ .unpainted := by
    refine knowsMoved.coherent.painted_of_mem ?_
    rw [Search.onStack_eq_cons onTopMoved]
    exact List.mem_cons_self
  obtain ⟨entry, present⟩ := Product.present_of_colour paintedTop
  have leaves := leave_leaves present onTopMoved leave
  have followedTop : moved.Followed top.state := by
    intro handle transition member
    rw [defers.touches.shape.outgoing] at member
    rw [defers.isUnexplored]
    exact followed rfl handle transition member
  refine ⟨knowsMoved.left wellFormed (defers.next.trans stopped) leaves followedTop, ?_, defers,
    leaves, List.tail_eq_of_cons_eq (leaves.stack.symm.trans onTopMoved)⟩
  intro state
  rw [leaves.isClosed, defers.isClosed, leaves.colour, defers.colour, closed]
  split
  · rename_i isTop
    rw [defers.colour, ← isTop] at paintedTop
    simp [paintedTop]
  · rfl

/-- What is known of a search that walks back. -/
structure Walking (bounded : BoundedSearch) (automaton : Automaton) (initial : ProductStateId)
    (space : StateSpace R) : Prop where
  knows : bounded.Knows automaton initial space
  closed : bounded.ClosedWhenPainted
  stopped : bounded.search.next = none

theorem Walking.walked (walking : bounded.Walking automaton initial space)
    (wellFormed : space.WellFormed) {top : Frame} {rest : List Frame}
    (onTop : bounded.search.stack = top :: rest) {moved : BoundedSearch}
    (fresh : freshSuccessor space (bounded.search.product.outgoing top.state) bounded =
      (.ok none, moved))
    (leave : moved.leave top rest = (.ok (), after)) :
    after.Walking automaton initial space ∧ bounded.Defers moved ∧
      moved.Leaves top after ∧ after.search.stack = rest := by
  obtain ⟨knows, closed, defers, leaves, stack⟩ :=
    walking.knows.walked wellFormed walking.closed walking.stopped onTop fresh leave
  exact ⟨⟨knows, closed, leaves.next.trans (defers.next.trans walking.stopped)⟩, defers, leaves,
    stack⟩

/-- Walking back leaves frames, and ends at a state to enter, at an empty stack
or with a new round. -/
theorem retreat_spec {config : Config} {stack : List Frame}
    (wellFormed : space.WellFormed) (knows : bounded.Knows automaton initial space)
    (closed : bounded.ClosedWhenPainted)
    (known : ∃ entry, bounded.search.product.state? initial = some entry)
    (stopped : bounded.search.next = none) (onTop : bounded.search.stack = stack)
    (begun : bounded.search.round.isExplored (bounded.search.product.colour initial) = true)
    (answer : retreat space config stack bounded = (.ok (), after)) :
    Retreats bounded after automaton initial space := by
  induction stack generalizing bounded with
  | nil =>
      rcases restart_cases answer with rfl | ⟨boundary, rfl⟩
      · exact ⟨knows, closed, .refl _, fun _ => onTop, .inl begun, .inl ⟨rfl, fun _ => id⟩⟩
      · refine ⟨knows.restarted known onTop boundary, closed, .refl _, fun _ => onTop, .inr ?_,
          .inr rfl⟩
        refine ⟨{ state := initial }, ?_, rfl⟩
        change bounded.search.initial.map _ = _
        rw [knows.coherent.origin]
        rfl
  | cons top rest inductionHypothesis =>
      rcases retreat_cases answer with ⟨frame, moved, fresh, rfl⟩ |
        ⟨moved, left, fresh, leave, walk⟩
      · obtain ⟨passes, found, _⟩ := freshSuccessor_spec fresh
        obtain ⟨handle, transition, member, target, unexplored⟩ := found frame rfl
        have defers := passes.defers
        have knowsMoved := knows.passed passes
        refine ⟨knowsMoved.chosen (defers.stack.trans onTop) ?_ ?_, ?_, defers.touches.shape,
          nofun, .inl ?_, .inl ⟨defers.touches.round, fun state explored => ?_⟩⟩
        · rw [defers.touches.shape.linked]
          exact ⟨handle, transition, member, target⟩
        · rw [← target]
          rw [← defers.isUnexplored] at unexplored
          exact isExplored_eq_false unexplored
        · intro state
          change moved.search.product.isClosed state = true ↔
            moved.search.product.colour state ≠ .unpainted
          rw [defers.isClosed, defers.colour]
          exact closed state
        · change moved.search.round.isExplored (moved.search.product.colour initial) = true
          rw [defers.touches.round, defers.colour]
          exact begun
        · change bounded.search.round.isExplored (moved.search.product.colour state) = true
          rw [defers.colour]
          exact explored
      · obtain ⟨knowsLeft, closedLeft, defers, leaves, stack⟩ :=
          knows.walked wellFormed closed stopped onTop fresh leave
        have shape := defers.touches.shape.trans leaves.touches.shape
        have round : left.search.round = bounded.search.round :=
          leaves.touches.round.trans defers.touches.round
        have exploredLeft : ∀ state,
            bounded.search.round.isExplored (bounded.search.product.colour state) = true →
            bounded.search.round.isExplored (left.search.product.colour state) = true := by
          intro state explored
          rw [leaves.colour, defers.touches.round, defers.colour]
          split
          · exact Round.isExplored_iff.2 ⟨_, rfl⟩
          · exact explored
        have after_ := inductionHypothesis knowsLeft closedLeft ?_
          (leaves.next.trans (defers.next.trans stopped)) stack ?_ walk
        · refine { after_ with shape := shape.trans after_.shape, paces := ?_ }
          have paces := after_.paces
          unfold Paces at paces ⊢
          rw [round] at paces
          exact paces.imp_left fun ⟨same, explored⟩ =>
            ⟨same, fun state before => explored state (exploredLeft state before)⟩
        · obtain ⟨entry, present⟩ := known
          exact (shape.state? present).imp fun _ => And.left
        · rw [round]
          exact exploredLeft initial begun

/-! ## Entering -/

/-- A state that no earlier round has completed is expanded. -/
theorem expandOnce_enters (wellFormed : space.WellFormed)
    (knows : bounded.Knows automaton initial space) (closed : bounded.ClosedWhenPainted)
    {frame : Frame} (next : bounded.search.next = some frame)
    (systemClosed :
      space.isClosed (bounded.search.product.systemState frame.state) = true)
    {opened : Search}
    (answer : (bounded.search.entered frame).expandOnce space frame.state = .ok opened) :
    opened.Coherent automaton initial space ∧ Search.Enters frame bounded.search opened := by
  unfold Search.expandOnce at answer
  rw [Search.isClosed_entered] at answer
  split at answer
  · rename_i isClosed
    cases answer
    exact knows.coherent.reentered next ((closed frame.state).1 isClosed)
  · rename_i isOpen
    have fresh : bounded.search.product.colour frame.state = .unpainted := by
      by_contra painted
      exact isOpen ((closed frame.state).2 painted)
    obtain ⟨location, here, rfl⟩ := (Search.expand_entered knows.coherent.installed).1 answer
    exact ⟨knows.coherent.opened wellFormed next systemClosed fresh here,
      knows.coherent.enters_opened next fresh location⟩

/-- A frame is entered, and no cycle is found there that is not deferred. -/
theorem Knows.entered (knows : bounded.Knows automaton initial space) {frame : Frame}
    {opened : Search} (coherent : opened.Coherent automaton initial space)
    (enters : Search.Enters frame bounded.search opened)
    (passes : Passes (opened.product.outgoing frame.state) { bounded with search := opened } after)
    (noCycle : ∀ handle transition, (handle, transition) ∈ opened.product.outgoing frame.state →
      handle ∈ after.deferred ∨ opened.closesCycle handle = false) :
    after.Knows automaton initial space := by
  have defers := passes.defers
  constructor
  · exact coherent.marked defers.touches defers.colour defers.stack defers.next
      defers.counterExample
  · have examined : opened.Examined automaton space after.deferred
        fun state => bounded.search.product.isPocket state = true :=
      knows.examined.entered knows.coherent enters coherent (fun _ => defers.more) noCycle
    have sameMarks := examined.marked defers.touches defers.colour defers.stack fun _ => id
    rw [← enters.isPocket] at sameMarks
    rw [defers.isPocket]
    exact sameMarks
  · have pockets : ({ bounded with search := opened } : BoundedSearch).Pockets automaton space :=
      knows.pockets.entered enters rfl
    exact pockets.marked defers.touches defers.colour defers.isPocket defers.stack defers.pocket
  · intro handle deferred
    rw [defers.touches.shape.transition?]
    rcases passes.moves deferred with known | ⟨transition, member, isMove⟩
    · obtain ⟨transition, found, isMove⟩ := knows.moves handle known
      exact ⟨transition, enters.transition found, isMove⟩
    · exact ⟨transition, (Product.mem_outgoing.1 member).2, isMove⟩
  · exact defers.counterExample.trans (enters.counterExample.trans knows.unreported)
  · intro state iteration paint painted notCyan
    -- The colour of a finished state is that of before.
    have paintedBefore : bounded.search.product.colour state = .painted iteration paint := by
      rw [defers.colour, enters.colour] at painted
      split at painted
      · cases painted
        exact absurd rfl notCyan
      · exact painted
    obtain ⟨entry, present⟩ := Product.present_of_colour (by
      rw [paintedBefore]
      exact Colour.noConfusion)
    have location : opened.product.location state = bounded.search.product.location state :=
      congrArg Prod.snd (enters.point present)
    rw [defers.touches.shape.location, location]
    exact knows.accepts paintedBefore notCyan

/-- The search with a state marked as complete. -/
def completed (bounded : BoundedSearch) (state : ProductStateId) : BoundedSearch :=
  bounded.setProduct (bounded.search.product.modify state ({ · with closed := true }))

theorem touches_completed (bounded : BoundedSearch) (state : ProductStateId) :
    bounded.search.Touches (bounded.completed state).search :=
  ⟨rfl, rfl, rfl, Product.sameShape_modify _ _ fun _ => rfl⟩

theorem colour_completed (bounded : BoundedSearch) (state : ProductStateId) :
    (bounded.completed state).search.product.colour = bounded.search.product.colour :=
  Product.colour_modify_of_keeps _ _ fun _ => rfl

theorem isPocket_completed (bounded : BoundedSearch) (state : ProductStateId) :
    (bounded.completed state).search.product.isPocket = bounded.search.product.isPocket :=
  Product.isPocket_modify _ _ fun _ => rfl

theorem exploreState_eq_ok {state : ProductStateId} {found : Bool}
    (answer : bounded.exploreState space state = (.ok found, after)) :
    ∃ opened passed, bounded.search.expandOnce space state = .ok opened ∧
      findCycle space (opened.product.outgoing state) { bounded with search := opened } =
        (.ok found, passed) ∧
      after = if found then passed else passed.completed state := by
  unfold exploreState at answer
  split at answer
  · cases answer
  · rename_i opened expand
    cases look : findCycle space (opened.product.outgoing state)
        { bounded with search := opened } with
    | mk result passed =>
        simp only [look] at answer
        split at answer
        · rename_i same
          cases same
          cases answer
          exact ⟨opened, _, expand, look, rfl⟩
        · rename_i notFalse
          cases answer
          cases found with
          | false => exact absurd rfl (notFalse after)
          | true => exact ⟨opened, after, expand, look, rfl⟩

/-- Exploring an entered state finds a transition that closes a cycle, or
completes the state. -/
theorem exploreState_cases (wellFormed : space.WellFormed)
    (knows : bounded.Knows automaton initial space) (closed : bounded.ClosedWhenPainted)
    {frame : Frame} (next : bounded.search.next = some frame)
    (systemClosed :
      space.isClosed (bounded.search.product.systemState frame.state) = true)
    {found : Bool}
    (answer : ({ bounded with search := bounded.search.entered frame }).exploreState space
      frame.state = (.ok found, after)) :
    ∃ opened passed, opened.Coherent automaton initial space ∧
      Search.Enters frame bounded.search opened ∧
      Passes (opened.product.outgoing frame.state) { bounded with search := opened } passed ∧
      ((found = true ∧ after = passed ∧ ∃ handle transition,
          (handle, transition) ∈ opened.product.outgoing frame.state ∧
            opened.closesCycle handle = true) ∨
        (found = false ∧ after = passed.completed frame.state ∧
          ∀ handle transition, (handle, transition) ∈ opened.product.outgoing frame.state →
            handle ∈ passed.deferred ∨ opened.closesCycle handle = false)) := by
  obtain ⟨opened, passed, expand, look, rfl⟩ := exploreState_eq_ok answer
  obtain ⟨coherent, enters⟩ := expandOnce_enters wellFormed knows closed next systemClosed expand
  obtain ⟨passes, yes, no⟩ := findCycle_spec look
  refine ⟨opened, passed, coherent, enters, passes, ?_⟩
  cases found with
  | false => exact .inr ⟨rfl, rfl, no rfl⟩
  | true => exact .inl ⟨rfl, rfl, yes rfl⟩

/-- A state without a cycle is complete. -/
theorem Knows.completed (knows : bounded.Knows automaton initial space) {state : ProductStateId}
    (painted : bounded.search.product.colour state ≠ .unpainted)
    (others : ∀ other, other ≠ state →
      (bounded.search.product.isClosed other = true ↔
        bounded.search.product.colour other ≠ .unpainted)) :
    (bounded.completed state).Knows automaton initial space ∧
      (bounded.completed state).ClosedWhenPainted := by
  have touches := bounded.touches_completed state
  have colour := bounded.colour_completed state
  constructor
  · exact knows.marked touches colour (bounded.isPocket_completed state) rfl rfl rfl rfl
      (fun _ => id) knows.moves
  · intro other
    rw [colour]
    by_cases same : other = state
    · subst same
      obtain ⟨entry, present⟩ := Product.present_of_colour painted
      simp [BoundedSearch.completed, setProduct, Product.isClosed, present, painted]
    · rw [← others other same]
      simp [BoundedSearch.completed, setProduct, Product.isClosed, Ne.symm same]

end

/-! ## One step -/

section Step

variable {A : Type} [Acceptor R A] {automaton : Automaton} {initial : ProductStateId}
  {root : ProductPoint} {bounded after : BoundedSearch} {run later : Exploration R A}
  {result : Except Failure StateId}

/-- The invariant of the bounded search in a run from `root`. -/
structure Invariant (bounded : BoundedSearch) (run : Exploration R A) (automaton : Automaton)
    (initial : ProductStateId) (root : ProductPoint) : Prop where
  faithful : bounded.search.Faithful run automaton initial root
  knows : bounded.search.counterExample = none → bounded.Knows automaton initial run.space
  closed : bounded.search.counterExample = none → bounded.ClosedWhenPainted
  begun : bounded.search.counterExample = none →
    bounded.search.round.isExplored (bounded.search.product.colour initial) = true ∨
      ∃ frame, bounded.search.next = some frame ∧ frame.state = initial
  resting : bounded.search.counterExample = none → bounded.search.next = none →
    bounded.search.stack = []

/-- The state space evolves while nothing has been reported. -/
theorem Invariant.advances (invariant : bounded.Invariant run automaton initial root)
    (advanced : run.Advances later) (unreported : bounded.search.counterExample = none) :
    bounded.Invariant later automaton initial root where
  faithful := invariant.faithful.advances advanced unreported
  knows _ := (invariant.knows unreported).evolves invariant.faithful.history.wellFormed
    advanced.space
  closed := invariant.closed
  begun := invariant.begun
  resting := invariant.resting

/-- A search that has found a cycle reports it. -/
theorem Invariant.reported (faithful : bounded.search.Faithful run automaton initial root)
    (loop : bounded.search.ClosesLoop automaton) :
    ({ bounded with search := (bounded.search.report run).1 } : BoundedSearch).Invariant
      (bounded.search.report run).2 automaton initial root :=
  ⟨faithful.report loop, nofun, nofun, nofun, nofun⟩

/-- After a state is completed the search moves on. -/
theorem proceed_invariant (faithful : bounded.search.Faithful run automaton initial root)
    (knows : bounded.Knows automaton initial run.space) (closed : bounded.ClosedWhenPainted)
    (stopped : bounded.search.next = none)
    (begun : bounded.search.round.isExplored (bounded.search.product.colour initial) = true)
    (answer : bounded.proceed run false = (.ok (), after, later)) :
    after.Invariant later automaton initial root := by
  unfold proceed at answer
  simp only [Bool.false_eq_true, if_false] at answer
  split at answer
  · cases answer
  · rename_i moved walk
    have retreats := retreat_spec faithful.history.wellFormed knows closed faithful.known stopped
      rfl begun walk
    have invariant : moved.Invariant run automaton initial root :=
      { faithful := faithful.reshaped retreats.shape retreats.knows.coherent
          retreats.knows.unreported
        knows := fun _ => retreats.knows
        closed := fun _ => retreats.closed
        begun := fun _ => retreats.begun
        resting := fun _ => retreats.stops }
    cases answer
    split
    · exact invariant
    · exact invariant.advances (Exploration.advances_track run _) retreats.knows.unreported

/-- A frame is entered, and some of its transitions are deferred. -/
theorem Invariant.passed (invariant : bounded.Invariant run automaton initial root)
    (unreported : bounded.search.counterExample = none) {frame : Frame} {opened : Search}
    (coherent : opened.Coherent automaton initial run.space)
    (enters : Search.Enters frame bounded.search opened)
    {entries : List (ProductTransitionId × ProductTransition)} {passed : BoundedSearch}
    (passes : Passes entries { bounded with search := opened } passed) :
    passed.search.Faithful run automaton initial root := by
  have defers := passes.defers
  refine (invariant.faithful.entered enters coherent unreported).reshaped defers.touches.shape ?_ ?_
  · exact coherent.marked defers.touches defers.colour defers.stack defers.next
      defers.counterExample
  · exact defers.counterExample.trans (enters.counterExample.trans unreported)

/-- The search begins with the initial state, so that is explored by then. -/
theorem Invariant.begun_of_enters (invariant : bounded.Invariant run automaton initial root)
    {frame : Frame} (next : bounded.search.next = some frame) {opened : Search}
    (enters : Search.Enters frame bounded.search opened) :
    opened.round.isExplored (opened.product.colour initial) = true := by
  obtain ⟨_, _, _, unreported⟩ := invariant.faithful.coherent.pending next
  refine enters.isExplored ((invariant.begun unreported).imp_right ?_)
  rintro ⟨first, isNext, isInitial⟩
  rw [next] at isNext
  cases isNext
  exact isInitial.symm

/-- A state at which no cycle is found is completed. -/
theorem Invariant.completes (invariant : bounded.Invariant run automaton initial root)
    {frame : Frame} (next : bounded.search.next = some frame)
    (systemClosed :
      run.space.isClosed (bounded.search.product.systemState frame.state) = true)
    {explored : BoundedSearch}
    (explores : ({ bounded with search := bounded.search.entered frame }).exploreState run.space
      frame.state = (.ok false, explored)) :
    explored.search.Faithful run automaton initial root ∧
      explored.Knows automaton initial run.space ∧ explored.ClosedWhenPainted ∧
      explored.search.next = none ∧
      explored.search.round.isExplored (explored.search.product.colour initial) = true := by
  obtain ⟨_, _, _, unreported⟩ := invariant.faithful.coherent.pending next
  have knows := invariant.knows unreported
  have closed := invariant.closed unreported
  obtain ⟨opened, passed, coherent, enters, passes, outcome⟩ := exploreState_cases
    invariant.faithful.history.wellFormed knows closed next systemClosed explores
  have defers := passes.defers
  have faithful := invariant.passed unreported coherent enters passes
  rcases outcome with ⟨impossible, _⟩ | ⟨_, rfl, noCycle⟩
  · cases impossible
  · have painted : passed.search.product.colour frame.state ≠ .unpainted := by
      rw [defers.colour, enters.colour, if_pos rfl]
      exact Colour.noConfusion
    have knowsPassed : passed.Knows automaton initial run.space :=
      knows.entered coherent enters passes noCycle
    obtain ⟨knowsAfter, closedAfter⟩ := knowsPassed.completed painted (by
      intro state other
      rw [defers.isClosed, enters.isClosed, defers.colour, enters.colour, if_neg other]
      exact closed state)
    refine ⟨?_, knowsAfter, closedAfter, ?_, ?_⟩
    · exact faithful.reshaped (passed.touches_completed _).shape knowsAfter.coherent
        knowsAfter.unreported
    · exact defers.next.trans enters.next
    · rw [(passed.touches_completed _).round, passed.colour_completed, defers.touches.round,
        defers.colour]
      exact invariant.begun_of_enters next enters

/-- A visit of the next frame keeps the invariant. -/
theorem Invariant.visit (invariant : bounded.Invariant run automaton initial root)
    {frame : Frame} (next : bounded.search.next = some frame)
    (systemClosed :
      run.space.isClosed (bounded.search.product.systemState frame.state) = true)
    {found : Bool} {explored : BoundedSearch}
    (explores : ({ bounded with search := bounded.search.entered frame }).exploreState run.space
      frame.state = (.ok found, explored))
    (answer : explored.proceed run found = (.ok (), after, later)) :
    after.Invariant later automaton initial root := by
  cases found with
  | false =>
      obtain ⟨faithful, knows, closed, stopped, begun⟩ :=
        invariant.completes next systemClosed explores
      exact proceed_invariant faithful knows closed stopped begun answer
  | true =>
      obtain ⟨_, _, _, unreported⟩ := invariant.faithful.coherent.pending next
      obtain ⟨opened, passed, coherent, enters, passes, outcome⟩ := exploreState_cases
        invariant.faithful.history.wellFormed (invariant.knows unreported)
        (invariant.closed unreported) next systemClosed explores
      have defers := passes.defers
      rcases outcome with ⟨_, rfl, handle, transition, member, closes⟩ | ⟨impossible, _⟩
      · have faithful := invariant.passed unreported coherent enters passes
        rw [← defers.touches.shape.outgoing] at member
        have closesAfter : explored.search.closesCycle handle = true :=
          (defers.closesCycle handle).trans closes
        cases answer
        exact .reported faithful
          (faithful.coherent.closesLoop (defers.stack.trans enters.stack) member closesAfter)
      · cases impossible

theorem doNext_invariant (invariant : bounded.Invariant run automaton initial root)
    (step : bounded.doNext run = (result, after, later))
    (unbroken : ∀ breach, result ≠ .error (.breach breach)) :
    after.Invariant later automaton initial root := by
  unfold doNext at step
  split at step
  · cases step
    exact invariant
  · rename_i frame next
    obtain ⟨_, _, _, unreported⟩ := invariant.faithful.coherent.pending next
    have contained := invariant.faithful.coherent.contains_next next
    have advanced := Exploration.advances_closeState run
      (bounded.search.product.systemState frame.state)
    have systemClosed := (Exploration.closeState_closes invariant.faithful.history contained).1
    simp only at step
    rw [invariant.faithful.coherent.enter_eq next] at step
    split at step
    · rename_i failure closing close
      cases step
      rw [close] at advanced
      exact invariant.advances advanced unreported
    · rename_i applied closing close
      rw [close] at advanced systemClosed
      have visiting := invariant.advances
        (advanced.trans (Exploration.advances_track closing
          ({ · with stackDepth := (bounded.search.entered frame).stack.length }))) unreported
      simp only at step
      split at step
      · rename_i breach _ _
        cases step
        exact absurd rfl (unbroken breach)
      · rename_i found explored explores
        split at step
        · rename_i breach _ _ _
          cases step
          exact absurd rfl (unbroken breach)
        · rename_i moved goneOn proceeds
          cases step
          exact visiting.visit next (systemClosed applied rfl) explores proceeds

/-- A prepared search keeps the invariant. -/
theorem prepare_invariant {ready : BoundedSearch} (history : run.space.HasHistory)
    (contained : run.space.contains run.start = true)
    (installed : bounded.search.automaton = some automaton)
    (prepare : bounded.prepare run = .ok (ready, later)) :
    ∃ initial, ready.Invariant later automaton initial (run.start, automaton.initial) := by
  obtain ⟨search, initial, reset, pristine, coherent, rooted⟩ :=
    Search.reset_eq_ok installed contained
  unfold BoundedSearch.prepare at prepare
  rw [reset] at prepare
  cases prepare
  obtain ⟨known, _⟩ := coherent.pending pristine.next
  have unpainted : ∀ state, ¬ search.Finished state := fun state finished =>
    Search.painted_of_isExplored finished.1 (pristine.colour state)
  have notPocket : ∀ {state}, search.product.isPocket state ≠ true := by
    intro state isPocket
    rw [pristine.isPocket state] at isPocket
    cases isPocket
  refine ⟨initial, ⟨history, coherent, known, rooted, ?_⟩, fun _ => ?_, fun _ state => ?_,
    fun _ => .inr ⟨_, pristine.next, rfl⟩, fun _ _ => pristine.stack⟩
  · intro states reported
    rw [pristine.counterExample] at reported
    cases reported
  · constructor
    · exact coherent
    · refine ⟨?_, fun _ finished => absurd finished (unpainted _),
        fun _ finished => absurd finished (unpainted _)⟩
      rw [Search.onStack_eq_nil pristine.stack]
      trivial
    · exact ⟨fun pocket => absurd pocket notPocket, fun pocket => absurd pocket notPocket,
        fun pocket => absurd pocket notPocket, fun pocket => absurd pocket notPocket,
        fun _ finished => absurd finished (unpainted _)⟩
    · exact nofun
    · exact pristine.counterExample
    · intro state iteration paint painted
      rw [pristine.colour state] at painted
      cases painted
  · simp [pristine.isClosed state, pristine.colour state]

end Step

/-! ## Whole runs -/

section Run

variable {A : Type} [Acceptor R A] {automaton : Automaton} {initial : ProductStateId}
  {root : ProductPoint} {bounded after : BoundedSearch} {run later : Exploration R A}

theorem strategy_prepare {ready : BoundedSearch} {opened : Exploration R A} :
    Strategy.prepare bounded run = (.ok (), ready, opened) ↔
      bounded.prepare run = .ok (ready, opened) := by
  cases prepared : bounded.prepare run <;> simp [Strategy.prepare, prepared, Prod.ext_iff]

omit [Acceptor R A] in
theorem strategy_hasNext :
    Strategy.hasNext R bounded = true ↔ ∃ frame, bounded.search.next = some frame :=
  Option.isSome_iff_exists

theorem exists_prepare (installed : bounded.search.automaton = some automaton)
    (contained : run.space.contains run.start = true) :
    ∃ ready opened, Strategy.prepare bounded run = (.ok (), ready, opened) := by
  obtain ⟨search, _, reset, _⟩ := Search.reset_eq_ok installed contained
  simp only [strategy_prepare, BoundedSearch.prepare, reset]
  exact ⟨_, _, rfl⟩

theorem driven_invariant (history : run.space.HasHistory)
    (contained : run.space.contains run.start = true)
    (installed : bounded.search.automaton = some automaton)
    (driven : Driven bounded run after later) :
    ∃ initial, after.Invariant later automaton initial (run.start, automaton.initial) := by
  induction driven with
  | prepared prepare =>
      exact prepare_invariant history contained installed (strategy_prepare.1 prepare)
  | stepped _ step unbroken inductionHypothesis =>
      obtain ⟨initial, invariant⟩ := inductionHypothesis
      exact ⟨initial, doNext_invariant invariant step unbroken⟩
  | observed progress stopRequested _ inductionHypothesis =>
      obtain ⟨initial, invariant⟩ := inductionHypothesis
      exact ⟨initial, { invariant with faithful := { invariant.faithful with } }⟩

/-- A search that has come to its end with nothing deferred has been at every
point that the product can reach, or knows it to be a pocket. -/
theorem Invariant.reached (invariant : bounded.Invariant run automaton initial root)
    (stopped : bounded.search.next = none) (unreported : bounded.search.counterExample = none)
    (nothing : bounded.deferred = []) {evolved : StateSpace R}
    (evolves : run.space.Evolves evolved) {point : ProductPoint}
    (reached : Reaches evolved automaton root point) :
    ∃ state, (bounded.search.Finished state ∨ bounded.search.product.isPocket state = true) ∧
      bounded.search.product.point state = point := by
  have wellFormed := invariant.faithful.history.wellFormed
  have knows := invariant.knows unreported
  have stack := invariant.resting unreported stopped
  have empty := Search.onStack_eq_nil stack
  have first := Search.finished_of_begun stopped stack (invariant.begun unreported)
  rw [← invariant.faithful.rooted] at reached
  refine invariant.faithful.coherent.covers wellFormed (evolves.continues wellFormed).kept
    (.inl first) ?_ ?_ reached
  · rintro state (finished | isPocket)
    · exact Search.painted_of_isExplored finished.1
    · exact knows.pockets.painted isPocket
  · rintro state target (finished | isPocket) linked
    · rcases knows.examined.followed nothing finished linked with explored | isPocket
      · exact .inl ⟨explored, by simp [empty]⟩
      · exact .inr isPocket
    · obtain ⟨handle, transition, member, rfl⟩ := linked
      rcases knows.pockets.followed isPocket member with isPocketTarget | ⟨_, waiting⟩
      · exact .inr isPocketTarget
      · simp [empty] at waiting

/-- So it leaves no covered cycle. -/
theorem Invariant.not_covered (invariant : bounded.Invariant run automaton initial root)
    (stopped : bounded.search.next = none) (unreported : bounded.search.counterExample = none)
    (nothing : bounded.deferred = []) : ¬ HasCoveredCycle run.space automaton root := by
  have knows := invariant.knows unreported
  rintro ⟨point, reached, cycle⟩
  obtain ⟨state, known, rfl⟩ := invariant.reached stopped unreported nothing .refl reached
  rcases known with finished | isPocket
  · exact (knows.examined.settled nothing finished _ .refl).no_cycle cycle
  · exact (knows.pockets.settled isPocket _ .refl).no_cycle cycle

end Run

end BoundedSearch

end OnTheFly
