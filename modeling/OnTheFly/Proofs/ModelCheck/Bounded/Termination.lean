import Mathlib.Data.Set.Card
import OnTheFly.Proofs.Exploration.Steps
import OnTheFly.Proofs.ModelCheck.Bounded.Accounting
import OnTheFly.Proofs.ModelCheck.Coverage
import OnTheFly.Proofs.ModelCheck.Termination
import OnTheFly.Proofs.Product.Graphs
import OnTheFly.Proofs.RuleSystem.Labelled

/-!
Contract: the bounded search comes to an end.

Owns: that over a finite product every step of the bounded search succeeds, that
no product state is entered twice in one iteration, and that the iterations do
not outnumber the points of the product by more than one.
Does not own: what the search has found when it ends.
-/

set_option autoImplicit false

namespace OnTheFly

variable {R : RuleSystem}

/-- From a reachable graph the product reaches pairs of a reachable graph and a
location only. -/
theorem reachablePoints_subset {automaton : Automaton} (located : automaton.Located)
    {graph : R.Graph} (reachable : R.Reachable graph) :
    reachablePoints R automaton (graph, automaton.initial) ⊆ LtlSearch.possible R automaton := by
  intro point reached
  refine ⟨?_, reachablePoints.location? located located.initial reached⟩
  induction reached with
  | refl => exact reachable
  | tail _ step inductionHypothesis =>
      cases step with
      | move _ _ _ offered leads =>
          obtain ⟨engine, outcome, applied, rfl⟩ := leads
          exact .apply inductionHypothesis offered applied
      | stay => exact inductionHypothesis

/-! ## The arena within the product -/

namespace Search

variable {search after : Search} {automaton : Automaton} {initial : ProductStateId}
  {space later : StateSpace R} {origin : GraphPoint R}

/-- Whether all product states stand for points that the product of the rules
reaches from `origin`. -/
def Traced (search : Search) (space : StateSpace R) (automaton : Automaton)
    (origin : GraphPoint R) : Prop :=
  ∀ state entry, search.product.state? state = some entry →
    ∃ graph, space.graph? entry.state = some graph ∧
      (graph, entry.location) ∈ reachablePoints R automaton origin

namespace Traced

theorem reshaped (traced : search.Traced space automaton origin)
    (shape : search.product.SameShape after.product) : after.Traced space automaton origin := by
  intro state entry present
  obtain ⟨before, presentBefore, sameState, sameLocation, _⟩ := shape.symm.state? present
  rw [← sameState, ← sameLocation]
  exact traced state before presentBefore

theorem extended (traced : search.Traced space automaton origin) (kept : space.Extends later) :
    search.Traced later automaton origin := by
  intro state entry present
  obtain ⟨graph, stored, reached⟩ := traced state entry present
  exact ⟨graph, kept.graph stored, reached⟩

/-- Expanding a state whose system state is closed only follows the product. -/
theorem opened (traced : search.Traced space automaton origin) (history : space.HasHistory)
    {frame : Frame} {entry : ProductState}
    (present : search.product.state? frame.state = some entry)
    (closed : space.isClosed (search.product.systemState frame.state) = true)
    {location : Location}
    (here : automaton.location? (search.product.location frame.state) = some location) :
    (search.opened space frame location).Traced space automaton origin := by
  intro state added found
  rcases Product.addSteps_pair found with ⟨middle, foundMiddle, sameState, sameLocation⟩ |
    ⟨step, member, sameState, sameLocation⟩
  · rw [← sameState, ← sameLocation]
    exact traced.reshaped (search.sameShape_entered frame) state middle foundMiddle
  · have follows := (mem_productSteps_iff here step).1 member
    obtain ⟨graph, stored, reached⟩ := traced frame.state entry present
    have point := Product.point_of_state? present
    simp only [Product.point, Prod.mk.injEq] at point
    rw [point.1] at closed follows
    rw [point.2] at follows
    obtain ⟨target, storedTarget, graphStep⟩ := history.graphStep stored closed follows
    rw [← sameState, ← sameLocation]
    exact ⟨target, storedTarget, Relation.ReflTransGen.tail reached graphStep⟩

/-- There are no more product states than points of the product. -/
theorem size_le (traced : search.Traced space automaton origin)
    (arena : search.product.WellFormed) (wellFormed : space.WellFormed)
    (finite : (reachablePoints R automaton origin).Finite) :
    search.product.states.size ≤ (reachablePoints R automaton origin).ncard := by
  have present : ∀ position : Fin search.product.states.size,
      ∃ entry, search.product.state? ⟨position⟩ = some entry := fun position =>
    ⟨_, Array.getElem?_eq_getElem position.isLt⟩
  choose entryOf found using present
  choose graphOf stored reached using fun position => traced _ _ (found position)
  have injective : Function.Injective fun position : Fin search.product.states.size =>
      (⟨(graphOf position, (entryOf position).location), reached position⟩ :
        reachablePoints R automaton origin) := by
    intro first second same
    have samePoint := congrArg Subtype.val same
    simp only [Prod.mk.injEq] at samePoint
    have sameState := wellFormed.stored_once (stored first) (samePoint.1 ▸ stored second)
    have sameProduct := arena.point_injective (found first) (found second) (by
      rw [Product.point_of_state? (found first), Product.point_of_state? (found second), sameState,
        samePoint.2])
    exact Fin.ext (congrArg ProductStateId.index sameProduct)
  have := finite.to_subtype
  have bound := Nat.card_le_card_of_injective _ injective
  rwa [Nat.card_fin, Nat.card_coe_set_eq] at bound

end Traced

theorem Pristine.traced (pristine : search.Pristine initial) {start : StateId} {graph : R.Graph}
    (rooted : search.product.point initial = (start, automaton.initial))
    (stored : space.graph? start = some graph) :
    search.Traced space automaton (graph, automaton.initial) := by
  intro state entry present
  have isInitial := pristine.alone present
  subst isInitial
  rw [Product.point_of_state? present, Prod.mk.injEq] at rooted
  rw [rooted.1, rooted.2]
  exact ⟨graph, stored, .refl⟩

/-- The stack holds each product state at most once. -/
theorem Coherent.length_stack_le (coherent : search.Coherent automaton initial space) :
    search.stack.length ≤ search.product.states.size := by
  have distinct : (search.onStack.map (·.index)).Nodup :=
    coherent.distinct.map fun first second same => congrArg ProductStateId.mk same
  have inside : search.onStack.map (·.index) ⊆ List.range search.product.states.size := by
    intro position member
    obtain ⟨state, onStack, rfl⟩ := List.mem_map.1 member
    obtain ⟨entry, present⟩ := Product.present_of_colour (coherent.painted_of_mem onStack)
    exact List.mem_range.2 (Array.getElem?_eq_some_iff.1 present).1
  have shorter := (distinct.subperm inside).length_le
  simpa [onStack] using shorter

end Search

namespace BoundedSearch

/-! ## One step -/

section Step

variable {A : Type} [Acceptor R A] {automaton : Automaton} {initial : ProductStateId}
  {root : ProductPoint} {origin : GraphPoint R} {bounded : BoundedSearch}
  {run : Exploration R A}

/-- The invariant of a bounded search over a finite product. -/
structure Confined (bounded : BoundedSearch) (run : Exploration R A) (automaton : Automaton)
    (initial : ProductStateId) (root : ProductPoint) (origin : GraphPoint R) : Prop where
  invariant : bounded.Invariant run automaton initial root
  succeeds : R.Succeeds run.space.engine
  traced : bounded.search.Traced run.space automaton origin
  balanced : ∃ boundary, bounded.Balanced bounded.frames boundary
    (reachablePoints R automaton origin).ncard

/-- What a step that enters the frame does to what has been explored. -/
structure Visits (frame : Frame) (bounded after : BoundedSearch) : Prop where
  present {state : ProductStateId} {entry : ProductState} :
    bounded.search.product.state? state = some entry →
      ∃ entryAfter, after.search.product.state? state = some entryAfter
  paces : (after.search.round = bounded.search.round ∧ ∀ state,
      bounded.search.round.isExplored (bounded.search.product.colour state) = true ∨
        state = frame.state →
      bounded.search.round.isExplored (after.search.product.colour state) = true) ∨
    after.search.round = bounded.search.round.next

/-- What entering a frame and looking for a cycle there establishes. -/
structure Surveys (frame : Frame) (bounded explored : BoundedSearch) (space : StateSpace R)
    (automaton : Automaton) (origin : GraphPoint R) : Prop where
  balanced : ∃ boundary, explored.Balanced explored.search.stack boundary
    (reachablePoints R automaton origin).ncard
  within : explored.search.stack.length ≤ (reachablePoints R automaton origin).ncard
  stopped : explored.search.next = none
  traced : explored.search.Traced space automaton origin
  present {state : ProductStateId} {entry : ProductState} :
    bounded.search.product.state? state = some entry →
      ∃ entryAfter, explored.search.product.state? state = some entryAfter
  round : explored.search.round = bounded.search.round
  isExplored {state : ProductStateId} :
    bounded.search.round.isExplored (bounded.search.product.colour state) = true ∨
      state = frame.state →
    bounded.search.round.isExplored (explored.search.product.colour state) = true

/-- The next frame can be expanded, and the stack stays as short as the product
allows. -/
theorem Confined.opens (confined : bounded.Confined run automaton initial root origin)
    (located : automaton.Located)
    (first : ∃ location, automaton.location? origin.2 = some location)
    (finite : (reachablePoints R automaton origin).Finite) {frame : Frame}
    (next : bounded.search.next = some frame)
    (systemClosed :
      run.space.isClosed (bounded.search.product.systemState frame.state) = true) :
    ∃ opened, (bounded.search.entered frame).expandOnce run.space frame.state = .ok opened ∧
      opened.Traced run.space automaton origin ∧ Search.Enters frame bounded.search opened ∧
      opened.stack.length ≤ (reachablePoints R automaton origin).ncard := by
  have history := confined.invariant.faithful.history
  obtain ⟨⟨entry, present⟩, _, _, unreported⟩ :=
    confined.invariant.faithful.coherent.pending next
  have knows := confined.invariant.knows unreported
  obtain ⟨location, here⟩ : ∃ location,
      automaton.location? (bounded.search.product.location frame.state) = some location := by
    obtain ⟨graph, _, reached⟩ := confined.traced frame.state entry present
    have found := reachablePoints.location? located first reached
    simpa [Product.location, present] using found
  obtain ⟨opened, expand, traced⟩ : ∃ opened,
      (bounded.search.entered frame).expandOnce run.space frame.state = .ok opened ∧
        opened.Traced run.space automaton origin := by
    unfold Search.expandOnce
    split
    · exact ⟨_, rfl, confined.traced.reshaped (bounded.search.sameShape_entered frame)⟩
    · exact ⟨_, (Search.expand_entered knows.coherent.installed).2 ⟨location, here, rfl⟩,
        confined.traced.opened history present systemClosed here⟩
  obtain ⟨coherent, enters⟩ := expandOnce_enters history.wellFormed knows
    (confined.invariant.closed unreported) next systemClosed expand
  exact ⟨opened, expand, traced, enters, Nat.le_trans coherent.length_stack_le
    (traced.size_le coherent.arena history.wellFormed finite)⟩

/-- Entering a state and looking for a cycle there succeeds. -/
theorem Confined.explores (confined : bounded.Confined run automaton initial root origin)
    (located : automaton.Located)
    (first : ∃ location, automaton.location? origin.2 = some location)
    (finite : (reachablePoints R automaton origin).Finite) {frame : Frame}
    (next : bounded.search.next = some frame)
    (systemClosed :
      run.space.isClosed (bounded.search.product.systemState frame.state) = true) :
    ∃ found explored,
      ({ bounded with search := bounded.search.entered frame }).exploreState run.space
          frame.state = (.ok found, explored) ∧
        Surveys frame bounded explored run.space automaton origin := by
  obtain ⟨opened, expand, traced, enters, within⟩ :=
    confined.opens located first finite next systemClosed
  obtain ⟨boundary, balanced⟩ := confined.balanced
  have path : bounded.frames = opened.stack := by
    rw [frames, next, enters.stack]
    rfl
  rw [path] at balanced
  have balancedOpened : ({ bounded with search := opened } : BoundedSearch).Balanced opened.stack
      boundary (reachablePoints R automaton origin).ncard :=
    balanced.same rfl rfl (congrArg Round.iteration enters.round) balanced.deferring
  have nonempty : opened.stack ≠ [] := by
    rw [enters.stack]
    exact List.cons_ne_nil _ _
  obtain ⟨found, passed, look, accountedPassed, looks, _⟩ :=
    balancedOpened.toAccounted.findCycle run.space (opened.product.outgoing frame.state)
  have balancedPassed :=
    balancedOpened.looked (balanced.depth_lt nonempty within) looks accountedPassed
  have defers := (findCycle_spec look).1.defers
  -- Completing the state only sets a mark.
  obtain ⟨explored, answer, touches, colour, sameStack, sameNext, sameAccount⟩ :
      ∃ explored, ({ bounded with search := bounded.search.entered frame }).exploreState run.space
          frame.state = (.ok found, explored) ∧
        passed.search.Touches explored.search ∧
        explored.search.product.colour = passed.search.product.colour ∧
        explored.search.stack = passed.search.stack ∧
        explored.search.next = passed.search.next ∧
        explored.prototype = passed.prototype ∧ explored.boundary = passed.boundary ∧
        explored.deferred = passed.deferred := by
    unfold exploreState
    simp only [expand, look]
    cases found with
    | true => exact ⟨passed, rfl, ⟨rfl, rfl, rfl, .refl _⟩, rfl, rfl, rfl, rfl, rfl, rfl⟩
    | false =>
        exact ⟨passed.completed frame.state, rfl, passed.touches_completed _,
          passed.colour_completed _, rfl, rfl, rfl, rfl, rfl⟩
  obtain ⟨samePrototype, sameBoundary, sameDeferred⟩ := sameAccount
  have stack : explored.search.stack = opened.stack := sameStack.trans defers.stack
  have round : explored.search.round = bounded.search.round :=
    touches.round.trans (defers.touches.round.trans enters.round)
  have shape := defers.touches.shape.trans touches.shape
  refine ⟨found, explored, answer, ⟨boundary, ?_⟩, ?_, ?_, traced.reshaped shape, ?_, round, ?_⟩
  · rw [stack]
    refine balancedPassed.same samePrototype sameBoundary
      (congrArg Round.iteration touches.round) ?_
    rw [sameDeferred]
    exact balancedPassed.deferring
  · rw [stack]
    exact within
  · exact sameNext.trans (defers.next.trans enters.next)
  · intro state before presentBefore
    obtain ⟨entryOpened, presentOpened⟩ := enters.present presentBefore
    obtain ⟨entryAfter, presentAfter, _⟩ := shape.state? presentOpened
    exact ⟨entryAfter, presentAfter⟩
  · intro state known
    have exploredOpened := enters.isExplored known
    rw [enters.round] at exploredOpened
    rw [colour, defers.colour]
    exact exploredOpened

/-- Reporting a cycle or walking back succeeds. -/
theorem Confined.proceeds (confined : bounded.Confined run automaton initial root origin)
    {frame : Frame} (next : bounded.search.next = some frame)
    (systemClosed :
      run.space.isClosed (bounded.search.product.systemState frame.state) = true)
    {found : Bool} {explored : BoundedSearch}
    (explores : ({ bounded with search := bounded.search.entered frame }).exploreState run.space
      frame.state = (.ok found, explored))
    (surveys : Surveys frame bounded explored run.space automaton origin) :
    ∃ after later, explored.proceed run found = (.ok (), after, later) ∧
      after.Confined later automaton initial root origin ∧ Visits frame bounded after ∧
      later.config = run.config := by
  obtain ⟨boundary, balanced⟩ := surveys.balanced
  cases found with
  | true =>
      have proceeds : explored.proceed run true =
          (.ok (), { explored with search := (explored.search.report run).1 },
            (explored.search.report run).2) := rfl
      refine ⟨_, _, proceeds, ?_, ⟨surveys.present, .inl ⟨surveys.round, fun state known => ?_⟩⟩,
        rfl⟩
      · exact
          { invariant := confined.invariant.visit next systemClosed explores proceeds
            succeeds := confined.succeeds
            traced := surveys.traced
            balanced := ⟨boundary, { balanced with }⟩ }
      · exact surveys.isExplored known
  | false =>
      obtain ⟨faithful, knows, closed, _, begun⟩ :=
        confined.invariant.completes next systemClosed explores
      obtain ⟨after, boundaryAfter, walk, balancedAfter⟩ :=
        balanced.retreat surveys.within rfl surveys.stopped run.space run.config
      have retreats := retreat_spec faithful.history.wellFormed knows closed faithful.known
        surveys.stopped rfl begun walk
      obtain ⟨later, proceeds, sameSpace, sameConfig⟩ : ∃ later,
          explored.proceed run false = (.ok (), after, later) ∧ later.space = run.space ∧
            later.config = run.config := by
        unfold proceed
        simp only [Bool.false_eq_true, if_false, walk]
        split
        · exact ⟨_, rfl, rfl, rfl⟩
        · exact ⟨_, rfl, rfl, rfl⟩
      refine ⟨after, later, proceeds, ?_, ⟨?_, ?_⟩, sameConfig⟩
      · exact
          { invariant := confined.invariant.visit next systemClosed explores proceeds
            succeeds := sameSpace ▸ confined.succeeds
            traced := sameSpace ▸ surveys.traced.reshaped retreats.shape
            balanced := ⟨boundaryAfter, balancedAfter⟩ }
      · intro state entry present
        obtain ⟨entryExplored, presentExplored⟩ := surveys.present present
        exact (retreats.shape.state? presentExplored).imp fun _ => And.left
      · have paces := retreats.paces
        unfold Paces at paces
        rw [surveys.round] at paces
        exact paces.imp_left fun ⟨same, explored⟩ =>
          ⟨same, fun state known => explored state (surveys.isExplored known)⟩

/-- Over a finite product a step that has something to do succeeds. -/
theorem Confined.doNext (confined : bounded.Confined run automaton initial root origin)
    (located : automaton.Located)
    (first : ∃ location, automaton.location? origin.2 = some location)
    (finite : (reachablePoints R automaton origin).Finite) {frame : Frame}
    (next : bounded.search.next = some frame) :
    ∃ state after later, bounded.doNext run = (.ok state, after, later) ∧
      after.Confined later automaton initial root origin ∧ Visits frame bounded after ∧
      later.config = run.config := by
  have invariant := confined.invariant
  have contained := invariant.faithful.coherent.contains_next next
  obtain ⟨_, _, _, unreported⟩ := invariant.faithful.coherent.pending next
  obtain ⟨closes, closesIf⟩ :=
    Exploration.closeState_closes invariant.faithful.history contained
  obtain ⟨applied, ok⟩ := closesIf confined.succeeds
  have advanced := Exploration.advances_closeState run
    (bounded.search.product.systemState frame.state)
  cases close : run.closeState (bounded.search.product.systemState frame.state) with
  | mk result closing =>
      rw [close] at ok advanced closes
      cases ok
      have tracked := advanced.trans (Exploration.advances_track closing
        ({ · with stackDepth := (bounded.search.entered frame).stack.length }))
      have visiting : bounded.Confined (closing.track
          ({ · with stackDepth := (bounded.search.entered frame).stack.length })) automaton initial
          root origin :=
        { invariant := invariant.advances tracked unreported
          succeeds := confined.succeeds.after tracked.engine
          traced := confined.traced.extended
            (tracked.space.continues invariant.faithful.history.wellFormed).kept
          balanced := confined.balanced }
      have systemClosed := closes applied rfl
      obtain ⟨found, explored, explores, surveys⟩ :=
        visiting.explores located first finite next systemClosed
      obtain ⟨after, later, proceeds, confinedAfter, visits, sameConfig⟩ :=
        visiting.proceeds next systemClosed explores surveys
      refine ⟨bounded.search.product.systemState frame.state, after, later, ?_, confinedAfter,
        visits, sameConfig.trans tracked.config⟩
      simp only [BoundedSearch.doNext, next, close, invariant.faithful.coherent.enter_eq next,
        explores]
      rw [proceeds]

end Step

/-! ## Whole runs -/

/-- What the steps of a trail push: the iteration and the product state. -/
def pushes (trail : List (BoundedSearch × StateId)) : List (Nat × ProductStateId) :=
  trail.filterMap fun entry =>
    entry.1.search.next.map fun frame => (entry.1.iteration, frame.state)

/-- The account of what has been pushed on the way to a search. -/
structure Paced (trail : List (BoundedSearch × StateId)) (bounded : BoundedSearch) : Prop where
  distinct : (pushes trail).Nodup
  all : (pushes trail).length = trail.length
  begun : ∀ push ∈ pushes trail, 1 ≤ push.1 ∧ push.1 ≤ bounded.iteration
  present : ∀ push ∈ pushes trail, ∃ entry, bounded.search.product.state? push.2 = some entry
  explored : ∀ push ∈ pushes trail, push.1 = bounded.iteration →
    bounded.search.round.isExplored (bounded.search.product.colour push.2) = true

section Run

variable {A : Type} [Acceptor R A] {automaton : Automaton} {initial : ProductStateId}
  {root : ProductPoint} {origin : GraphPoint R} {graph : R.Graph} {bounded after : BoundedSearch}
  {run : Exploration R A} {trail : List (BoundedSearch × StateId)}

/-- A visited state has not been pushed in this iteration yet. -/
theorem Paced.visit (paced : Paced trail bounded) {frame : Frame}
    (next : bounded.search.next = some frame)
    (unexplored :
      bounded.search.round.isExplored (bounded.search.product.colour frame.state) = false)
    {entry : ProductState} (present : bounded.search.product.state? frame.state = some entry)
    (positive : 1 ≤ bounded.iteration) (visits : Visits frame bounded after) (state : StateId) :
    Paced (trail ++ [(bounded, state)]) after := by
  have pushed : pushes (trail ++ [(bounded, state)]) =
      pushes trail ++ [(bounded.iteration, frame.state)] := by
    simp [pushes, next]
  have isNew : (bounded.iteration, frame.state) ∉ pushes trail := by
    intro member
    have explored := paced.explored _ member rfl
    rw [unexplored] at explored
    cases explored
  have later : bounded.iteration ≤ after.iteration := by
    unfold iteration
    rcases visits.paces with ⟨same, _⟩ | again
    · rw [same]
    · rw [again]
      exact Nat.le_succ _
  constructor
  · rw [pushed]
    refine List.nodup_append.2 ⟨paced.distinct, List.nodup_singleton _, ?_⟩
    intro push member other isOther same
    rw [List.mem_singleton.1 isOther] at same
    exact isNew (same ▸ member)
  · rw [pushed, List.length_append, paced.all, List.length_append]
    rfl
  · intro push member
    rw [pushed, List.mem_append, List.mem_singleton] at member
    rcases member with before | rfl
    · have bounds := paced.begun push before
      exact ⟨bounds.1, Nat.le_trans bounds.2 later⟩
    · exact ⟨positive, later⟩
  · intro push member
    rw [pushed, List.mem_append, List.mem_singleton] at member
    rcases member with before | rfl
    · obtain ⟨known, found⟩ := paced.present push before
      exact visits.present found
    · exact visits.present present
  · intro push member isNow
    rw [pushed, List.mem_append, List.mem_singleton] at member
    rcases visits.paces with ⟨same, explored⟩ | again
    · rw [same]
      refine explored push.2 ?_
      rcases member with before | rfl
      · refine .inl (paced.explored push before (isNow.trans ?_))
        exact congrArg Round.iteration same
      · exact .inr rfl
    · -- In a new iteration nothing has been pushed yet.
      have fresh : after.iteration = bounded.iteration + 1 := congrArg Round.iteration again
      rcases member with before | rfl
      · have bounds := paced.begun push before
        omega
      · simp only at isNow
        omega

/-- No more is pushed than there are product states in each iteration. -/
theorem Paced.length_le (paced : Paced trail bounded) :
    trail.length ≤ bounded.search.product.states.size * bounded.iteration := by
  have inside : pushes trail ⊆ List.range' 1 bounded.iteration ×ˢ
      (List.range bounded.search.product.states.size).map ProductStateId.mk := by
    rintro ⟨iteration, state⟩ member
    obtain ⟨entry, found⟩ := paced.present _ member
    have bounds := paced.begun _ member
    refine List.mem_product.2 ⟨?_, ?_⟩
    · simp only [List.mem_range'_1]
      simp only at bounds
      omega
    · refine List.mem_map.2 ⟨state.index, ?_, rfl⟩
      exact List.mem_range.2 (Array.getElem?_eq_some_iff.1 found).1
  have shorter := (paced.distinct.subperm inside).length_le
  rw [paced.all, List.length_product, List.length_range', List.length_map,
    List.length_range] at shorter
  rw [Nat.mul_comm]
  exact shorter

/-- A prepared search is confined to the product. -/
theorem prepare_confined {ready : BoundedSearch} {later : Exploration R A}
    (history : run.space.HasHistory) (stored : run.space.graph? run.start = some graph)
    (installed : bounded.search.automaton = some automaton)
    (succeeds : R.Succeeds run.space.engine)
    (fits : bounded.prototype.limit.Fits
      (reachablePoints R automaton (graph, automaton.initial)).ncard)
    (prepare : bounded.prepare run = .ok (ready, later)) :
    ∃ initial, ready.Confined later automaton initial (run.start, automaton.initial)
      (graph, automaton.initial) ∧ later.config = run.config := by
  have contained : run.space.contains run.start = true := by
    obtain ⟨info, found, _⟩ := StateSpace.graph?_eq_some.1 stored
    exact StateSpace.contains_iff.2 ⟨info, found⟩
  obtain ⟨initial, invariant⟩ := prepare_invariant history contained installed prepare
  obtain ⟨accounted, nothing, isFirst, prototype⟩ := prepare_accounted prepare
  obtain ⟨search, first, reset, pristine, _, rooted⟩ :=
    Search.reset_eq_ok installed contained
  unfold BoundedSearch.prepare at prepare
  rw [reset] at prepare
  cases prepare
  refine ⟨initial, ⟨invariant, succeeds, pristine.traced rooted stored,
    bounded.prototype.instantiate, accounted, ?_, ?_, fits⟩, rfl⟩
  · exact fun deferred => absurd nothing deferred
  · rw [isFirst]
    exact Nat.le_add_left 1 _

/-- Along a run over a finite product the search stays confined to it. -/
theorem made_confined {now : Exploration R A} (history : run.space.HasHistory)
    (stored : run.space.graph? run.start = some graph)
    (installed : bounded.search.automaton = some automaton) (located : automaton.Located)
    (succeeds : R.Succeeds run.space.engine)
    (finite : (reachablePoints R automaton (graph, automaton.initial)).Finite)
    (fits : bounded.prototype.limit.Fits
      (reachablePoints R automaton (graph, automaton.initial)).ncard)
    (made : Made bounded run trail after now) :
    ∃ initial, after.Confined now automaton initial (run.start, automaton.initial)
      (graph, automaton.initial) ∧ Paced trail after ∧ now.config = run.config := by
  induction made with
  | prepared prepare =>
      obtain ⟨initial, confined, config⟩ := prepare_confined history stored installed succeeds fits
        (strategy_prepare.1 prepare)
      exact ⟨initial, confined, ⟨List.nodup_nil, rfl, nofun, nofun, nofun⟩, config⟩
  | @stepped trail current next now later state _ more step inductionHypothesis =>
      obtain ⟨initial, confined, paced, config⟩ := inductionHypothesis
      obtain ⟨frame, isNext⟩ := strategy_hasNext.1 more
      obtain ⟨_, _, _, answer, confinedAfter, visits, sameConfig⟩ :=
        confined.doNext located located.initial finite isNext
      rw [show current.doNext now = (.ok state, next, later) from step] at answer
      cases answer
      obtain ⟨⟨entry, present⟩, unexplored, _⟩ :=
        confined.invariant.faithful.coherent.pending isNext
      obtain ⟨_, balanced⟩ := confined.balanced
      exact ⟨initial, confinedAfter,
        paced.visit isNext unexplored present balanced.first visits state, sameConfig.trans config⟩
  | @observed trail current now change _ inductionHypothesis =>
      obtain ⟨initial, confined, paced, config⟩ := inductionHypothesis
      exact ⟨initial, { confined with
        invariant := { confined.invariant with
          faithful := { confined.invariant.faithful with } } }, paced, config⟩

/-- So a run makes no more steps than the points times one more than the points. -/
theorem made_length_le {now : Exploration R A} (history : run.space.HasHistory)
    (stored : run.space.graph? run.start = some graph)
    (installed : bounded.search.automaton = some automaton) (located : automaton.Located)
    (succeeds : R.Succeeds run.space.engine)
    (finite : (reachablePoints R automaton (graph, automaton.initial)).Finite)
    (fits : bounded.prototype.limit.Fits
      (reachablePoints R automaton (graph, automaton.initial)).ncard)
    (made : Made bounded run trail after now) :
    trail.length ≤ (reachablePoints R automaton (graph, automaton.initial)).ncard *
      ((reachablePoints R automaton (graph, automaton.initial)).ncard + 1) := by
  obtain ⟨_, confined, paced, _⟩ :=
    made_confined history stored installed located succeeds finite fits made
  obtain ⟨_, balanced⟩ := confined.balanced
  have faithful := confined.invariant.faithful
  exact Nat.le_trans paced.length_le (Nat.mul_le_mul
    (confined.traced.size_le faithful.coherent.arena faithful.history.wellFormed finite)
    balanced.last)

end Run

/-- A play can begin at a stored graph, with all that is known of its state
space. -/
theorem begins_of_stored {A : Type} [Acceptor R A] (explorer : Explorer) (acceptor : A)
    {space : StateSpace R} {start : Option StateId} {graph : R.Graph}
    (history : space.HasHistory)
    (stored : space.graph? (start.getD StateSpace.startState) = some graph)
    (succeeds : R.Succeeds space.engine) :
    ∃ begun, explorer.Begins space start acceptor begun ∧ begun.space.HasHistory ∧
      begun.space.graph? begun.start = some graph ∧ R.Succeeds begun.space.engine := by
  obtain ⟨info, found, _⟩ := StateSpace.graph?_eq_some.1 stored
  obtain ⟨begun, begins⟩ := explorer.begins_of_contains acceptor
    (StateSpace.contains_iff.2 ⟨info, found⟩)
  obtain ⟨drained, started, _⟩ := begins.spec
  refine ⟨begun, begins, drained ▸ history.evolves (.single (.drain space)), ?_,
    drained ▸ succeeds⟩
  rw [drained, started]
  exact stored

/-- A play over a finite product comes to its end, unless the acceptor has
enough or the run has to stop. -/
theorem play_made {A : Type} [Acceptor R A] {explorer : Explorer} {allowance : Nat}
    {bounded : BoundedSearch} {space : StateSpace R} {start : Option StateId} {acceptor : A}
    {automaton : Automaton} {graph : R.Graph} {begun : Exploration R A}
    (begins : explorer.Begins space start acceptor begun) (history : begun.space.HasHistory)
    (stored : begun.space.graph? begun.start = some graph)
    (installed : bounded.search.automaton = some automaton) (located : automaton.Located)
    (succeeds : R.Succeeds begun.space.engine)
    (finite : (reachablePoints R automaton (graph, automaton.initial)).Finite)
    (fits : bounded.prototype.limit.Fits
      (reachablePoints R automaton (graph, automaton.initial)).ncard)
    (enough : (reachablePoints R automaton (graph, automaton.initial)).ncard *
      ((reachablePoints R automaton (graph, automaton.initial)).ncard + 1) < allowance) :
    let played := explorer.play allowance bounded space start acceptor
    ∃ outcome trail final, played.outcome = some (.ok outcome) ∧
      Made bounded begun trail played.strategy final ∧ outcome.steps = trail.length ∧
      (Acceptor.done (R := R) played.acceptor = false →
        (explorer.config.heedsStop && played.explorer.stopRequested) = false →
        outcome.termination = .exhausted) := by
  obtain ⟨_, _, config, contained, _⟩ := begins.spec
  obtain ⟨_, _, prepare⟩ := exists_prepare installed contained
  obtain ⟨outcome, trail, final, ended, made, _, _, steps, stops⟩ := begins.play_ends allowance
    bounded prepare (fun trail after now made => Nat.lt_of_le_of_lt
      (made_length_le history stored installed located succeeds finite fits made) enough) (by
      intro trail after now made more
      obtain ⟨_, confined, _⟩ :=
        made_confined history stored installed located succeeds finite fits made
      obtain ⟨frame, isNext⟩ := strategy_hasNext.1 more
      obtain ⟨state, _, _, answer, _⟩ := confined.doNext located located.initial finite isNext
      exact ⟨state, congrArg Prod.fst answer⟩)
  obtain ⟨_, _, _, sameConfig⟩ :=
    made_confined history stored installed located succeeds finite fits made
  rw [sameConfig, config] at stops
  exact ⟨outcome, trail, final, ended, made, steps, stops⟩

end BoundedSearch

/-- The product of a labelled system has no more points than the nodes it can
reach and the locations allow. -/
theorem LabelledSystem.reachablePoints_bounded {system : LabelledSystem} {automaton : Automaton}
    (located : automaton.Located) {node : NodeId} (reachable : system.rules.Reachable node) :
    (reachablePoints system.rules automaton (node, automaton.initial)).Finite ∧
      (reachablePoints system.rules automaton (node, automaton.initial)).ncard ≤
        (system.edges.size + 1) * automaton.size := by
  have inside := reachablePoints_subset located reachable
  have finite : (LtlSearch.possible system.rules automaton).Finite :=
    LtlSearch.finite_possible LabelledSystem.finite_reachable
  refine ⟨finite.subset inside, ?_⟩
  calc (reachablePoints system.rules automaton (node, automaton.initial)).ncard
      ≤ (LtlSearch.possible system.rules automaton).ncard := Set.ncard_le_ncard inside finite
    _ = { node | system.rules.Reachable node }.ncard * automaton.size := LtlSearch.ncard_possible
    _ ≤ (system.edges.size + 1) * automaton.size :=
        Nat.mul_le_mul_right _ LabelledSystem.ncard_reachable_le

/-- Over a product with finitely many points, in which every application
succeeds, a bounded search comes to an end by itself, with or without pocket
pruning. Its last iteration is at most one more than the number of points, no
product state is pushed twice in one iteration, and so the steps are at most
the points times one more than the points. A limit on the nodes has to be such
that it can be relaxed once for each point. -/
theorem bounded_play_ends {A : Type} [Acceptor R A] (explorer : Explorer) (allowance : Nat)
    (bounded : BoundedSearch) (space : StateSpace R) (start : Option StateId) (acceptor : A)
    (automaton : Automaton) (draft : Draft) (built : draft.build = .ok automaton)
    (installed : bounded.search.automaton = some automaton) (history : space.HasHistory)
    (graph : R.Graph) (stored : space.graph? (start.getD StateSpace.startState) = some graph)
    (succeeds : R.Succeeds space.engine)
    (finite : (reachablePoints R automaton (graph, automaton.initial)).Finite)
    (fits : bounded.prototype.limit.Fits
      (reachablePoints R automaton (graph, automaton.initial)).ncard)
    (enough : (reachablePoints R automaton (graph, automaton.initial)).ncard *
      ((reachablePoints R automaton (graph, automaton.initial)).ncard + 1) < allowance) :
    let played := explorer.play allowance bounded space start acceptor
    let points := (reachablePoints R automaton (graph, automaton.initial)).ncard
    ∃ outcome begun trail final, played.outcome = some (.ok outcome) ∧
      explorer.Begins space start acceptor begun ∧
      Made bounded begun trail played.strategy final ∧ outcome.steps = trail.length ∧
      (BoundedSearch.pushes trail).length = trail.length ∧ (BoundedSearch.pushes trail).Nodup ∧
      played.strategy.iteration ≤ points + 1 ∧ outcome.steps ≤ points * (points + 1) ∧
      (Acceptor.done (R := R) played.acceptor = false →
        (explorer.config.heedsStop && played.explorer.stopRequested) = false →
        outcome.termination = .exhausted) := by
  have located := Draft.located_of_build built
  obtain ⟨begun, begins, historyBegun, storedBegun, succeedsBegun⟩ :=
    BoundedSearch.begins_of_stored explorer acceptor history stored succeeds
  obtain ⟨outcome, trail, final, ended, made, steps, stops⟩ := BoundedSearch.play_made begins
    historyBegun storedBegun installed located succeedsBegun finite fits enough
  obtain ⟨_, confined, paced, _⟩ := BoundedSearch.made_confined historyBegun storedBegun installed
    located succeedsBegun finite fits made
  obtain ⟨_, balanced⟩ := confined.balanced
  refine ⟨outcome, begun, trail, final, ended, begins, made, steps, paced.all, paced.distinct,
    balanced.last, ?_, stops⟩
  rw [steps]
  exact BoundedSearch.made_length_le historyBegun storedBegun installed located succeedsBegun finite
    fits made

def onceDraft : Draft :=
  { locations := [⟨"wait", false⟩, ⟨"seen", true⟩, ⟨"done", false⟩]
    initial := some "wait"
    edges := [⟨"wait", .always, "wait"⟩, ⟨"wait", Guard.always.require "return", "seen"⟩,
      ⟨"seen", .always, "done"⟩, ⟨"done", .always, "done"⟩] }

/-- A play of the fork in which every move crosses the boundary, which is never
relaxed. -/
def forkDeepening : Played forkSystem.rules BoundedSearch CounterExamples :=
  ({} : Explorer).play 160 (BoundedSearch.create onceAutomaton (Boundary.nodeCount 0 0) true)
    (StateSpace.create forkSystem.rules {}) none { wanted := 0 }

/-- The points of the product of the fork. -/
def forkPoints : Set (GraphPoint forkSystem.rules) :=
  reachablePoints forkSystem.rules onceAutomaton (⟨0⟩, onceAutomaton.initial)

/-- The play of the fork comes to its end in the sixth iteration. -/
theorem forkDeepening_ends :
    onceDraft.build = .ok onceAutomaton ∧ (StateSpace.create forkSystem.rules {}).HasHistory ∧
      forkSystem.rules.Succeeds {} ∧ forkPoints.Finite ∧
      (Boundary.nodeCount 0 0).limit.Fits forkPoints.ncard ∧
      forkPoints.ncard * (forkPoints.ncard + 1) < 160 ∧
      ∃ outcome begun trail final, forkDeepening.outcome = some (.ok outcome) ∧
        ({} : Explorer).Begins (StateSpace.create forkSystem.rules {}) none
          ({ wanted := 0 } : CounterExamples) begun ∧
        Made (BoundedSearch.create onceAutomaton (Boundary.nodeCount 0 0) true) begun trail
          forkDeepening.strategy final ∧
        (BoundedSearch.pushes trail).Nodup ∧ (BoundedSearch.pushes trail).length = 22 ∧
        22 ≤ forkPoints.ncard * (forkPoints.ncard + 1) ∧
        forkDeepening.strategy.iteration = 6 ∧ 6 ≤ forkPoints.ncard + 1 ∧
        outcome.termination = .exhausted := by
  have built : onceDraft.build = .ok onceAutomaton := by decide +kernel
  have history : (StateSpace.create forkSystem.rules {}).HasHistory := ⟨{}, .refl⟩
  have succeeds : forkSystem.rules.Succeeds {} :=
    LabelledSystem.succeeds_of_calm fun rule => by rfl
  obtain ⟨finite, few⟩ : forkPoints.Finite ∧ forkPoints.ncard ≤ 4 * 3 :=
    LabelledSystem.reachablePoints_bounded (Draft.located_of_build built) .start
  have fits : (Boundary.nodeCount 0 0).limit.Fits forkPoints.ncard := by
    change 0 + forkPoints.ncard * 0 < counterLimit
    decide
  have enough : forkPoints.ncard * (forkPoints.ncard + 1) < 160 :=
    Nat.lt_of_le_of_lt (Nat.mul_le_mul few (Nat.succ_le_succ few)) (by decide)
  obtain ⟨outcome, begun, trail, final, ended, begins, made, steps, all, distinct, last, most,
    stops⟩ := bounded_play_ends ({} : Explorer) 160
      (BoundedSearch.create onceAutomaton (Boundary.nodeCount 0 0) true)
      (StateSpace.create forkSystem.rules {}) none ({ wanted := 0 } : CounterExamples)
      onceAutomaton onceDraft built rfl history ⟨0⟩ rfl succeeds finite fits enough
  have iteration : forkDeepening.strategy.iteration = 6 := by decide +kernel
  have count : outcome.steps = 22 := by
    have known : forkDeepening.outcome.map (·.toOption.map (·.steps)) =
        some (some 22) := by decide +kernel
    rw [show forkDeepening.outcome = some (.ok outcome) from ended] at known
    exact Option.some.inj (Option.some.inj known)
  have unbothered :
      Acceptor.done (R := forkSystem.rules) forkDeepening.acceptor = false := by
    decide +kernel
  rw [count] at steps most
  refine ⟨built, history, succeeds, finite, fits, enough, outcome, begun, trail, final, ended,
    begins, made, distinct, all.trans steps.symm, most, iteration, ?_, ?_⟩
  · exact iteration ▸ last
  · exact stops unbothered rfl

end OnTheFly
