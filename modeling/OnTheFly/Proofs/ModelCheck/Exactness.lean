import OnTheFly.Proofs.ModelCheck.Bounded.Termination
import OnTheFly.Proofs.ModelCheck.Colours

/-!
Contract: the plain search explores the product, all of it and nothing else.

Owns: that a plain search makes at most one step for each point of the product,
that when it ends without a report its arena holds the points that the product
can reach, each entered once, closed and blue, and hence that what it explores
does not depend on the choices made.
Does not own: which cycles are reported.
-/

set_option autoImplicit false

namespace OnTheFly

variable {R : RuleSystem}

/-! ## The arena from its initial state -/

/-- The handles of all product states, in order. -/
def Product.handles (product : Product) : List ProductStateId :=
  (List.range product.size).map ProductStateId.mk

theorem Product.mem_handles {product : Product} {state : ProductStateId} :
    state ∈ product.handles ↔ ∃ entry, product.state? state = some entry := by
  obtain ⟨position⟩ := state
  rw [← Option.isSome_iff_exists]
  simp [handles, size, state?]

theorem Product.nodup_handles (product : Product) : product.handles.Nodup :=
  List.nodup_range.map fun _ _ same => congrArg ProductStateId.index same

namespace Search

variable {search after : Search} {automaton : Automaton} {initial : ProductStateId}
  {space : StateSpace R}

/-- Whether the transitions of the arena lead to all its states. -/
def Spanned (search : Search) (initial : ProductStateId) : Prop :=
  ∀ state entry, search.product.state? state = some entry →
    Relation.ReflTransGen search.product.Linked initial state

theorem Pristine.spanned (pristine : search.Pristine initial) : search.Spanned initial := by
  intro state entry present
  rw [pristine.alone present]

theorem Spanned.reshaped (spanned : search.Spanned initial)
    (shape : search.product.SameShape after.product) : after.Spanned initial := by
  intro state entry present
  obtain ⟨before, presentBefore, _⟩ := shape.symm.state? present
  rw [shape.linked]
  exact spanned state before presentBefore

/-- What expanding brings are targets of the expanded state. -/
theorem Spanned.opened (spanned : search.Spanned initial)
    (coherent : search.Coherent automaton initial space) {frame : Frame}
    (next : search.next = some frame)
    (fresh : search.product.colour frame.state = .unpainted) (location : Location) :
    (search.opened space frame location).Spanned initial := by
  intro state entry present
  have enters := coherent.enters_opened next fresh location
  have kept : ∀ source target, search.product.Linked source target →
      (search.opened space frame location).product.Linked source target :=
    fun _ _ => coherent.linked_of_enters enters
  rcases Product.addSteps_pair present with ⟨middle, foundMiddle, _⟩ |
    ⟨step, member, sameState, sameLocation⟩
  · obtain ⟨before, presentBefore, _⟩ :=
      (search.sameShape_entered frame).symm.state? foundMiddle
    exact Relation.ReflTransGen.mono kept _ _ (spanned state before presentBefore)
  · obtain ⟨⟨first, presentFirst⟩, _⟩ := coherent.pending next
    obtain ⟨arena, _, listed⟩ := coherent.grows next location
    have listedStep : step ∈ (search.opened space frame location).product.steps frame.state := by
      rw [listed]
      exact List.mem_append_right _ member
    obtain ⟨handle, transition, outgoing, _, point⟩ := Product.mem_steps.1 listedStep
    obtain ⟨_, target, presentTarget⟩ := arena.outgoing_valid outgoing
    have isTarget : transition.target = state := by
      refine arena.point_injective presentTarget present ?_
      rw [point, Product.point_of_state? present, sameState, sameLocation]
    have reached := Relation.ReflTransGen.mono kept _ _ (spanned frame.state first presentFirst)
    exact reached.tail ⟨handle, transition, outgoing, isTarget⟩

/-! ## States that were left -/

/-- Whether the states that were left are closed and blue. -/
def Retired (search : Search) : Prop :=
  ∀ state, search.Finished state →
    search.product.colour state = search.round.blue ∧ search.product.isClosed state = true

theorem Retired.entered (retired : search.Retired) {frame : Frame}
    (enters : Enters frame search after) : after.Retired := by
  intro state finished
  obtain ⟨blue, closed⟩ := retired state (enters.finished finished)
  have other : state ≠ frame.state := by
    rintro rfl
    refine finished.2 ?_
    rw [onStack_eq_cons enters.stack]
    exact List.mem_cons_self
  rw [enters.colour, if_neg other, enters.round, enters.isClosed]
  exact ⟨blue, closed⟩

end Search

/-! ## One step -/

namespace LtlSearch

variable {G A : Type} [Chooser G] [Acceptor R A]

omit [Acceptor R A] in
/-- A frame that is left is closed and blue. -/
theorem retreat_retired (stack : List Frame) (ltl : LtlSearch G)
    (present : ∀ frame ∈ stack, ∃ entry, ltl.search.product.state? frame.state = some entry)
    (retired : ({ ltl.search with stack := stack } : Search).Retired) :
    (retreat stack ltl).search.Retired := by
  induction stack generalizing ltl with
  | nil => exact retired
  | cons top rest inductionHypothesis =>
      unfold retreat
      split
      · exact retired
      · rename_i chooser _
        obtain ⟨entry, presentTop⟩ := present top List.mem_cons_self
        obtain ⟨product, closes, shape, colour, closed⟩ :=
          Product.close_spec presentTop ltl.search.round.blue
        rw [closes]
        refine inductionHypothesis ⟨{ ltl.search with product := product }, chooser⟩ ?_ ?_
        · intro frame member
          obtain ⟨before, presentBefore⟩ := present frame (List.mem_cons_of_mem _ member)
          exact (shape.state? presentBefore).imp fun _ => And.left
        · rintro state ⟨explored, notOn⟩
          change ltl.search.round.isExplored (product.colour state) = true at explored
          change product.colour state = ltl.search.round.blue ∧ product.isClosed state = true
          rw [colour] at explored ⊢
          rw [closed]
          by_cases isTop : state = top.state
          · rw [if_pos isTop]
            exact ⟨rfl, .inr isTop⟩
          · rw [if_neg isTop] at explored ⊢
            obtain ⟨blue, wasClosed⟩ := retired state ⟨explored, fun member =>
              (List.mem_cons.1 member).elim isTop notOn⟩
            exact ⟨blue, .inl wasClosed⟩

section Step

variable {automaton : Automaton} {initial : ProductStateId} {root : ProductPoint}
  {origin : GraphPoint R} {ltl after : LtlSearch G} {run later : Exploration R A}
  {trail : List (LtlSearch G × StateId)}

theorem explore_retired {opened : Search} {state : ProductStateId} {chooser : G}
    (present : ∀ frame ∈ opened.stack, ∃ entry, opened.product.state? frame.state = some entry)
    (retired : opened.Retired)
    (explores : explore ⟨opened, chooser⟩ run state = (after, later)) :
    after.search.Retired ∧ later.space = run.space ∧ later.config = run.config := by
  unfold explore at explores
  split at explores
  · cases explores
    exact ⟨retired, rfl, rfl⟩
  · cases explores
    exact ⟨retreat_retired opened.stack ⟨opened, chooser⟩ present retired, rfl, rfl⟩

/-- The product states that the steps of a trail enter, the first one first. -/
def pushes (trail : List (LtlSearch G × StateId)) : List ProductStateId :=
  trail.filterMap fun entry => entry.1.search.next.map (·.state)

/-- The account of what has been entered on the way to a search. -/
structure Logged (trail : List (LtlSearch G × StateId)) (search : Search) : Prop where
  explored_iff (state : ProductStateId) :
    search.round.isExplored (search.product.colour state) = true ↔ state ∈ pushes trail
  distinct : (pushes trail).Nodup
  all : (pushes trail).length = trail.length

omit [Chooser G] [Acceptor R A] in
theorem Logged.visit {space : StateSpace R} (logged : Logged trail ltl.search)
    (coherent : ltl.search.Coherent automaton initial space) {frame : Frame}
    (next : ltl.search.next = some frame) {after : Search}
    (recolours : ltl.search.Recolours after) (round : after.round = ltl.search.round)
    (explored : ∀ other, ltl.search.round.isExplored (ltl.search.product.colour other) = true ∨
      other = frame.state → after.round.isExplored (after.product.colour other) = true)
    (state : StateId) : Logged (trail ++ [(ltl, state)]) after := by
  have pushed : pushes (trail ++ [(ltl, state)]) = pushes trail ++ [frame.state] := by
    simp [pushes, next]
  obtain ⟨_, unexplored, _⟩ := coherent.pending next
  have isNew : frame.state ∉ pushes trail := by
    rw [← logged.explored_iff, unexplored]
    exact Bool.false_ne_true
  constructor
  · intro other
    rw [pushed, List.mem_append, List.mem_singleton, ← logged.explored_iff]
    refine ⟨fun isExplored => ?_, explored other⟩
    rcases recolours.colour other with same | ⟨onStack | ⟨_, isNext, isFrame⟩, _⟩
    · rw [round, same] at isExplored
      exact .inl isExplored
    · left
      rw [coherent.cyan_iff.2 onStack]
      exact Round.isExplored_iff.2 ⟨.cyan, rfl⟩
    · rw [next] at isNext
      cases isNext
      exact .inr isFrame.symm
  · rw [pushed]
    refine List.nodup_append.2 ⟨logged.distinct, List.nodup_singleton _, ?_⟩
    intro push member other isOther same
    rw [List.mem_singleton.1 isOther] at same
    exact isNew (same ▸ member)
  · rw [pushed, List.length_append, logged.all, List.length_append]
    rfl

/-- What is known of a plain search in a run from `root`, which stands for
`origin`. -/
structure Charted (trail : List (LtlSearch G × StateId)) (ltl : LtlSearch G)
    (run : Exploration R A) (automaton : Automaton) (initial : ProductStateId)
    (root : ProductPoint) (origin : GraphPoint R) : Prop where
  invariant : ltl.Invariant run automaton initial root
  placed : ltl.search.Placed automaton
  succeeds : R.Succeeds run.space.engine
  stored : run.space.graph? root.1 = some origin.1
  place : root.2 = origin.2
  traced : ltl.search.Traced run.space automaton origin
  spanned : ltl.search.Spanned initial
  retired : ltl.search.Retired
  logged : Logged trail ltl.search

/-- A step with something to do succeeds, and enters a state that has not been
entered before. -/
theorem Charted.doNext (located : automaton.Located)
    (charted : Charted trail ltl run automaton initial root origin) {frame : Frame}
    (next : ltl.search.next = some frame) :
    ∃ state after later, ltl.doNext run = (.ok state, after, later) ∧
      Charted (trail ++ [(ltl, state)]) after later automaton initial root origin ∧
      later.config = run.config := by
  have invariant := charted.invariant
  have coherent := invariant.faithful.coherent
  have history := invariant.faithful.history
  have wellFormed := history.wellFormed
  obtain ⟨⟨entry, present⟩, _⟩ := coherent.pending next
  obtain ⟨state, after, later, step, invariantAfter, placedAfter, succeedsAfter, _⟩ :=
    doNext_visits located charted.succeeds invariant charted.placed next
  obtain ⟨_, _, _, recolours⟩ := doNext_recolours located invariant charted.placed step
  refine ⟨state, after, later, step, ?_⟩
  cases doNext_move coherent step (by simp) with
  | rest stopped =>
      rw [next] at stopped
      cases stopped
  | @visit other applied closing location opened _ _ isNext closed here opens explores =>
      rw [next] at isNext
      cases isNext
      obtain ⟨_, evolves, _, enters, touches, explored⟩ :=
        invariant.visit next closed here opens explores
      have advanced := Exploration.advances_closeState run
        (ltl.search.product.systemState frame.state)
      have systemClosed :=
        (Exploration.closeState_closes history (coherent.contains_next next)).1 applied
      rw [closed] at advanced systemClosed
      have kept := (advanced.space.continues wellFormed).kept
      obtain ⟨retired, sameSpace, sameConfig⟩ :=
        explore_retired (coherent.present_opened next enters) (charted.retired.entered enters)
          explores
      refine ⟨?_, sameConfig.trans advanced.config⟩
      exact {
        invariant := invariantAfter
        placed := placedAfter
        succeeds := succeedsAfter
        stored := (evolves.continues wellFormed).kept.graph charted.stored
        place := charted.place
        traced := by
          have traced := (charted.traced.extended kept).opened (history.evolves advanced.space)
            present (systemClosed rfl) here
          rw [← opens] at traced
          rw [sameSpace]
          exact traced.reshaped touches.shape
        spanned := by
          have spanned := charted.spanned.opened (coherent.evolves wellFormed kept) next
            (invariant.unpainted_next next) location
          rw [← opens] at spanned
          exact spanned.reshaped touches.shape
        retired
        logged := by
          refine charted.logged.visit coherent next recolours (touches.round.trans enters.round)
            (fun other known => ?_) _
          rw [touches.round]
          exact explored other (enters.isExplored known) }

end Step

/-! ## Whole runs -/

section Run

variable {automaton : Automaton} {initial : ProductStateId} {root : ProductPoint}
  {origin : GraphPoint R} {graph : R.Graph} {ltl after : LtlSearch G}
  {run now : Exploration R A} {trail : List (LtlSearch G × StateId)}

theorem prepare_charted {ready : LtlSearch G} (history : run.space.HasHistory)
    (stored : run.space.graph? run.start = some graph)
    (installed : ltl.search.automaton = some automaton) (located : automaton.Located)
    (succeeds : R.Succeeds run.space.engine) (prepare : ltl.prepare run = .ok ready) :
    ∃ initial, Charted [] ready run automaton initial (run.start, automaton.initial)
      (graph, automaton.initial) := by
  have contained : run.space.contains run.start = true := by
    obtain ⟨info, found, _⟩ := StateSpace.graph?_eq_some.1 stored
    exact StateSpace.contains_iff.2 ⟨info, found⟩
  obtain ⟨initial, pristine, invariant⟩ := prepare_invariant history contained installed prepare
  have rooted := invariant.faithful.rooted
  refine ⟨initial, invariant, pristine.placed located rooted, succeeds, stored, rfl,
    pristine.traced rooted stored, pristine.spanned, ?_, ?_, List.nodup_nil, rfl⟩
  · intro state finished
    exact absurd (pristine.colour state) (Search.painted_of_isExplored finished.1)
  · intro state
    rw [pristine.colour]
    simp [pushes, Round.isExplored, Round.cyan, Round.blue, Round.red]

/-- Every step of a run adds to the chart. -/
theorem made_charted (history : run.space.HasHistory)
    (stored : run.space.graph? run.start = some graph)
    (installed : ltl.search.automaton = some automaton) (located : automaton.Located)
    (succeeds : R.Succeeds run.space.engine) (made : Made ltl run trail after now) :
    ∃ initial, Charted trail after now automaton initial (run.start, automaton.initial)
      (graph, automaton.initial) ∧ now.config = run.config := by
  induction made with
  | prepared prepare =>
      obtain ⟨ok, rfl⟩ := strategy_prepare.1 prepare
      obtain ⟨initial, charted⟩ := prepare_charted history stored installed located succeeds ok
      exact ⟨initial, charted, rfl⟩
  | @stepped trail current next now later state _ more step inductionHypothesis =>
      obtain ⟨initial, charted, config⟩ := inductionHypothesis
      obtain ⟨frame, isNext⟩ := Option.isSome_iff_exists.1 more
      obtain ⟨_, _, _, answer, chartedAfter, sameConfig⟩ := charted.doNext located isNext
      rw [show current.doNext now = (.ok state, next, later) from step] at answer
      cases answer
      exact ⟨initial, chartedAfter, sameConfig.trans config⟩
  | observed change _ inductionHypothesis =>
      obtain ⟨initial, charted, config⟩ := inductionHypothesis
      exact ⟨initial, { charted with
        invariant := { charted.invariant with
          faithful := { charted.invariant.faithful with } } }, config⟩

omit [Chooser G] in
theorem Charted.pushes_subset (charted : Charted trail ltl run automaton initial root origin) :
    pushes trail ⊆ ltl.search.product.handles := by
  intro state member
  have explored := (charted.logged.explored_iff state).2 member
  exact Product.mem_handles.2
    (Product.present_of_colour (Search.painted_of_isExplored explored))

omit [Chooser G] in
/-- There are no more steps than points of the product. -/
theorem Charted.length_le (charted : Charted trail ltl run automaton initial root origin)
    (finite : (reachablePoints R automaton origin).Finite) :
    trail.length ≤ (reachablePoints R automaton origin).ncard := by
  have faithful := charted.invariant.faithful
  calc trail.length
      = (pushes trail).length := charted.logged.all.symm
    _ ≤ ltl.search.product.handles.length :=
        (charted.logged.distinct.subperm charted.pushes_subset).length_le
    _ = ltl.search.product.states.size := by simp [Product.handles, Product.size]
    _ ≤ (reachablePoints R automaton origin).ncard :=
        charted.traced.size_le faithful.coherent.arena faithful.history.wellFormed finite

/-! ## The end without a report -/

omit [Chooser G] in
/-- All that the arena reaches has been left, and the product reaches it too. -/
theorem Charted.finished_of_linked
    (charted : Charted trail ltl run automaton initial root origin)
    (stopped : ltl.search.next = none) (unreported : ltl.search.counterExample = none)
    {state : ProductStateId}
    (linked : Relation.ReflTransGen ltl.search.product.Linked initial state) :
    ltl.search.Finished state ∧
      Reaches run.space automaton root (ltl.search.product.point state) := by
  have invariant := charted.invariant
  have wellFormed := invariant.faithful.history.wellFormed
  have stack := invariant.resting unreported stopped
  induction linked with
  | refl =>
      rw [invariant.faithful.rooted]
      exact ⟨Search.finished_of_begun stopped stack (invariant.begun unreported), .refl⟩
  | @tail source target _ link inductionHypothesis =>
      obtain ⟨finished, reaches⟩ := inductionHypothesis
      have followed := (invariant.searching unreported).examined.followed rfl finished link
      have step : Successor run.space automaton (ltl.search.product.point source)
          (ltl.search.product.point target) :=
        (invariant.faithful.coherent.successor_iff wellFormed (.refl run.space)
          (Search.painted_of_isExplored finished.1)).2 ⟨target, link, rfl⟩
      exact ⟨⟨followed.resolve_right id, by simp [Search.onStack_eq_nil stack]⟩,
        reaches.tail step⟩

/-- What the arena holds of the product from `root` once all of it has been
explored: the points that the product can reach and no others, each as one
state, which has been entered once, and is closed and blue as well as its system
state is closed. -/
structure Exact (trail : List (LtlSearch G × StateId)) (search : Search) (space : StateSpace R)
    (automaton : Automaton) (root : ProductPoint) : Prop where
  reached (point : ProductPoint) :
    (∃ state, search.product.find? point.1 point.2 = some state) ↔
      Reaches space automaton root point
  entered : (pushes trail).Perm search.product.handles
  complete {state : ProductStateId} {entry : ProductState} :
    search.product.state? state = some entry →
      search.product.find? entry.state entry.location = some state ∧
      entry.closed = true ∧ entry.colour = search.round.blue ∧
      space.isClosed entry.state = true

omit [Chooser G] in
theorem Charted.exact (charted : Charted trail ltl run automaton initial root origin)
    (stopped : ltl.search.next = none) (unreported : ltl.search.counterExample = none) :
    Exact trail ltl.search run.space automaton root := by
  have invariant := charted.invariant
  have coherent := invariant.faithful.coherent
  have wellFormed := invariant.faithful.history.wellFormed
  have left : ∀ state entry, ltl.search.product.state? state = some entry →
      ltl.search.Finished state ∧
        Reaches run.space automaton root (ltl.search.product.point state) :=
    fun state entry present =>
      charted.finished_of_linked stopped unreported (charted.spanned state entry present)
  constructor
  · intro point
    constructor
    · rintro ⟨state, found⟩
      obtain ⟨entry, present, sameState, sameLocation⟩ := coherent.arena.find_iff.1 found
      have reaches := (left state entry present).2
      rw [Product.point_of_state? present, sameState, sameLocation] at reaches
      exact reaches
    · intro reaches
      rw [← invariant.faithful.rooted] at reaches
      obtain ⟨state, ⟨entry, present⟩, rfl⟩ := coherent.covers wellFormed (.refl run.space)
        invariant.faithful.known
        (fun state ⟨entry, present⟩ => Search.painted_of_isExplored (left state entry present).1.1)
        (fun _ _ _ linked => coherent.arena.linked_valid linked) reaches
      rw [Product.point_of_state? present]
      exact ⟨state, coherent.arena.find_iff.2 ⟨entry, present, rfl, rfl⟩⟩
  · refine (List.perm_ext_iff_of_nodup charted.logged.distinct (Product.nodup_handles _)).2 ?_
    intro state
    refine ⟨fun member => charted.pushes_subset member, fun member => ?_⟩
    obtain ⟨entry, present⟩ := Product.mem_handles.1 member
    exact (charted.logged.explored_iff state).1 (left state entry present).1.1
  · intro state entry present
    have finished := (left state entry present).1
    obtain ⟨blue, closed⟩ := charted.retired state finished
    have systemClosed := (coherent.expanded (Search.painted_of_isExplored finished.1)).1
    simp only [Product.colour, Product.isClosed, Product.systemState, present, Option.map_some,
      Option.getD_some, Option.any_some] at blue closed systemClosed
    exact ⟨coherent.arena.find_iff.2 ⟨entry, present, rfl, rfl⟩, closed, blue, systemClosed⟩

omit [Chooser G] in
/-- If applications depend on nothing in the engine, then the state space holds
every point that the product of the rules can reach. -/
theorem Charted.stored_of_reachable
    (charted : Charted trail ltl run automaton initial root origin)
    (functional : R.Functional) (stopped : ltl.search.next = none)
    (unreported : ltl.search.counterExample = none) {point : GraphPoint R}
    (reachable : point ∈ reachablePoints R automaton origin) :
    ∃ state, run.space.graph? state = some point.1 ∧
      Reaches run.space automaton root (state, point.2) := by
  have invariant := charted.invariant
  have exactly := charted.exact stopped unreported
  induction reachable with
  | refl => exact ⟨root.1, charted.stored, charted.place ▸ .refl⟩
  | @tail before after _ step inductionHypothesis =>
      obtain ⟨source, stored, reaches⟩ := inductionHypothesis
      -- The arena holds the point, so its system state is closed.
      obtain ⟨state, found⟩ := (exactly.reached _).2 reaches
      obtain ⟨entry, present, rfl, _⟩ :=
        invariant.faithful.coherent.arena.find_iff.1 found
      obtain ⟨_, _, _, closed⟩ := exactly.complete present
      obtain ⟨via, target, storedTarget, follows⟩ :=
        invariant.faithful.history.synchronous_of_graphStep functional stored closed step
      exact ⟨target, storedTarget, reaches.tail ⟨via, follows⟩⟩

omit [Chooser G] in
/-- So what has been explored is what the product of the rules can reach. -/
theorem Charted.visited_eq (charted : Charted trail ltl run automaton initial root origin)
    (functional : R.Functional) (stopped : ltl.search.next = none)
    (unreported : ltl.search.counterExample = none) :
    visited ltl.search run.space = reachablePoints R automaton origin := by
  have coherent := charted.invariant.faithful.coherent
  ext ⟨graph, place⟩
  constructor
  · rintro ⟨state, explored, stored, here⟩
    obtain ⟨entry, present⟩ :=
      Product.present_of_colour (Search.painted_of_isExplored explored)
    obtain ⟨other, storedOther, reached⟩ := charted.traced state entry present
    have point := Product.point_of_state? present
    simp only [Product.point, Prod.mk.injEq] at point
    rw [point.1, storedOther] at stored
    cases stored
    have samePlace : entry.location = place := point.2.symm.trans here
    rw [← samePlace]
    exact reached
  · intro reachable
    obtain ⟨held, stored, reaches⟩ :=
      charted.stored_of_reachable functional stopped unreported reachable
    obtain ⟨state, found⟩ := ((charted.exact stopped unreported).reached _).2 reaches
    obtain ⟨entry, present, rfl, here⟩ := coherent.arena.find_iff.1 found
    have finished := (charted.finished_of_linked stopped unreported
      (charted.spanned state entry present)).1
    have point := Product.point_of_state? present
    simp only [Product.point, Prod.mk.injEq] at point
    refine ⟨state, finished.1, ?_, point.2.trans here⟩
    rw [point.1]
    exact stored

end Run

end LtlSearch

/-! ## Plays -/

section Play

variable {G A : Type} [Chooser G] [Acceptor R A]

/-- Whether a play of the plain search came to its own end and reported
nothing. -/
def Played.EndsUnreported (played : Played R (LtlSearch G) A) : Prop :=
  (∃ outcome, played.outcome = some (.ok outcome) ∧ outcome.termination = .exhausted) ∧
    played.strategy.search.counterExample = none

/-- The same explorer with another seed. -/
def Explorer.reseeded (explorer : Explorer) (seed : UInt64) : Explorer :=
  { explorer with config := { explorer.config with seed := seed } }

variable {automaton : Automaton} {ltl : LtlSearch G} {space : StateSpace R}
  {start : Option StateId} {graph : R.Graph}

omit [Acceptor R A] in
theorem LtlSearch.next_of_finished {ltl : LtlSearch G}
    (finished : Strategy.hasNext R ltl = false) : ltl.search.next = none :=
  Option.isNone_iff_eq_none.1 (Option.isSome_eq_false_iff.1 finished)

theorem LtlSearch.visited_of_endsUnreported {explorer : Explorer} {allowance : Nat} {acceptor : A}
    (located : automaton.Located) (installed : ltl.search.automaton = some automaton)
    (history : space.HasHistory)
    (stored : space.graph? (start.getD StateSpace.startState) = some graph)
    (succeeds : R.Succeeds space.engine) (functional : R.Functional)
    (ends : (explorer.play allowance ltl space start acceptor).EndsUnreported) :
    visited (explorer.play allowance ltl space start acceptor).strategy.search
        (explorer.play allowance ltl space start acceptor).space =
      reachablePoints R automaton (graph, automaton.initial) := by
  obtain ⟨⟨outcome, ended, exhausted⟩, unreported⟩ := ends
  obtain ⟨begun, trail, final, begins, made, sameSpace, _, finished⟩ :=
    Explorer.play_made ended exhausted
  obtain ⟨drained, started, _⟩ := begins.spec
  have historyBegun : begun.space.HasHistory := drained ▸ history.evolves (.single (.drain space))
  have storedBegun : begun.space.graph? begun.start = some graph := by
    rw [drained, started]
    exact stored
  obtain ⟨initial, charted, _⟩ := made_charted historyBegun storedBegun installed located
    (drained ▸ succeeds) made
  rw [← sameSpace]
  exact charted.visited_eq functional (next_of_finished finished) unreported

/-- The plain search explores the product exactly. Over a product with finitely
many points, in which every application succeeds, a search makes at most as many
steps as there are points, whatever it chooses, and comes to an end by itself. If
it ends without a report, its arena holds the points that the product can reach
and no others, each entered once, closed and blue, and their system states are
closed. If applications depend on nothing in the engine, then these are the
points of the product of the rules, so that every other seed has the same ones
explored. -/
theorem plain_play_explores_exactly (explorer : Explorer) (allowance : Nat) (ltl : LtlSearch G)
    (space : StateSpace R) (start : Option StateId) (acceptor : A) (automaton : Automaton)
    (draft : Draft) (built : draft.build = .ok automaton)
    (installed : ltl.search.automaton = some automaton) (history : space.HasHistory)
    (graph : R.Graph) (stored : space.graph? (start.getD StateSpace.startState) = some graph)
    (succeeds : R.Succeeds space.engine)
    (finite : (reachablePoints R automaton (graph, automaton.initial)).Finite)
    (enough : (reachablePoints R automaton (graph, automaton.initial)).ncard < allowance) :
    let played := explorer.play allowance ltl space start acceptor
    let points := reachablePoints R automaton (graph, automaton.initial)
    (∃ outcome begun trail final, played.outcome = some (.ok outcome) ∧
      explorer.Begins space start acceptor begun ∧
      Made ltl begun trail played.strategy final ∧ outcome.steps = trail.length ∧
      (∀ steps current now, Made ltl begun steps current now → steps.length ≤ points.ncard) ∧
      (Acceptor.done (R := R) played.acceptor = false →
        (explorer.config.heedsStop && played.explorer.stopRequested) = false →
        outcome.termination = .exhausted) ∧
      (played.EndsUnreported →
        LtlSearch.Exact trail played.strategy.search played.space automaton
          (start.getD StateSpace.startState, automaton.initial))) ∧
      (R.Functional → played.EndsUnreported →
        LtlSearch.visited played.strategy.search played.space = points ∧
          ∀ seed, let other := (explorer.reseeded seed).play allowance ltl space start acceptor
            other.EndsUnreported →
              LtlSearch.visited other.strategy.search other.space =
                LtlSearch.visited played.strategy.search played.space) := by
  have located := Draft.located_of_build built
  obtain ⟨begun, begins, historyBegun, storedBegun, succeedsBegun⟩ :=
    BoundedSearch.begins_of_stored explorer acceptor history stored succeeds
  obtain ⟨_, started, config, _⟩ := begins.spec
  have charts := fun steps current now (made : Made ltl begun steps current now) =>
    LtlSearch.made_charted historyBegun storedBegun installed located succeedsBegun made
  have few : ∀ steps current now, Made ltl begun steps current now →
      steps.length ≤ (reachablePoints R automaton (graph, automaton.initial)).ncard := by
    intro steps current now made
    obtain ⟨initial, charted, _⟩ := charts steps current now made
    exact charted.length_le finite
  obtain ⟨ready, _, prepare⟩ := LtlSearch.prepare_of_installed installed begun
  obtain ⟨outcome, trail, final, ended, made, sameSpace, _, steps, stops⟩ :=
    begins.play_ends allowance ltl prepare
      (fun steps current now made => Nat.lt_of_le_of_lt (few steps current now made) enough)
      (by
        intro steps current now made more
        obtain ⟨initial, charted, _⟩ := charts steps current now made
        obtain ⟨frame, next⟩ := Option.isSome_iff_exists.1 more
        obtain ⟨state, _, _, step, _⟩ := charted.doNext located next
        exact ⟨state, congrArg Prod.fst step⟩)
  obtain ⟨initial, charted, sameConfig⟩ := charts _ _ _ made
  rw [sameConfig, config] at stops
  refine ⟨⟨outcome, begun, trail, final, ended, begins, made, steps, few, stops, ?_⟩, ?_⟩
  · rintro ⟨⟨_, endedToo, exhausted⟩, unreported⟩
    obtain ⟨_, _, _, _, _, _, _, finished⟩ := Explorer.play_made endedToo exhausted
    have exactly := charted.exact (LtlSearch.next_of_finished finished) unreported
    rw [sameSpace, started] at exactly
    exact exactly
  · intro functional ends
    have visited := LtlSearch.visited_of_endsUnreported located installed history stored succeeds
      functional ends
    refine ⟨visited, fun seed endsToo => ?_⟩
    rw [visited]
    exact LtlSearch.visited_of_endsUnreported located installed history stored succeeds functional
      endsToo

end Play

/-- The chooser that takes the first candidate if its seed is zero, and the last
one otherwise. -/
structure EndChoice where
  first : Bool

instance : Chooser EndChoice where
  seeded seed := ⟨seed = 0⟩
  below count chooser := (if chooser.first then count - 1 else 0, chooser)
  below_lt count chooser positive := by
    simp only
    split <;> omega

/-- Two ways that never meet. -/
def branchSystem : LabelledSystem :=
  { nodes := #[{ name := "root" }, { name := "left" }, { name := "right" },
      { name := "left end" }, { name := "right end" }]
    edges := #[⟨⟨0⟩, "turn left", ⟨1⟩⟩, ⟨⟨0⟩, "turn right", ⟨2⟩⟩, ⟨⟨1⟩, "go", ⟨3⟩⟩,
      ⟨⟨2⟩, "return", ⟨4⟩⟩] }

def branchExplorer : Explorer := {}

def branchSweep (seed : UInt64) :
    Played branchSystem.rules (LtlSearch EndChoice) CounterExamples :=
  (branchExplorer.reseeded seed).play 16 (LtlSearch.create (some onceAutomaton))
    (StateSpace.create branchSystem.rules {}) none { wanted := 0 }

theorem branchSweep_exhausted {seed : UInt64} (either : seed = 0 ∨ seed = 1) :
    (branchSweep seed).outcome = some (.ok ⟨.exhausted, 7, 5, "no counterexample found"⟩) ∧
      (branchSweep seed).strategy.search.counterExample = none := by
  rcases either with rfl | rfl <;> decide +kernel

theorem branchSweep_endsUnreported {seed : UInt64} (either : seed = 0 ∨ seed = 1) :
    (branchSweep seed).EndsUnreported :=
  ⟨⟨_, (branchSweep_exhausted either).1, rfl⟩, (branchSweep_exhausted either).2⟩

/-- One seed goes left first and one goes right, so they number the states in
different orders. They explore the same pairs. -/
theorem branchSweep_explores_exactly :
    onceDraft.build = .ok onceAutomaton ∧ (StateSpace.create branchSystem.rules {}).HasHistory ∧
      branchSystem.rules.Succeeds {} ∧ branchSystem.rules.Functional ∧
      (reachablePoints branchSystem.rules onceAutomaton (⟨0⟩, onceAutomaton.initial)).Finite ∧
      (reachablePoints branchSystem.rules onceAutomaton
        (⟨0⟩, onceAutomaton.initial)).ncard < 16 ∧
      (branchSweep 0).space.graph? ⟨3⟩ ≠ (branchSweep 1).space.graph? ⟨3⟩ ∧
      (∃ trail : List (LtlSearch EndChoice × StateId), trail.length = 7 ∧
        LtlSearch.Exact trail (branchSweep 0).strategy.search (branchSweep 0).space
          onceAutomaton (StateSpace.startState, onceAutomaton.initial)) ∧
      LtlSearch.visited (branchSweep 1).strategy.search (branchSweep 1).space =
        LtlSearch.visited (branchSweep 0).strategy.search (branchSweep 0).space := by
  have built : onceDraft.build = .ok onceAutomaton := by decide +kernel
  have history : (StateSpace.create branchSystem.rules {}).HasHistory := ⟨{}, .refl⟩
  have succeeds : branchSystem.rules.Succeeds {} :=
    LabelledSystem.succeeds_of_calm fun rule => by rfl
  obtain ⟨finite, few⟩ :
      (reachablePoints branchSystem.rules onceAutomaton (⟨0⟩, onceAutomaton.initial)).Finite ∧
        (reachablePoints branchSystem.rules onceAutomaton
          (⟨0⟩, onceAutomaton.initial)).ncard ≤ 5 * 3 :=
    LabelledSystem.reachablePoints_bounded (Draft.located_of_build built) .start
  have enough := Nat.lt_of_le_of_lt few (by decide : 5 * 3 < 16)
  have ends := branchSweep_endsUnreported (.inl rfl)
  obtain ⟨⟨outcome, begun, trail, final, ended, begins, made, steps, most, stops, exactly⟩,
      independent⟩ := plain_play_explores_exactly (branchExplorer.reseeded 0) 16
    (LtlSearch.create (some onceAutomaton) : LtlSearch EndChoice)
    (StateSpace.create branchSystem.rules {}) none ({ wanted := 0 } : CounterExamples)
    onceAutomaton onceDraft built rfl history ⟨0⟩ rfl succeeds finite enough
  have count : outcome.steps = 7 := by
    have known := ended.symm.trans (branchSweep_exhausted (.inl rfl)).1
    cases known
    rfl
  refine ⟨built, history, succeeds, branchSystem.functional, finite, enough, by decide +kernel,
    ⟨trail, steps.symm.trans count, exactly ends⟩, ?_⟩
  exact (independent branchSystem.functional ends).2 1 (branchSweep_endsUnreported (.inr rfl))

end OnTheFly
