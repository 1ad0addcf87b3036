import OnTheFly.Proofs.ModelCheck.Bounded.Crossings
import OnTheFly.Proofs.ModelCheck.Bounded.DeadEnds

/-!
Contract: which states an iteration of the search without pruning visits.

Owns: that iteration `k` follows every path of the product until it comes to a
transition beyond the limit at a state to which the search itself came by
`k - 1` of them; and a run in which a path with fewer is not followed to its end.
Does not own: how often a path of the search goes beyond the limit.

A state is visited once in an iteration, on the first path to it that the search
finds. Where that path has used up what the iteration allows, all transitions of
the state that go beyond the limit are left out, and no cheaper path that comes
later changes this.
-/

set_option autoImplicit false

namespace OnTheFly

variable {R : RuleSystem}

namespace BoundedSearch

/-- Whether the state was painted in the iteration. -/
def PaintedIn (bounded : BoundedSearch) (iteration : Nat) (state : ProductStateId) : Prop :=
  ∃ paint, bounded.search.product.colour state = .painted iteration paint

/-- Whether the search came to the state in iteration `k` by a path on which
`k - 1` frames are counted, the most that the iteration allows. -/
def Spent (came : Nat → List Frame → Prop) (k : Nat) (state : ProductStateId) : Prop :=
  ∃ top rest, came k (top :: rest) ∧ top.state = state ∧
    (top :: rest).countP (·.counted) = k - 1

/-- Whether each state that iteration `k` has left has been followed, except
beyond the limit from where all was spent. -/
def Sweeps (bounded : BoundedSearch) (space : StateSpace R) (came : Nat → List Frame → Prop)
    (k : Nat) : Prop :=
  ∀ state handle transition, bounded.PaintedIn k state → state ∉ bounded.search.onStack →
    (handle, transition) ∈ bounded.search.product.outgoing state →
    bounded.PaintedIn k transition.target ∨
      ((bounded.prototype.limit.relaxed (k - 1)).crosses space transition.via = true ∧
        Spent came k state)

section Parts

variable {bounded after : BoundedSearch} {automaton : Automaton} {initial : ProductStateId}
  {space later : StateSpace R} {came : Nat → List Frame → Prop} {k : Nat}

theorem paintedIn_of_isExplored {state : ProductStateId}
    (explored : bounded.search.round.isExplored (bounded.search.product.colour state) = true) :
    bounded.PaintedIn bounded.iteration state :=
  Round.isExplored_iff.1 explored

theorem PaintedIn.painted {state : ProductStateId} (painted : bounded.PaintedIn k state) :
    bounded.search.product.colour state ≠ .unpainted := by
  obtain ⟨paint, isColour⟩ := painted
  rw [isColour]
  exact Colour.noConfusion

/-- It does not matter in which round the search is by now. -/
theorem Sweeps.same (sweeps : bounded.Sweeps space came k)
    (prototype : after.prototype = bounded.prototype)
    (colour : after.search.product.colour = bounded.search.product.colour)
    (outgoing : after.search.product.outgoing = bounded.search.product.outgoing)
    (stack : after.search.stack = bounded.search.stack) : after.Sweeps space came k := by
  unfold Sweeps PaintedIn at sweeps ⊢
  rw [prototype, colour, outgoing, Search.onStack_congr stack]
  exact sweeps

theorem Sweeps.imp {more : Nat → List Frame → Prop} (sweeps : bounded.Sweeps space came k)
    (imp : ∀ path, came k path → more k path) : bounded.Sweeps space more k := by
  intro state handle transition painted left member
  rcases sweeps state handle transition painted left member with
    explored | ⟨crosses, top, rest, arrived, isTop, spent⟩
  · exact .inl explored
  · exact .inr ⟨crosses, top, rest, imp _ arrived, isTop, spent⟩

/-- What goes beyond the limit does not change as the state space evolves. -/
theorem Sweeps.evolves (sweeps : bounded.Sweeps space came k)
    (coherent : bounded.search.Coherent automaton initial space) (wellFormed : space.WellFormed)
    (kept : space.Extends later) : bounded.Sweeps later came k := by
  intro state handle transition painted left member
  have step : Synchronous space automaton (bounded.search.product.point state) transition.via
      (bounded.search.product.point transition.target) :=
    (coherent.synchronous_iff painted.painted).2 ⟨handle, transition, member, rfl, rfl⟩
  rw [Limit.crosses_kept _ wellFormed kept step]
  exact sweeps state handle transition painted left member

theorem Backs.accounted {boundary : Boundary} (back : Backs space bounded after)
    (accounted : bounded.Accounted bounded.search.stack boundary) :
    ∃ boundaryAfter, after.Accounted after.search.stack boundaryAfter := by
  cases back with
  | @leaves top rest moved _ onTop fresh leave =>
      rw [onTop] at accounted
      obtain ⟨_, _, answer, accountedMoved, _⟩ := accounted.freshSuccessor (List.cons_ne_nil _ _)
        space (bounded.search.product.outgoing top.state)
      rw [fresh] at answer
      cases answer
      obtain ⟨_, boundaryAfter, answer, accountedAfter, stack, _⟩ := accountedMoved.leave
      rw [leave] at answer
      cases answer
      exact ⟨boundaryAfter, stack ▸ accountedAfter⟩

/-- What an iteration knows of its path and of the states that it has left. -/
structure Sweeping (bounded : BoundedSearch) (space : StateSpace R)
    (came : Nat → List Frame → Prop) : Prop where
  entered {above rest : List Frame} {top : Frame} : bounded.search.stack = above ++ top :: rest →
    came bounded.iteration (top :: rest)
  sweeps : bounded.Sweeps space came bounded.iteration

namespace Sweeping

theorem same (sweeping : bounded.Sweeping space came)
    (prototype : after.prototype = bounded.prototype)
    (colour : after.search.product.colour = bounded.search.product.colour)
    (outgoing : after.search.product.outgoing = bounded.search.product.outgoing)
    (stack : after.search.stack = bounded.search.stack)
    (round : after.search.round = bounded.search.round) : after.Sweeping space came := by
  have iteration : after.iteration = bounded.iteration := congrArg Round.iteration round
  refine ⟨?_, ?_⟩
  · rw [stack, iteration]
    exact sweeping.entered
  · rw [iteration]
    exact sweeping.sweeps.same prototype colour outgoing stack

theorem deferred (sweeping : bounded.Sweeping space came) (defers : bounded.Defers after) :
    after.Sweeping space came :=
  sweeping.same defers.prototype defers.colour defers.touches.shape.outgoing defers.stack
    defers.touches.round

/-- A frame is entered to which the search has come. -/
theorem pushed (sweeping : bounded.Sweeping space came) {frame : Frame} {opened : Search}
    (enters : Search.Enters frame bounded.search opened)
    (arrived : came bounded.iteration (frame :: bounded.search.stack)) :
    ({ bounded with search := opened } : BoundedSearch).Sweeping space came := by
  have iteration : ({ bounded with search := opened } : BoundedSearch).iteration =
      bounded.iteration := congrArg Round.iteration enters.round
  have stays : ∀ {state}, bounded.PaintedIn bounded.iteration state →
      ({ bounded with search := opened } : BoundedSearch).PaintedIn bounded.iteration state := by
    rintro state ⟨paint, painted⟩
    by_cases isFrame : state = frame.state
    · exact ⟨.cyan, (enters.colour state).trans (if_pos isFrame)⟩
    · exact ⟨paint, (enters.colour state).trans ((if_neg isFrame).trans painted)⟩
  constructor
  · intro above rest top stack
    rw [iteration]
    change opened.stack = above ++ top :: rest at stack
    rw [enters.stack] at stack
    cases above with
    | nil =>
        cases stack
        exact arrived
    | cons first above =>
        obtain ⟨_, below⟩ := List.cons.inj stack
        exact sweeping.entered below
  · rw [iteration]
    intro state handle transition painted left member
    have other : state ≠ frame.state ∧ state ∉ bounded.search.onStack := by
      change state ∉ opened.onStack at left
      rw [Search.onStack_eq_cons enters.stack] at left
      exact List.ne_and_not_mem_of_not_mem_cons left
    have before : bounded.PaintedIn bounded.iteration state := by
      obtain ⟨paint, isColour⟩ := painted
      exact ⟨paint, ((enters.colour state).trans (if_neg other.1)).symm.trans isColour⟩
    change (handle, transition) ∈ opened.product.outgoing state at member
    rw [enters.outgoing before.painted] at member
    exact (sweeping.sweeps state handle transition before other.2 member).imp_left stays

/-- The top frame is left, with its transitions followed or all spent. -/
theorem left (sweeping : bounded.Sweeping space came) {top : Frame} {rest : List Frame}
    (onTop : bounded.search.stack = [] ++ top :: rest) (leaves : bounded.Leaves top after)
    (followed : ∀ handle transition,
      (handle, transition) ∈ bounded.search.product.outgoing top.state →
      bounded.PaintedIn bounded.iteration transition.target ∨
        ((bounded.prototype.limit.relaxed (bounded.iteration - 1)).crosses space
            transition.via = true ∧
          (top :: rest).countP (·.counted) = bounded.iteration - 1)) :
    after.Sweeping space came ∧
      ∀ state, bounded.PaintedIn bounded.iteration state →
        after.PaintedIn bounded.iteration state := by
  have iteration : after.iteration = bounded.iteration :=
    congrArg Round.iteration leaves.touches.round
  have stack : bounded.search.stack = top :: after.search.stack := leaves.stack
  have stays : ∀ state, bounded.PaintedIn bounded.iteration state →
      after.PaintedIn bounded.iteration state := by
    rintro state ⟨paint, painted⟩
    by_cases isTop : state = top.state
    · exact ⟨_, (leaves.colour state).trans (if_pos isTop)⟩
    · exact ⟨paint, (leaves.colour state).trans ((if_neg isTop).trans painted)⟩
  refine ⟨⟨?_, ?_⟩, stays⟩
  · intro above others other isStack
    rw [iteration]
    have higher : bounded.search.stack = (top :: above) ++ other :: others := by
      rw [stack, isStack]
      rfl
    exact sweeping.entered higher
  · rw [iteration]
    intro state handle transition painted below member
    rw [leaves.prototype]
    rw [leaves.touches.shape.outgoing] at member
    by_cases isTop : state = top.state
    · subst isTop
      rcases followed handle transition member with explored | ⟨crosses, spent⟩
      · exact .inl (stays _ explored)
      · exact .inr ⟨crosses, top, rest, sweeping.entered onTop, rfl, spent⟩
    · have before : bounded.PaintedIn bounded.iteration state := by
        obtain ⟨paint, isColour⟩ := painted
        exact ⟨paint, ((leaves.colour state).trans (if_neg isTop)).symm.trans isColour⟩
      have notOn : state ∉ bounded.search.onStack := by
        rw [Search.onStack_eq_cons stack]
        exact List.not_mem_cons_of_ne_of_not_mem isTop below
      exact (sweeping.sweeps state handle transition before notOn member).imp_left (stays _)

/-- A frame without a successor to enter has been followed. What was stopped
there goes beyond the limit, and the path to it has spent what is allowed. -/
theorem followed {top : Frame} {rest : List Frame} {moved : BoundedSearch} {boundary : Boundary}
    (unpruned : bounded.pocket = false) (walking : bounded.Walking automaton initial space)
    (accounted : bounded.Accounted (top :: rest) boundary)
    (course : bounded.Course automaton initial space (top :: rest))
    (fresh : freshSuccessor space (bounded.search.product.outgoing top.state) bounded =
      (.ok none, moved))
    {handle : ProductTransitionId} {transition : ProductTransition}
    (member : (handle, transition) ∈ bounded.search.product.outgoing top.state) :
    bounded.PaintedIn bounded.iteration transition.target ∨
      ((bounded.prototype.limit.relaxed (bounded.iteration - 1)).crosses space
          transition.via = true ∧
        (top :: rest).countP (·.counted) = bounded.iteration - 1) := by
  obtain ⟨_, _, answer, _, _, _, stops⟩ := accounted.freshSuccessor (List.cons_ne_nil _ _) space
    (bounded.search.product.outgoing top.state)
  rw [fresh] at answer
  cases answer
  cases unexplored : bounded.isUnexplored transition.target with
  | true =>
      have stopped := stops rfl handle transition member unexplored
      rw [Boundary.stops, Bool.and_eq_true, decide_eq_true_eq, accounted.limit,
        accounted.depth] at stopped
      exact .inr ⟨stopped.1, Nat.le_antisymm course.within stopped.2⟩
  | false =>
      rcases isUnexplored_eq_false unexplored with explored | isPocket
      · exact .inl (paintedIn_of_isExplored explored)
      · rw [walking.knows.pockets.enabled isPocket] at unpruned
        cases unpruned

/-- Walking back leaves only what has been followed. -/
theorem walks {reached : BoundedSearch} {boundary : Boundary}
    (sweeping : bounded.Sweeping space came) (unpruned : bounded.pocket = false)
    (walking : bounded.Walking automaton initial space) (wellFormed : space.WellFormed)
    (accounted : bounded.Accounted bounded.search.stack boundary)
    (course : bounded.Course automaton initial space bounded.search.stack)
    (walk : Walks space bounded reached) :
    reached.Sweeping space came ∧ reached.pocket = false ∧
      (∃ boundaryReached, reached.Accounted reached.search.stack boundaryReached) ∧
      ∀ state, bounded.PaintedIn bounded.iteration state →
        reached.PaintedIn bounded.iteration state := by
  induction walk with
  | refl => exact ⟨sweeping, unpruned, ⟨boundary, accounted⟩, fun _ => id⟩
  | tail walk back inductionHypothesis =>
      obtain ⟨sweepingNow, unprunedNow, ⟨boundaryNow, accountedNow⟩, stays⟩ := inductionHypothesis
      obtain ⟨walkingNow, _, round⟩ := walking.walks wellFormed walk
      obtain ⟨courseNow, _⟩ := walking.course wellFormed walk course
      cases back with
      | @leaves top rest moved left onTop fresh leave =>
          obtain ⟨_, defers, leaves, stack⟩ := walkingNow.walked wellFormed onTop fresh leave
          have iteration : moved.iteration = bounded.iteration :=
            congrArg Round.iteration (defers.touches.round.trans round)
          have accountedLeft := Backs.accounted (.leaves onTop fresh leave) accountedNow
          rw [onTop] at accountedNow courseNow
          obtain ⟨sweepingLeft, staysLeft⟩ :=
            (sweepingNow.deferred defers).left (defers.stack.trans onTop) leaves (by
              intro handle transition member
              rw [defers.touches.shape.outgoing] at member
              have known := followed unprunedNow walkingNow accountedNow courseNow fresh member
              unfold PaintedIn BoundedSearch.iteration at known ⊢
              rw [defers.colour, defers.prototype, defers.touches.round]
              exact known)
          refine ⟨sweepingLeft, leaves.pocket.trans (defers.pocket.trans unprunedNow),
            accountedLeft, fun state painted => ?_⟩
          obtain ⟨paint, paintedNow⟩ := stays state painted
          rw [iteration] at staysLeft
          exact staysLeft state ⟨paint, (congrFun defers.colour state).trans paintedNow⟩

end Sweeping

/-! ## One step -/

/-- Whether iteration `k` has come to its end: the stack is empty, and the search
rests or is about to begin the next iteration. -/
def Ended (bounded : BoundedSearch) (k : Nat) : Prop :=
  bounded.search.stack = [] ∧
    ((bounded.search.next = none ∧ bounded.iteration = k) ∨
      (bounded.search.next ≠ none ∧ bounded.iteration = k + 1))

/-- What iteration `k` has done when it has come to its end. -/
structure Swept (bounded : BoundedSearch) (space : StateSpace R) (initial : ProductStateId)
    (came : Nat → List Frame → Prop) (k : Nat) : Prop where
  first : bounded.PaintedIn k initial
  sweeps : bounded.Sweeps space came k

theorem Swept.imp {more : Nat → List Frame → Prop} (swept : bounded.Swept space initial came k)
    (imp : ∀ path, came k path → more k path) : bounded.Swept space initial more k :=
  ⟨swept.first, swept.sweeps.imp imp⟩

/-- What is known of the current iteration, and of the last one if it has come
to its end. -/
structure Deepens (bounded : BoundedSearch) (space : StateSpace R) (initial : ProductStateId)
    (came : Nat → List Frame → Prop) : Prop where
  unpruned : bounded.pocket = false
  sweeping : bounded.Sweeping space came
  swept {k : Nat} : 1 ≤ k → bounded.Ended k → bounded.Swept space initial came k

theorem Deepens.evolves (deepens : bounded.Deepens space initial came)
    (coherent : bounded.search.Coherent automaton initial space) (wellFormed : space.WellFormed)
    (kept : space.Extends later) : bounded.Deepens later initial came where
  unpruned := deepens.unpruned
  sweeping := ⟨deepens.sweeping.entered,
    deepens.sweeping.sweeps.evolves coherent wellFormed kept⟩
  swept positive ended :=
    ⟨(deepens.swept positive ended).first,
      (deepens.swept positive ended).sweeps.evolves coherent wellFormed kept⟩

theorem Deepens.imp {more : Nat → List Frame → Prop} (deepens : bounded.Deepens space initial came)
    (imp : ∀ k path, came k path → more k path) : bounded.Deepens space initial more where
  unpruned := deepens.unpruned
  sweeping := ⟨fun stack => imp _ _ (deepens.sweeping.entered stack),
    deepens.sweeping.sweeps.imp (imp _)⟩
  swept positive ended := (deepens.swept positive ended).imp (imp _)

/-- Where a search arrives with an empty stack, its iteration is swept. -/
theorem Arrives.deepens {reached : BoundedSearch} {config : Config}
    (arrives : Arrives space config reached (.ok ()) after)
    (walking : reached.Walking automaton initial space) (unpruned : reached.pocket = false)
    (sweeping : reached.Sweeping space came)
    (first : reached.PaintedIn reached.iteration initial) :
    after.Deepens space initial came := by
  cases arrives with
  | chooses onTop fresh =>
      have defers := (freshSuccessor_spec fresh).1.defers
      refine ⟨defers.pocket.trans unpruned, (sweeping.deferred defers).same rfl rfl rfl rfl rfl, ?_⟩
      intro k _ ended
      have empty := ended.1
      change (BoundedSearch.search _).stack = [] at empty
      rw [defers.stack, onTop] at empty
      cases empty
  | rests empty may =>
      refine ⟨unpruned, sweeping, ?_⟩
      rintro k _ ⟨_, ⟨_, rfl⟩ | ⟨more, _⟩⟩
      · exact ⟨first, sweeping.sweeps⟩
      · exact absurd walking.stopped more
  | restarts boundary empty may =>
      have unexplored := walking.knows.coherent.unexplored_next
      refine ⟨unpruned, ⟨?_, ?_⟩, ?_⟩
      · intro above rest top stack
        change reached.search.stack = _ at stack
        rw [empty] at stack
        cases above <;> cases stack
      · -- Nothing is painted yet in the next iteration.
        intro state handle transition painted
        have impossible : reached.search.round.next.isExplored
            (reached.search.product.colour state) = true := Round.isExplored_iff.2 painted
        rw [unexplored state] at impossible
        cases impossible
      · rintro k _ ⟨_, ⟨stopped, _⟩ | ⟨_, isNext⟩⟩
        · change reached.search.initial.map _ = none at stopped
          rw [walking.knows.coherent.origin] at stopped
          cases stopped
        · obtain rfl : reached.iteration = k := Nat.succ.inj isNext
          exact ⟨first, sweeping.sweeps.same rfl rfl rfl rfl⟩

section Step

variable {A : Type} [Acceptor R A] {root : ProductPoint} {run now : Exploration R A}
  {result : Except Failure StateId}

/-- A step that meets no breach keeps what is known, as long as the search has
come to the frame that is entered. -/
theorem Steps.deepens (steps : Steps automaton initial bounded run result after now)
    (steady : bounded.Steady run automaton initial root)
    (unbroken : ∀ breach, result ≠ .error (.breach breach))
    (course : bounded.Course automaton initial run.space bounded.frames)
    (deepens : bounded.Deepens run.space initial came)
    (arrived : ∀ frame, bounded.search.next = some frame →
      came bounded.iteration (frame :: bounded.search.stack))
    (unreported : after.search.counterExample = none) :
    after.Deepens now.space initial came := by
  have history := steady.invariant.faithful.history
  have coherent := steady.invariant.faithful.coherent
  have wellFormed := history.wellFormed
  have kept := (steps.advances.space.continues wellFormed).kept
  have wellFormedNow := (history.evolves steps.advances.space).wellFormed
  have coherentNow := coherent.evolves wellFormed kept
  have courseNow := course.evolves coherent wellFormed steps.advances.space
  have deepensNow := deepens.evolves coherent wellFormed kept
  cases steps with
  | rests stopped => exact deepens
  | refuses next advanced => exact deepensNow
  | reports advanced opens => cases unreported
  | @walks frame opened passed reached _ boundary outcome _ _ advanced opens walk accounted arrives =>
      cases outcome with
      | error breach => exact absurd rfl (unbroken breach)
      | ok _ =>
          have defers := (findCycle_spec opens.look).1.defers
          obtain ⟨boundaryBefore, accountedBefore⟩ := steady.accounted
          have opened := deepensNow.sweeping.pushed opens.enters (arrived frame opens.next)
          have completed : (passed.completed frame.state).Sweeping now.space came :=
            (opened.deferred defers).same rfl (passed.colour_completed _)
              (passed.touches_completed _).shape.outgoing rfl rfl
          have walking := opens.walking rfl
          obtain ⟨walkingReached, _, round⟩ := walking.walks wellFormedNow walk
          obtain ⟨swept, unpruned, _, stays⟩ := completed.walks
            (defers.pocket.trans deepens.unpruned) walking wellFormedNow
            ((opens.accounted accountedBefore).1.same rfl rfl rfl)
            ((opens.course coherentNow courseNow).completed frame.state) walk
          refine arrives.deepens walkingReached unpruned swept ?_
          rw [show reached.iteration = (passed.completed frame.state).iteration from
            congrArg Round.iteration round]
          refine stays initial (paintedIn_of_isExplored ?_)
          rw [(passed.touches_completed _).round, passed.colour_completed, defers.touches.round,
            defers.colour]
          exact steady.invariant.begun_of_enters opens.next opens.enters

omit [Acceptor R A] in
/-- What is not reported after a step was not reported before. -/
theorem Steps.unreported (steps : Steps automaton initial bounded run result after now)
    (coherent : bounded.search.Coherent automaton initial run.space)
    (unreported : after.search.counterExample = none) :
    bounded.search.counterExample = none := by
  cases steps with
  | rests stopped => exact unreported
  | refuses next advanced => exact unreported
  | reports advanced opens => cases unreported
  | walks advanced opens walk accounted arrives => exact (coherent.pending opens.next).2.2.2

end Step

/-! ## Paths -/

/-- Whether the iteration has been at the point. -/
def BeenAt (bounded : BoundedSearch) (k : Nat) (point : ProductPoint) : Prop :=
  ∃ state, bounded.PaintedIn k state ∧ bounded.search.product.point state = point

/-- A step of a path that iteration `k` did not follow. It goes beyond the limit
from a point that the iteration has been at, after a path that did so `before`
times already, while the search itself came there by a path that did so `k - 1`
times. -/
structure LeavesOut (bounded : BoundedSearch) (space : StateSpace R) (automaton : Automaton)
    (root : ProductPoint) (came : Nat → List Frame → Prop) (k : Nat)
    (source target : ProductPoint) (points : List ProductPoint) (before : Nat) : Prop where
  route : Route space automaton (bounded.prototype.limit.relaxed (k - 1)) root
    (source :: points) before
  beyond : ∃ via, Synchronous space automaton source via target ∧
    (bounded.prototype.limit.relaxed (k - 1)).crosses space via = true
  spent : ∃ state, bounded.PaintedIn k state ∧ bounded.search.product.point state = source ∧
    Spent came k state
  missed : ¬ bounded.BeenAt k target

/-- An iteration that has come to its end has been at every point of a path, or
has left out one of its steps. -/
theorem Swept.covers (swept : bounded.Swept space initial came k)
    (empty : bounded.search.stack = [])
    (coherent : bounded.search.Coherent automaton initial space) (wellFormed : space.WellFormed)
    (kept : space.Extends later) {path : List ProductPoint} {count : Nat}
    (route : Route later automaton (bounded.prototype.limit.relaxed (k - 1))
      (bounded.search.product.point initial) path count) :
    (∀ point ∈ path, bounded.BeenAt k point) ∨
      ∃ source target points before, target :: source :: points <:+ path ∧ before < count ∧
        bounded.LeavesOut later automaton (bounded.search.product.point initial) came k source
          target points before := by
  induction route with
  | start =>
      refine .inl fun point member => ?_
      obtain rfl := List.mem_singleton.1 member
      exact ⟨initial, swept.first, rfl⟩
  | @step source target points count via before step inductionHypothesis =>
      rcases inductionHypothesis with visited | ⟨early, next, rest, less, suffix, fewer, leavesOut⟩
      · by_cases visitedTarget : bounded.BeenAt k target
        · refine .inl fun point member => ?_
          rcases List.mem_cons.1 member with rfl | listed
          · exact visitedTarget
          · exact visited point listed
        · -- The step leaves a state that is finished, so it must have been stopped.
          obtain ⟨state, painted, rfl⟩ := visited source List.mem_cons_self
          have stepBefore := (wellFormed.synchronous_of_closed kept
            (coherent.expanded painted.painted).1).1 step
          obtain ⟨handle, transition, member, rfl, isTarget⟩ :=
            (coherent.synchronous_iff painted.painted).1 stepBefore
          have finished : state ∉ bounded.search.onStack := by
            rw [Search.onStack_eq_nil empty]
            exact List.not_mem_nil
          rcases swept.sweeps state handle transition painted finished member with
            explored | ⟨crosses, spent⟩
          · exact absurd ⟨_, explored, isTarget⟩ visitedTarget
          · rw [← Limit.crosses_kept _ wellFormed kept stepBefore] at crosses
            refine .inr ⟨_, target, points, count, List.suffix_refl _, ?_,
              ⟨before, ⟨_, step, crosses⟩, ⟨state, painted, rfl, spent⟩, visitedTarget⟩⟩
            rw [crosses]
            exact Nat.lt_succ_self count
      · exact .inr ⟨early, next, rest, less, suffix.trans (List.suffix_cons _ _), by omega,
          leavesOut⟩

end Parts

/-! ## Whole runs -/

section Run

variable {A : Type} [Acceptor R A] {automaton : Automaton} {bounded after : BoundedSearch}
  {begun run : Exploration R A}

/-- Whether a run of `origin` has, on its way to where it is, been about to enter
the first frame of the path in iteration `k`. -/
def CameTo (origin : BoundedSearch) (begun : Exploration R A) (after : BoundedSearch)
    (run : Exploration R A) (k : Nat) (path : List Frame) : Prop :=
  ∃ earlier before, Driven origin begun earlier before ∧ Calls earlier before after run ∧
    earlier.iteration = k ∧ earlier.search.next.isSome = true ∧ earlier.frames = path

omit [Acceptor R A] in
theorem prepare_pocket {ready : BoundedSearch} {opened : Exploration R A}
    (prepare : bounded.prepare begun = .ok (ready, opened)) : ready.pocket = bounded.pocket := by
  unfold BoundedSearch.prepare at prepare
  split at prepare <;> cases prepare
  rfl

theorem driven_deepens (history : begun.space.HasHistory)
    (contained : begun.space.contains begun.start = true)
    (installed : bounded.search.automaton = some automaton) (located : automaton.Located)
    (unpruned : bounded.pocket = false) (driven : Driven bounded begun after run) :
    ∃ initial, bounded.Measured begun after run automaton initial ∧
      (after.search.counterExample = none →
        after.Deepens run.space initial (CameTo bounded begun after run)) := by
  induction driven with
  | @prepared ready opened prepare =>
      obtain ⟨initial, pristine, measured⟩ :=
        prepare_measured history contained installed located prepare
      have samePocket := prepare_pocket (strategy_prepare.1 prepare)
      refine ⟨initial, measured, fun _ => ⟨samePocket.trans unpruned, ⟨?_, ?_⟩, ?_⟩⟩
      · intro above rest top stack
        rw [pristine.stack] at stack
        cases above <;> cases stack
      · intro state handle transition painted
        exact absurd (pristine.colour state) painted.painted
      · rintro k positive ⟨_, ⟨stopped, _⟩ | ⟨_, second⟩⟩
        · rw [pristine.next] at stopped
          cases stopped
        · have first : ready.iteration = 1 := congrArg Round.iteration pristine.round
          omega
  | @stepped current next now later result before step unbroken inductionHypothesis =>
      obtain ⟨initial, measured, deepens⟩ := inductionHypothesis
      refine ⟨initial, measured.stepped located step unbroken, fun unreported => ?_⟩
      obtain ⟨steps, _⟩ := measured.steady.doNext located step
      have unreportedBefore :=
        steps.unreported measured.steady.invariant.faithful.coherent unreported
      refine steps.deepens measured.steady unbroken measured.course
        ((deepens unreportedBefore).imp ?_) ?_ unreported
      · rintro k path ⟨earlier, started, driven, calls, rest⟩
        exact ⟨earlier, started, driven, calls.called step, rest⟩
      · intro frame isNext
        refine ⟨current, now, before, .called .none step, rfl, by rw [isNext]; rfl, ?_⟩
        rw [frames, isNext]
        rfl
  | observed progress stopRequested _ inductionHypothesis =>
      obtain ⟨initial, measured, deepens⟩ := inductionHypothesis
      refine ⟨initial, measured.observed progress stopRequested, fun unreported => ?_⟩
      refine (deepens unreported).imp ?_
      rintro k path ⟨earlier, started, driven, calls, rest⟩
      exact ⟨earlier, started, driven, calls.observed progress stopRequested, rest⟩

end Run

end BoundedSearch

/-- When iteration `k` of a search without pruning has come to its end without a
counterexample, it has been at every point of every path of the product, unless
the path takes a step that is left out. So it has been wherever the product can
go within the limit. -/
theorem iteration_visits_until_spent {A : Type} [Acceptor R A] {space : StateSpace R} {acceptor : A}
    {config : Config} {progress : Option Progress} {stopRequested : Bool} {start : StateId}
    {begun run : Exploration R A} {bounded after : BoundedSearch} {automaton : Automaton}
    {draft : Draft} {k count : Nat} {evolved : StateSpace R} {path : List ProductPoint}
    (built : draft.build = .ok automaton) (history : space.HasHistory)
    (begins : Exploration.begin space acceptor config progress stopRequested start = .ok begun)
    (installed : bounded.search.automaton = some automaton) (unpruned : bounded.pocket = false)
    (driven : Driven bounded begun after run) (unreported : after.search.counterExample = none)
    (positive : 1 ≤ k) (ended : after.Ended k) (evolves : run.space.Evolves evolved)
    (route : Route evolved automaton (bounded.prototype.limit.relaxed (k - 1))
      (start, automaton.initial) path count) :
    (∀ point ∈ path, after.BeenAt k point) ∨
      ∃ source target points before, target :: source :: points <:+ path ∧ before < count ∧
        after.LeavesOut evolved automaton (start, automaton.initial)
          (BoundedSearch.CameTo bounded begun after run) k source target points before := by
  obtain ⟨_, contained, started⟩ := Exploration.begin_eq_ok begins
  have historyBegun := Exploration.history_of_begin history begins
  obtain ⟨initial, measured, deepens⟩ := BoundedSearch.driven_deepens historyBegun contained
    installed (Draft.located_of_build built) unpruned driven
  have faithful := measured.steady.invariant.faithful
  have wellFormed := faithful.history.wellFormed
  rw [← measured.prototype, ← started, ← faithful.rooted] at route
  rw [← started, ← faithful.rooted]
  exact ((deepens unreported).swept positive ended).covers ended.1 faithful.coherent wellFormed
    (evolves.continues wellFormed).kept route

def roamDraft : Draft :=
  { locations := [⟨"roam", true⟩]
    initial := some "roam"
    edges := [⟨"roam", .always, "roam"⟩] }

/-- Accepts whatever goes on forever. -/
def roamAutomaton : Automaton :=
  { locations := #[⟨"roam", true, [⟨.always, ⟨0⟩⟩]⟩]
    initial := ⟨0⟩ }

/-- A search from the camp that stops after its second iteration. -/
def campStopped : Stretch campSystem.rules BoundedSearch CounterExamples :=
  playRun 30 (BoundedSearch.create roamAutomaton (Boundary.ruleSet ["climb"]) false) (campRun 2)

theorem campStopped_ended :
    campStopped.ending = .ended .exhausted 6 ∧
      campStopped.strategy.search.counterExample = none ∧ campStopped.strategy.Ended 2 := by
  refine ⟨by decide +kernel, by decide +kernel, by decide +kernel, .inl ?_⟩
  exact ⟨by decide +kernel, by decide +kernel⟩

/-- By the lake the peak is one climb away. -/
theorem campStopped_route :
    Route campStopped.run.space roamAutomaton (Boundary.ruleSet ["climb"]).limit
      (StateSpace.startState, ⟨0⟩)
      [(⟨3⟩, ⟨0⟩), (⟨1⟩, ⟨0⟩), (⟨2⟩, ⟨0⟩), (StateSpace.startState, ⟨0⟩)] 1 := by
  have toLake : Synchronous campStopped.run.space roamAutomaton (StateSpace.startState, ⟨0⟩)
      (some ⟨1⟩) (⟨2⟩, ⟨0⟩) :=
    (mem_productSteps_iff rfl ⟨some ⟨1⟩, ⟨2⟩, ⟨0⟩⟩).1 (by decide +kernel)
  have toPass : Synchronous campStopped.run.space roamAutomaton (⟨2⟩, ⟨0⟩) (some ⟨2⟩)
      (⟨1⟩, ⟨0⟩) :=
    (mem_productSteps_iff rfl ⟨some ⟨2⟩, ⟨1⟩, ⟨0⟩⟩).1 (by decide +kernel)
  have toPeak : Synchronous campStopped.run.space roamAutomaton (⟨1⟩, ⟨0⟩) (some ⟨3⟩)
      (⟨3⟩, ⟨0⟩) :=
    (mem_productSteps_iff rfl ⟨some ⟨3⟩, ⟨3⟩, ⟨0⟩⟩).1 (by decide +kernel)
  have climbs : [1, 2, 3].map (fun index => (Boundary.ruleSet ["climb"]).limit.crosses
      campStopped.run.space (some ⟨index⟩)) = [false, false, true] := by decide +kernel
  simp only [List.map_cons, List.map_nil, List.cons.injEq, and_true] at climbs
  have route : Route campStopped.run.space roamAutomaton (Boundary.ruleSet ["climb"]).limit
      (StateSpace.startState, ⟨0⟩) _ _ := ((Route.start.step toLake).step toPass).step toPeak
  rw [climbs.1, climbs.2.1, climbs.2.2] at route
  exact route

theorem campStopped_misses_peak : ¬ campStopped.strategy.BeenAt 2 (⟨3⟩, ⟨0⟩) := by
  rintro ⟨state, painted, isPeak⟩
  have fresh : ∀ index < 4, campStopped.strategy.search.product.point ⟨index⟩ = (⟨3⟩, ⟨0⟩) →
      campStopped.strategy.search.product.colour ⟨index⟩ = .unpainted := by decide +kernel
  have size : campStopped.strategy.search.product.states.size = 4 := by decide +kernel
  obtain ⟨entry, present⟩ := Product.present_of_colour painted.painted
  obtain ⟨inside, _⟩ := Array.getElem?_eq_some_iff.1 present
  exact painted.painted (fresh state.index (size ▸ inside) isPeak)

/-- The peak can be reached by one climb, but the second iteration, which allows
one, is not there. It climbs to the pass first and has none left. -/
theorem second_iteration_misses_the_peak :
    { graph | campSystem.rules.Reachable graph }.Finite ∧ campSystem.rules.Succeeds {} ∧
      Driven (BoundedSearch.create roamAutomaton (Boundary.ruleSet ["climb"]) false) (campRun 2)
        campStopped.strategy campStopped.run ∧
      campStopped.strategy.search.counterExample = none ∧ campStopped.strategy.Ended 2 ∧
      Route campStopped.run.space roamAutomaton (Boundary.ruleSet ["climb"]).limit
        (StateSpace.startState, ⟨0⟩)
        [(⟨3⟩, ⟨0⟩), (⟨1⟩, ⟨0⟩), (⟨2⟩, ⟨0⟩), (StateSpace.startState, ⟨0⟩)] (2 - 1) ∧
      ¬ campStopped.strategy.BeenAt 2 (⟨3⟩, ⟨0⟩) := by
  obtain ⟨ending, unreported, ended⟩ := campStopped_ended
  exact ⟨LabelledSystem.finite_reachable, LabelledSystem.succeeds_of_calm fun _ => rfl,
    (playRun_driven_of_ended ⟨_, _, rfl⟩ ending).1, unreported, ended, campStopped_route,
    campStopped_misses_peak⟩

/-- The step that it leaves out is the climb from the pass, to which it came by a
climb while the way by the lake needs none. -/
theorem campStopped_leaves_out_climb :
    roamDraft.build = .ok roamAutomaton ∧ (StateSpace.create campSystem.rules {}).HasHistory ∧
      campStopped.strategy.search.counterExample = none ∧ campStopped.strategy.Ended 2 ∧
      ∃ source target points before,
        target :: source :: points <:+
          [(⟨3⟩, ⟨0⟩), (⟨1⟩, ⟨0⟩), (⟨2⟩, ⟨0⟩), (StateSpace.startState, ⟨0⟩)] ∧
        before < 1 ∧
        campStopped.strategy.LeavesOut campStopped.run.space roamAutomaton
          (StateSpace.startState, ⟨0⟩)
          (BoundedSearch.CameTo
            (BoundedSearch.create roamAutomaton (Boundary.ruleSet ["climb"]) false) (campRun 2)
            campStopped.strategy campStopped.run) 2 source target points before := by
  have built : roamDraft.build = .ok roamAutomaton := by decide +kernel
  have history : (StateSpace.create campSystem.rules {}).HasHistory := ⟨{}, .refl⟩
  obtain ⟨ending, unreported, ended⟩ := campStopped_ended
  have driven : Driven (BoundedSearch.create roamAutomaton (Boundary.ruleSet ["climb"]) false)
      (campRun 2) campStopped.strategy campStopped.run :=
    (playRun_driven_of_ended ⟨_, _, rfl⟩ ending).1
  refine ⟨built, history, unreported, ended, ?_⟩
  rcases iteration_visits_until_spent built history (campRun_begins 2) rfl rfl driven unreported
    (by decide) ended .refl campStopped_route with visited | leavesOut
  · exact absurd (visited _ List.mem_cons_self) campStopped_misses_peak
  · exact leavesOut

end OnTheFly
