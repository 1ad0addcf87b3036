import OnTheFly.Proofs.ModelCheck.Bounded.Moves
import OnTheFly.Proofs.ModelCheck.Detection

/-!
Contract: which frames of the search path are counted.

Owns: the search path as a path of the product, that the counted frames are
those which a transition beyond the limit led to, that there are fewer of them
than iterations, and how many such transitions a counterexample has.
Does not own: which states an iteration visits.

The limit of iteration `k` is that of the prototype, relaxed `k - 1` times.
-/

set_option autoImplicit false

namespace OnTheFly

variable {R : RuleSystem}

/-! ## Paths and their crossings -/

/-- A path of the product from `root` that goes beyond the limit so many times.
Its points are listed with the last one first. -/
inductive Route (space : StateSpace R) (automaton : Automaton) (limit : Limit)
    (root : ProductPoint) : List ProductPoint → Nat → Prop where
  | start : Route space automaton limit root [root] 0
  | step {source target : ProductPoint} {points : List ProductPoint} {count : Nat}
      {via : Option TransitionId}
      (before : Route space automaton limit root (source :: points) count)
      (step : Synchronous space automaton source via target) :
      Route space automaton limit root (target :: source :: points)
        (count + (limit.crosses space via).toNat)

/-- Whether a step goes beyond the limit does not change any more. -/
theorem Limit.crosses_kept {space later : StateSpace R} {automaton : Automaton}
    {source target : ProductPoint} {via : Option TransitionId} (limit : Limit)
    (wellFormed : space.WellFormed) (kept : space.Extends later)
    (step : Synchronous space automaton source via target) :
    limit.crosses later via = limit.crosses space via := by
  cases step with
  | stay _ _ _ _ => rfl
  | @move _ _ _ _ handle transition _ _ _ outgoing _ =>
      obtain ⟨member, found⟩ := StateSpace.mem_outgoing.1 outgoing
      obtain ⟨same, foundSame, _, contained⟩ := wellFormed.out_valid member
      rw [found] at foundSame
      cases foundSame
      obtain ⟨info, stored⟩ := StateSpace.contains_iff.1 contained
      have graph := StateSpace.graph?_eq_some.2 ⟨info, stored, rfl⟩
      simp only [crosses, Option.bind_some, found, kept.transition found, Option.any_some]
      cases limit with
      | ruleSet forbidden => rfl
      | nodeCount initial step current =>
          simp only [isCrossed, StateSpace.nodeCount, graph, kept.graph graph]

/-- A step that is not stopped stays within what the iteration allows. -/
theorem Boundary.within_of_open {space : StateSpace R} {boundary : Boundary} {iteration : Nat}
    {via : Option TransitionId} (within : boundary.depth ≤ iteration - 1)
    (open_ : boundary.stops iteration space via = false) :
    boundary.depth + (boundary.limit.crosses space via).toNat ≤ iteration - 1 := by
  unfold stops at open_
  cases crossed : boundary.limit.crosses space via with
  | false => exact within
  | true =>
      rw [crossed, Bool.true_and, decide_eq_false_iff_not] at open_
      change boundary.depth + 1 ≤ iteration - 1
      omega

theorem countP_counted_cons (frame : Frame) (frames : List Frame) :
    (frame :: frames).countP (·.counted) = frames.countP (·.counted) + frame.counted.toNat := by
  rw [List.countP_cons]
  cases frame.counted <;> rfl

/-- A path of the product from `initial` as frames, the last one first. A frame
is counted if the transition that led to it goes beyond the limit. -/
def Laid (space : StateSpace R) (automaton : Automaton) (product : Product) (limit : Limit)
    (initial : ProductStateId) : List Frame → Prop
  | [] => True
  | [bottom] => bottom = { state := initial }
  | top :: below :: rest =>
      Synchronous space automaton (product.point below.state) top.via (product.point top.state) ∧
        top.counted = limit.crosses space top.via ∧
        Laid space automaton product limit initial (below :: rest)

namespace Laid

variable {space later : StateSpace R} {automaton : Automaton} {product : Product} {limit : Limit}
  {initial : ProductStateId}

theorem tail {top : Frame} {rest : List Frame}
    (laid : Laid space automaton product limit initial (top :: rest)) :
    Laid space automaton product limit initial rest := by
  cases rest with
  | nil => trivial
  | cons below rest => exact laid.2.2

theorem counted {frames : List Frame} (laid : Laid space automaton product limit initial frames) :
    ∀ frame ∈ frames, frame.counted = limit.crosses space frame.via := by
  induction frames with
  | nil => simp
  | cons top rest inductionHypothesis =>
      intro frame member
      rcases List.mem_cons.1 member with rfl | below
      · cases rest with
        | nil =>
            obtain rfl : frame = { state := initial } := laid
            rfl
        | cons below rest => exact laid.2.1
      · exact inductionHypothesis laid.tail frame below

/-- The frames stand for a path that goes beyond the limit as often as they are
counted. -/
theorem route {top : Frame} {rest : List Frame}
    (laid : Laid space automaton product limit initial (top :: rest)) :
    Route space automaton limit (product.point initial)
      ((top :: rest).map fun frame => product.point frame.state)
      ((top :: rest).countP (·.counted)) := by
  induction rest generalizing top with
  | nil =>
      obtain rfl : top = { state := initial } := laid
      exact .start
  | cons below rest inductionHypothesis =>
      rw [countP_counted_cons, laid.2.1]
      exact .step (inductionHypothesis laid.tail) laid.1

/-- The product may change as long as the points stay. -/
theorem moved {after : Product} {frames : List Frame}
    (laid : Laid space automaton product limit initial frames)
    (points : ∀ frame ∈ frames, after.point frame.state = product.point frame.state) :
    Laid space automaton after limit initial frames := by
  induction frames with
  | nil => trivial
  | cons top rest inductionHypothesis =>
      have laidRest := inductionHypothesis laid.tail fun frame member =>
        points frame (List.mem_cons_of_mem _ member)
      cases rest with
      | nil => exact laid
      | cons below rest =>
          refine ⟨?_, laid.2.1, laidRest⟩
          rw [points top List.mem_cons_self,
            points below (List.mem_cons_of_mem _ List.mem_cons_self)]
          exact laid.1

/-- The state space may evolve, since the states below the top are closed. -/
theorem evolves {frames : List Frame} (laid : Laid space automaton product limit initial frames)
    (wellFormed : space.WellFormed) (kept : space.Extends later)
    (closed : ∀ frame ∈ frames.tail, space.isClosed (product.systemState frame.state) = true) :
    Laid later automaton product limit initial frames := by
  induction frames with
  | nil => trivial
  | cons top rest inductionHypothesis =>
      have laidRest := inductionHypothesis laid.tail fun frame member =>
        closed frame (List.mem_of_mem_tail member)
      cases rest with
      | nil => exact laid
      | cons below rest =>
          have closedBelow := closed below List.mem_cons_self
          refine ⟨(wellFormed.synchronous_of_closed kept closedBelow).2 laid.1, ?_, laidRest⟩
          rw [limit.crosses_kept wellFormed kept laid.1]
          exact laid.2.1

end Laid

namespace BoundedSearch

variable {automaton : Automaton} {initial : ProductStateId} {bounded after : BoundedSearch}
  {space later : StateSpace R} {frames : List Frame}

/-- The limit of the current iteration. -/
def limit (bounded : BoundedSearch) : Limit :=
  bounded.prototype.limit.relaxed (bounded.iteration - 1)

/-- A path of the search with fewer crossings than iterations. -/
structure Course (bounded : BoundedSearch) (automaton : Automaton) (initial : ProductStateId)
    (space : StateSpace R) (frames : List Frame) : Prop where
  laid : Laid space automaton bounded.search.product bounded.limit initial frames
  within : frames.countP (·.counted) ≤ bounded.iteration - 1

theorem limit_congr (prototype : after.prototype = bounded.prototype)
    (round : after.search.round = bounded.search.round) :
    after.limit = bounded.limit ∧ after.iteration = bounded.iteration := by
  simp only [limit, iteration, prototype, round, and_self]

namespace Course

theorem same (course : bounded.Course automaton initial space frames)
    (prototype : after.prototype = bounded.prototype)
    (round : after.search.round = bounded.search.round)
    (points : ∀ frame ∈ frames, after.search.product.point frame.state =
      bounded.search.product.point frame.state) :
    after.Course automaton initial space frames := by
  obtain ⟨sameLimit, sameIteration⟩ := limit_congr prototype round
  refine ⟨?_, sameIteration ▸ course.within⟩
  rw [sameLimit]
  exact course.laid.moved points

theorem completed (course : bounded.Course automaton initial space frames)
    (state : ProductStateId) : (bounded.completed state).Course automaton initial space frames :=
  course.same rfl rfl fun _ _ => by rw [(bounded.touches_completed state).shape.point]

theorem tail {top : Frame} {rest : List Frame}
    (course : bounded.Course automaton initial space (top :: rest)) :
    bounded.Course automaton initial space rest := by
  refine ⟨course.laid.tail, Nat.le_trans ?_ course.within⟩
  rw [countP_counted_cons]
  exact Nat.le_add_right _ _

theorem evolves (course : bounded.Course automaton initial space bounded.frames)
    (coherent : bounded.search.Coherent automaton initial space) (wellFormed : space.WellFormed)
    (evolved : space.Evolves later) : bounded.Course automaton initial later bounded.frames := by
  refine ⟨course.laid.evolves wellFormed (evolved.continues wellFormed).kept ?_, course.within⟩
  intro frame member
  have onStack : frame ∈ bounded.search.stack := by
    unfold BoundedSearch.frames at member
    cases next : bounded.search.next with
    | none =>
        rw [next] at member
        exact List.mem_of_mem_tail member
    | some top =>
        rw [next] at member
        exact member
  exact (coherent.expanded (coherent.painted_of_mem (List.mem_map_of_mem onStack))).1

/-- A path can be made longer by a transition that is not stopped. -/
theorem push {top : Frame} {rest : List Frame} {boundary : Boundary}
    {handle : ProductTransitionId} {entry : ProductTransition}
    (course : bounded.Course automaton initial space (top :: rest))
    (accounted : bounded.Accounted (top :: rest) boundary)
    (coherent : bounded.search.Coherent automaton initial space)
    (painted : bounded.search.product.colour top.state ≠ .unpainted)
    (member : (handle, entry) ∈ bounded.search.product.outgoing top.state)
    (open_ : boundary.stops bounded.iteration space entry.via = false) :
    bounded.Course automaton initial space (boundary.frameOf space entry :: top :: rest) := by
  have step : Synchronous space automaton (bounded.search.product.point top.state) entry.via
      (bounded.search.product.point entry.target) :=
    (coherent.synchronous_iff painted).2 ⟨handle, entry, member, rfl, rfl⟩
  have sameLimit : boundary.limit = bounded.limit := accounted.limit
  refine ⟨⟨step, ?_, course.laid⟩, ?_⟩
  · rw [← sameLimit]
    rfl
  · have within := course.within
    rw [← accounted.depth] at within
    rw [countP_counted_cons, ← accounted.depth]
    exact Boundary.within_of_open within open_

end Course

/-! ## One step -/

theorem Opens.course {frame : Frame} {opened : Search} {found : Bool} {passed : BoundedSearch}
    (opens : Opens bounded automaton initial space frame opened found passed)
    (coherent : bounded.search.Coherent automaton initial space)
    (course : bounded.Course automaton initial space bounded.frames) :
    passed.Course automaton initial space passed.search.stack := by
  have defers := (findCycle_spec opens.look).1.defers
  rw [opens.frames_eq] at course
  refine course.same defers.prototype (defers.touches.round.trans opens.enters.round) ?_
  intro other member
  rw [defers.touches.shape.point]
  rw [defers.stack, opens.enters.stack] at member
  rcases List.mem_cons.1 member with rfl | below
  · obtain ⟨⟨entry, present⟩, _⟩ := coherent.pending opens.next
    exact opens.enters.point present
  · obtain ⟨entry, present⟩ :=
      Product.present_of_colour (coherent.painted_of_mem (List.mem_map_of_mem below))
    exact opens.enters.point present

theorem Walking.course {reached : BoundedSearch}
    (walking : bounded.Walking automaton initial space) (wellFormed : space.WellFormed)
    (walk : Walks space bounded reached)
    (course : bounded.Course automaton initial space bounded.search.stack) :
    reached.Course automaton initial space reached.search.stack ∧
      reached.prototype = bounded.prototype := by
  induction walk with
  | refl => exact ⟨course, rfl⟩
  | tail walk back inductionHypothesis =>
      obtain ⟨courseNow, prototype⟩ := inductionHypothesis
      obtain ⟨walkingNow, _⟩ := walking.walks wellFormed walk
      cases back with
      | leaves onTop fresh leave =>
          obtain ⟨_, defers, leaves, stack⟩ := walkingNow.walked wellFormed onTop fresh leave
          rw [onTop] at courseNow
          rw [stack]
          refine ⟨courseNow.tail.same (leaves.prototype.trans defers.prototype)
            (leaves.touches.round.trans defers.touches.round) fun other _ => ?_,
            leaves.prototype.trans (defers.prototype.trans prototype)⟩
          rw [leaves.touches.shape.point, defers.touches.shape.point]

/-- What is left of the path after walking back is within what the iteration
allows. -/
theorem Opens.walked {frame : Frame} {opened : Search} {passed reached : BoundedSearch}
    (opens : Opens bounded automaton initial space frame opened false passed)
    (coherent : bounded.search.Coherent automaton initial space) (wellFormed : space.WellFormed)
    (course : bounded.Course automaton initial space bounded.frames)
    (walk : Walks space (passed.completed frame.state) reached) :
    reached.Walking automaton initial space ∧
      reached.Course automaton initial space reached.search.stack ∧
      reached.prototype = bounded.prototype ∧ reached.search.round = bounded.search.round := by
  have defers := (findCycle_spec opens.look).1.defers
  have walking := opens.walking rfl
  obtain ⟨walked, prototype⟩ := walking.course wellFormed walk
    ((opens.course coherent course).completed frame.state)
  obtain ⟨walkingReached, _, round⟩ := walking.walks wellFormed walk
  exact ⟨walkingReached, walked, prototype.trans defers.prototype,
    round.trans (defers.touches.round.trans opens.enters.round)⟩

/-- A search that goes on with its round has found a transition that is not
stopped. -/
theorem Walking.chosen {reached : BoundedSearch} {boundary : Boundary} {top frame : Frame}
    {rest : List Frame} {moved : BoundedSearch}
    (walking : reached.Walking automaton initial space)
    (accounted : reached.Accounted reached.search.stack boundary)
    (course : reached.Course automaton initial space reached.search.stack)
    (onTop : reached.search.stack = top :: rest)
    (fresh : freshSuccessor space (reached.search.product.outgoing top.state) reached =
      (.ok (some frame), moved)) :
    reached.Course automaton initial space (frame :: reached.search.stack) := by
  have coherent := walking.knows.coherent
  have painted := coherent.painted_of_mem
    (Search.onStack_eq_cons onTop ▸ List.mem_cons_self : top.state ∈ reached.search.onStack)
  rw [onTop] at accounted course ⊢
  obtain ⟨passed, after, answer, _, _, yes, _⟩ := accounted.freshSuccessor (List.cons_ne_nil _ _)
    space (reached.search.product.outgoing top.state)
  rw [fresh] at answer
  cases answer
  obtain ⟨handle, entry, member, rfl, open_⟩ := yes frame rfl
  exact course.push accounted coherent painted member open_

/-- What goes on with its iteration, or begins the next one at the initial state
if that is allowed. -/
def Renews (bounded after : BoundedSearch) (initial : ProductStateId) (config : Config) : Prop :=
  after.iteration = bounded.iteration ∨
    (after.iteration = bounded.iteration + 1 ∧ after.search.stack = [] ∧
      after.search.next = some { state := initial } ∧
      (config.maxIterations = 0 ∨ bounded.iteration < config.maxIterations))

/-- Wherever a search arrives, its path is within what the iteration allows. -/
theorem Arrives.course {reached : BoundedSearch} {boundary : Boundary} {config : Config}
    (arrives : Arrives space config reached (.ok ()) after)
    (walking : reached.Walking automaton initial space)
    (accounted : reached.Accounted reached.search.stack boundary)
    (course : reached.Course automaton initial space reached.search.stack) :
    after.Course automaton initial space after.frames ∧ after.prototype = reached.prototype ∧
      reached.Renews after initial config := by
  cases arrives with
  | chooses onTop fresh =>
      have defers := (freshSuccessor_spec fresh).1.defers
      refine ⟨?_, defers.prototype, .inl (congrArg Round.iteration defers.touches.round)⟩
      have longer := walking.chosen accounted course onTop fresh
      rw [← defers.stack] at longer
      exact longer.same defers.prototype defers.touches.round fun other _ => by
        rw [← defers.touches.shape.point]
  | rests empty may =>
      refine ⟨?_, rfl, .inl rfl⟩
      rw [frames, walking.stopped]
      exact course
  | restarts boundary empty may =>
      have next : (reached.restarted boundary).search.next = some { state := initial } := by
        simp [restarted, walking.knows.coherent.origin]
      refine ⟨⟨?_, ?_⟩, rfl, .inr ⟨rfl, empty, next, ?_⟩⟩
      · rw [frames, next]
        change Laid _ _ _ _ _ ([_] ++ reached.search.stack)
        rw [empty]
        rfl
      · rw [frames, next]
        change List.countP _ ([_] ++ reached.search.stack) ≤ _
        rw [empty]
        exact Nat.zero_le _
      · simp only [mayRestart, Bool.and_eq_true, Bool.or_eq_true, decide_eq_true_eq] at may
        exact may.2

section Step

variable {A : Type} [Acceptor R A] {root : ProductPoint} {run now : Exploration R A}
  {result : Except Failure StateId}

/-- A step that meets no breach keeps the path within what the iteration
allows. -/
theorem Steps.course (steps : Steps automaton initial bounded run result after now)
    (steady : bounded.Steady run automaton initial root)
    (unbroken : ∀ breach, result ≠ .error (.breach breach))
    (course : bounded.Course automaton initial run.space bounded.frames) :
    after.Course automaton initial now.space after.frames ∧
      after.prototype = bounded.prototype ∧ bounded.Renews after initial run.config := by
  have history := steady.invariant.faithful.history
  have coherent := steady.invariant.faithful.coherent
  have wellFormed := history.wellFormed
  have evolved := course.evolves coherent wellFormed steps.advances.space
  have wellFormedNow := (history.evolves steps.advances.space).wellFormed
  have coherentNow := coherent.evolves wellFormed (steps.advances.space.continues wellFormed).kept
  cases steps with
  | rests stopped => exact ⟨course, rfl, .inl rfl⟩
  | refuses next advanced => exact ⟨evolved, rfl, .inl rfl⟩
  | reports advanced opens =>
      have defers := (findCycle_spec opens.look).1.defers
      have opened := opens.course coherentNow evolved
      exact ⟨opened.same rfl rfl fun _ _ => rfl, defers.prototype,
        .inl (congrArg Round.iteration (defers.touches.round.trans opens.enters.round))⟩
  | @walks _ _ _ _ _ _ outcome _ _ advanced opens walk accounted arrives =>
      obtain ⟨walking, walked, prototype, round⟩ :=
        opens.walked coherentNow wellFormedNow evolved walk
      cases outcome with
      | error breach => exact absurd rfl (unbroken breach)
      | ok _ =>
          obtain ⟨arrived, samePrototype, renews⟩ := arrives.course walking accounted walked
          refine ⟨arrived, samePrototype.trans prototype, ?_⟩
          unfold Renews iteration at renews ⊢
          rw [round] at renews
          exact renews

/-- Whether a transition leads from the top of the stack back to the stack and
keeps within what the iteration allows. -/
def Closes (bounded : BoundedSearch) (automaton : Automaton) (space : StateSpace R) : Prop :=
  ∃ top rest via target, bounded.search.stack = top :: rest ∧
    Synchronous space automaton (bounded.search.product.point top.state) via target ∧
    target ∈ bounded.search.stack.map (fun frame => bounded.search.product.point frame.state) ∧
    bounded.search.stack.countP (·.counted) + (bounded.limit.crosses space via).toNat ≤
      bounded.iteration - 1

/-- A cycle is found at a transition that is not stopped. -/
theorem Steady.closes (steady : bounded.Steady now automaton initial root)
    (course : bounded.Course automaton initial now.space bounded.frames) {frame : Frame}
    {opened : Search} {passed : BoundedSearch}
    (opens : Opens bounded automaton initial now.space frame opened true passed) :
    passed.Closes automaton now.space := by
  obtain ⟨boundary, accounted⟩ := steady.accounted
  have within := (opens.course steady.invariant.faithful.coherent course).within
  obtain ⟨accountedPassed, yes⟩ := opens.accounted accounted
  obtain ⟨handle, entry, member, closes, open_⟩ := yes rfl
  have defers := (findCycle_spec opens.look).1.defers
  have onTop : opened.onStack = frame.state :: bounded.search.onStack :=
    Search.onStack_eq_cons opens.enters.stack
  have painted := opens.coherent.painted_of_mem
    (onTop ▸ List.mem_cons_self : frame.state ∈ opened.onStack)
  have onStack := ((opens.coherent.closesCycle_iff member).1 closes).1
  refine ⟨frame, bounded.search.stack, entry.via, opened.product.point entry.target,
    defers.stack.trans opens.enters.stack, ?_, ?_, ?_⟩
  · rw [defers.touches.shape.point]
    exact (opens.coherent.synchronous_iff painted).2 ⟨handle, entry, member, rfl, rfl⟩
  · obtain ⟨other, memberOther, isTarget⟩ := List.mem_map.1 onStack
    rw [defers.stack, defers.touches.shape.point]
    exact List.mem_map.2 ⟨other, memberOther, by rw [isTarget]⟩
  · have sameLimit : boundary.limit = passed.limit := accountedPassed.limit
    rw [← accountedPassed.depth] at within ⊢
    rw [← sameLimit]
    exact Boundary.within_of_open within open_

/-- A breach is met only if the limit cannot be relaxed once more. -/
theorem Steps.large {breach : Breach}
    (steps : Steps automaton initial bounded run (.error (.breach breach)) after now)
    (steady : bounded.Steady run automaton initial root)
    (course : bounded.Course automaton initial run.space bounded.frames) :
    ¬ bounded.prototype.limit.Fits bounded.iteration := by
  have history := steady.invariant.faithful.history
  have coherent := steady.invariant.faithful.coherent
  have wellFormed := history.wellFormed
  have evolved := course.evolves coherent wellFormed steps.advances.space
  have wellFormedNow := (history.evolves steps.advances.space).wellFormed
  have coherentNow := coherent.evolves wellFormed (steps.advances.space.continues wellFormed).kept
  generalize isResult : (.error (.breach breach) : Except Failure StateId) = result at steps
  cases steps with
  | rests stopped => cases isResult
  | refuses next advanced => cases isResult
  | reports advanced opens => cases isResult
  | walks advanced opens walk accounted arrives =>
      obtain ⟨_, _, prototype, round⟩ := opens.walked coherentNow wellFormedNow evolved walk
      cases arrives with
      | overflows empty may large =>
          unfold iteration at large ⊢
          rw [prototype, round] at large
          exact large
      | _ => cases isResult

theorem Arrives.counterExample {reached : BoundedSearch} {config : Config}
    {outcome : Except Breach Unit} (arrives : Arrives space config reached outcome after) :
    after.search.counterExample = reached.search.counterExample := by
  cases arrives with
  | chooses onTop fresh => exact (freshSuccessor_spec fresh).1.defers.counterExample
  | rests empty may => rfl
  | restarts boundary empty may => rfl
  | overflows empty may large => rfl

/-- A report closes a cycle. -/
theorem Steps.closes (steps : Steps automaton initial bounded run result after now)
    (steady : bounded.Steady run automaton initial root)
    (course : bounded.Course automaton initial run.space bounded.frames)
    (closes : bounded.search.counterExample ≠ none → bounded.Closes automaton run.space) :
    after.search.counterExample ≠ none → after.Closes automaton now.space := by
  have history := steady.invariant.faithful.history
  have coherent := steady.invariant.faithful.coherent
  cases steps with
  | rests stopped => exact closes
  | refuses next advanced =>
      intro reported
      exact absurd (coherent.pending next).2.2.2 reported
  | reports advanced opens =>
      intro _
      have unreported := (coherent.pending opens.next).2.2.2
      have closesNow := (steady.advances advanced unreported).closes
        (course.evolves coherent history.wellFormed advanced.space) opens
      exact closesNow
  | walks advanced opens walk accounted arrives =>
      intro reported
      obtain ⟨walking, _⟩ := (opens.walking rfl).walks
        (history.evolves advanced.space).wellFormed walk
      rw [arrives.counterExample] at reported
      exact absurd walking.knows.unreported reported

/-! ## Whole runs -/

/-- What is counted in a run that `origin` began. -/
structure Measured (origin : BoundedSearch) (begun : Exploration R A) (bounded : BoundedSearch)
    (run : Exploration R A) (automaton : Automaton) (initial : ProductStateId) : Prop where
  steady : bounded.Steady run automaton initial (begun.start, automaton.initial)
  course : bounded.Course automaton initial run.space bounded.frames
  closes : bounded.search.counterExample ≠ none → bounded.Closes automaton run.space
  prototype : bounded.prototype = origin.prototype
  config : run.config = begun.config
  most : begun.config.maxIterations ≠ 0 → bounded.iteration ≤ begun.config.maxIterations

theorem prepare_measured {begun opened : Exploration R A} {ready : BoundedSearch}
    (history : begun.space.HasHistory) (contained : begun.space.contains begun.start = true)
    (installed : bounded.search.automaton = some automaton) (located : automaton.Located)
    (prepare : Strategy.prepare bounded begun = (.ok (), ready, opened)) :
    ∃ initial, ready.search.Pristine initial ∧
      bounded.Measured begun ready opened automaton initial := by
  have prepared := strategy_prepare.1 prepare
  obtain ⟨initial, pristine, steady⟩ := prepare_steady history contained installed located prepared
  obtain ⟨_, _, first, prototype⟩ := prepare_accounted prepared
  have path : ready.frames = [{ state := initial }] := by
    rw [frames, pristine.next, pristine.stack]
    rfl
  have config : opened.config = begun.config := by
    unfold BoundedSearch.prepare at prepared
    split at prepared <;> cases prepared
    rfl
  refine ⟨initial, pristine, steady, ⟨?_, ?_⟩, ?_, prototype, config, ?_⟩
  · rw [path]
    rfl
  · rw [path]
    exact Nat.zero_le _
  · intro reported
    exact absurd pristine.counterExample reported
  · intro limited
    rw [first]
    omega

theorem Measured.stepped {origin : BoundedSearch} {begun : Exploration R A}
    (measured : origin.Measured begun bounded run automaton initial) (located : automaton.Located)
    (step : bounded.doNext run = (result, after, now))
    (unbroken : ∀ breach, result ≠ .error (.breach breach)) :
    origin.Measured begun after now automaton initial := by
  obtain ⟨steps, steady⟩ := measured.steady.doNext located step
  obtain ⟨course, prototype, renews⟩ := steps.course measured.steady unbroken measured.course
  refine ⟨steady unbroken, course, steps.closes measured.steady measured.course measured.closes,
    prototype.trans measured.prototype, steps.advances.config.trans measured.config, ?_⟩
  intro limited
  have most := measured.most limited
  rw [measured.config] at renews
  rcases renews with same | ⟨next, _, _, unlimited | less⟩
  · rw [same]
    exact most
  · exact absurd unlimited limited
  · rw [next]
    exact less

theorem Measured.observed {origin : BoundedSearch} {begun : Exploration R A}
    (measured : origin.Measured begun bounded run automaton initial)
    (progress : Option Progress) (stopRequested : Bool) :
    origin.Measured begun bounded
      { run with progress := progress, stopRequested := stopRequested } automaton initial :=
  { measured with
    steady := { measured.steady with
      invariant := { measured.steady.invariant with
        faithful := { measured.steady.invariant.faithful with } } } }

theorem driven_measured {begun : Exploration R A} (history : begun.space.HasHistory)
    (contained : begun.space.contains begun.start = true)
    (installed : bounded.search.automaton = some automaton) (located : automaton.Located)
    (driven : Driven bounded begun after run) :
    ∃ initial, bounded.Measured begun after run automaton initial := by
  induction driven with
  | prepared prepare =>
      obtain ⟨initial, _, measured⟩ :=
        prepare_measured history contained installed located prepare
      exact ⟨initial, measured⟩
  | stepped _ step unbroken inductionHypothesis =>
      obtain ⟨initial, measured⟩ := inductionHypothesis
      exact ⟨initial, measured.stepped located step unbroken⟩
  | observed progress stopRequested _ inductionHypothesis =>
      obtain ⟨initial, measured⟩ := inductionHypothesis
      exact ⟨initial, measured.observed progress stopRequested⟩

/-- The account that a search in iteration `k` can give of its path. Its frames,
with the one that is entered next, are a path of the product from the initial
state. The depth of the boundary is the number of counted frames, which are
those that a transition beyond the limit led to, and it is below `k`. The next
step either stays in iteration `k` or goes on to `k + 1` with a new path, if
that is allowed. It can meet no breach unless the limit cannot be relaxed. What
is reported goes beyond the limit less than `k` times, on its way back too. -/
structure Accounts (bounded : BoundedSearch) (run : Exploration R A) (automaton : Automaton)
    (initial : ProductStateId) : Prop where
  boundary : ∃ boundary, bounded.boundary = some boundary ∧ boundary.limit = bounded.limit ∧
    boundary.depth = bounded.frames.countP (·.counted) ∧ boundary.depth ≤ bounded.iteration - 1
  laid : Laid run.space automaton bounded.search.product bounded.limit initial bounded.frames
  counted (frame : Frame) : frame ∈ bounded.frames →
    frame.counted = bounded.limit.crosses run.space frame.via
  most : run.config.maxIterations ≠ 0 → bounded.iteration ≤ run.config.maxIterations
  renews (result : Except Failure StateId) (after : BoundedSearch) (later : Exploration R A) :
    bounded.doNext run = (result, after, later) →
    (∀ breach, result ≠ .error (.breach breach)) → bounded.Renews after initial run.config
  unbroken (breach : Breach) : (bounded.doNext run).1 = .error (.breach breach) →
    breach = .overflow ∧ ¬ bounded.prototype.limit.Fits bounded.iteration
  reported (states : List StateId) : bounded.search.counterExample = some states →
    ∃ top points count via target,
      Route run.space automaton bounded.limit (bounded.search.product.point initial)
        (top :: points) count ∧
      states = (top :: points).reverse.map Prod.fst ∧
      Synchronous run.space automaton top via target ∧ target ∈ top :: points ∧
      count + (bounded.limit.crosses run.space via).toNat ≤ bounded.iteration - 1

theorem Measured.accounts {origin : BoundedSearch} {begun : Exploration R A}
    (measured : origin.Measured begun bounded run automaton initial)
    (located : automaton.Located) : bounded.Accounts run automaton initial := by
  have steady := measured.steady
  have course := measured.course
  have faithful := steady.invariant.faithful
  refine ⟨?_, course.laid, course.laid.counted, measured.config ▸ measured.most, ?_, ?_, ?_⟩
  · obtain ⟨boundary, accounted⟩ := steady.accounted
    exact ⟨boundary, accounted.installed, accounted.limit, accounted.depth,
      accounted.depth ▸ course.within⟩
  · intro result after later step unbroken
    exact ((steady.doNext located step).1.course steady unbroken course).2.2
  · intro breach broken
    cases step : bounded.doNext run with
    | mk result rest =>
        obtain ⟨after, later⟩ := rest
        rw [step] at broken
        cases broken
        obtain ⟨steps, _⟩ := steady.doNext located step
        exact ⟨steps.breach, steps.large steady course⟩
  · intro states reported
    obtain ⟨top, rest, via, target, stack, step, onPath, within⟩ :=
      measured.closes (by simp [reported])
    have stopped : bounded.search.next = none := by
      cases next : bounded.search.next with
      | none => rfl
      | some frame =>
          rw [(faithful.coherent.pending next).2.2.2] at reported
          cases reported
    have path : bounded.frames = top :: rest := by
      rw [frames, stopped, stack]
      rfl
    have laid := course.laid
    rw [path] at laid
    rw [stack] at onPath within
    refine ⟨_, _, _, via, target, laid.route, ?_, step, onPath, within⟩
    rw [(faithful.reported reported).1]
    simp [Search.path, stack, Product.point, Function.comp_def]

end Step

end BoundedSearch

/-- In every run of a bounded or a pocket search, failed steps repeated or not,
the search can give account of its path. -/
theorem crossings_accounted {A : Type} [Acceptor R A] {space : StateSpace R} {acceptor : A}
    {config : Config} {progress : Option Progress} {stopRequested : Bool} {start : StateId}
    {begun run : Exploration R A} {bounded after : BoundedSearch} {automaton : Automaton}
    {draft : Draft} (built : draft.build = .ok automaton) (history : space.HasHistory)
    (begins : Exploration.begin space acceptor config progress stopRequested start = .ok begun)
    (installed : bounded.search.automaton = some automaton)
    (driven : Driven bounded begun after run) :
    after.prototype = bounded.prototype ∧ run.config = config ∧
      ∃ initial, after.search.product.point initial = (start, automaton.initial) ∧
        after.Accounts run automaton initial := by
  obtain ⟨_, contained, started⟩ := Exploration.begin_eq_ok begins
  have historyBegun := Exploration.history_of_begin history begins
  have located := Draft.located_of_build built
  obtain ⟨initial, measured⟩ :=
    BoundedSearch.driven_measured historyBegun contained installed located driven
  have rooted := measured.steady.invariant.faithful.rooted
  rw [started] at rooted
  refine ⟨measured.prototype, measured.config.trans ?_, initial, rooted, measured.accounts located⟩
  unfold Exploration.begin at begins
  split at begins <;> cases begins
  rfl

/-- In its second iteration the search of the fork reports a path on which the
hub is left for the side once. -/
theorem forkPocket_accounted :
    returnDraft.build = .ok returnAutomaton ∧
      (StateSpace.create forkSystem.rules {}).HasHistory ∧
      forkPocket.strategy.iteration = 2 ∧
      forkPocket.strategy.frames.map (·.counted) = [false, false, true, false] ∧
      forkPocket.strategy.boundary.map (·.depth) = some 1 ∧
      ∃ initial, forkPocket.strategy.search.product.point initial = (⟨0⟩, ⟨0⟩) ∧
        forkPocket.strategy.Accounts forkPocket.run returnAutomaton initial ∧
        ∃ top points count via target,
          Route forkPocket.run.space returnAutomaton forkPocket.strategy.limit (⟨0⟩, ⟨0⟩)
            (top :: points) count ∧
          [⟨0⟩, ⟨2⟩, ⟨0⟩, ⟨1⟩] = (top :: points).reverse.map Prod.fst ∧
          Synchronous forkPocket.run.space returnAutomaton top via target ∧
          target ∈ top :: points ∧
          count + (forkPocket.strategy.limit.crosses forkPocket.run.space via).toNat ≤ 1 := by
  have built : returnDraft.build = .ok returnAutomaton := by decide +kernel
  have history : (StateSpace.create forkSystem.rules {}).HasHistory := ⟨{}, .refl⟩
  have ending : forkPocket.ending = .ended .accepted 6 := by decide +kernel
  have driven : Driven (BoundedSearch.create returnAutomaton (Boundary.ruleSet ["leave"]) true)
      forkRun forkPocket.strategy forkPocket.run := (playRun_driven_of_ended ⟨_, _, rfl⟩ ending).1
  have iteration : forkPocket.strategy.iteration = 2 := by decide +kernel
  have reported : forkPocket.strategy.search.counterExample = some [⟨0⟩, ⟨2⟩, ⟨0⟩, ⟨1⟩] := by
    decide +kernel
  obtain ⟨_, _, initial, rooted, accounts⟩ :=
    crossings_accounted built history forkRun_begins rfl driven
  have path := accounts.reported _ reported
  rw [rooted, iteration] at path
  exact ⟨built, history, iteration, by decide +kernel, by decide +kernel, initial, rooted,
    accounts, path⟩

end OnTheFly
