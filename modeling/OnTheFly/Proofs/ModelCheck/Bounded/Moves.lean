import OnTheFly.Proofs.ModelCheck.Bounded.Accounting
import OnTheFly.Proofs.ModelCheck.Bounded.Turns
import OnTheFly.Proofs.ModelCheck.Termination

/-!
Contract: all that a step of the bounded search can do, whatever it answers.

Owns: the kinds of steps, and that every step is of one of them. So the only
breach that a search can meet is a limit that cannot be relaxed, and after it
the search has nothing left to do.
Does not own: what the steps preserve beyond the invariant of the search.

Every system state is closed before its product states are expanded, and every
automaton is built from locations that exist, so no application is out of range
and no location is missing.
-/

set_option autoImplicit false

namespace OnTheFly

namespace BoundedSearch

variable {R : RuleSystem}

/-- A frame is entered and its transitions are looked at. If no cycle is found,
the search is about to walk back. -/
structure Opens (bounded : BoundedSearch) (automaton : Automaton) (initial : ProductStateId)
    (space : StateSpace R) (frame : Frame) (opened : Search) (found : Bool)
    (passed : BoundedSearch) : Prop where
  next : bounded.search.next = some frame
  systemClosed : space.isClosed (bounded.search.product.systemState frame.state) = true
  coherent : opened.Coherent automaton initial space
  enters : Search.Enters frame bounded.search opened
  placed : opened.Placed automaton
  look : findCycle space (opened.product.outgoing frame.state) { bounded with search := opened } =
    (.ok found, passed)
  walking : found = false → (passed.completed frame.state).Walking automaton initial space

section Opening

variable {bounded passed : BoundedSearch} {automaton : Automaton} {initial : ProductStateId}
  {space : StateSpace R} {frame : Frame} {opened : Search} {found : Bool}

/-- The path is the same, with its last frame entered now. -/
theorem Opens.frames_eq (opens : Opens bounded automaton initial space frame opened found passed) :
    bounded.frames = passed.search.stack := by
  rw [(findCycle_spec opens.look).1.defers.stack, frames, opens.next, opens.enters.stack]
  rfl

/-- The account of the path is the same, and a cycle is found at a transition
that is not stopped. -/
theorem Opens.accounted (opens : Opens bounded automaton initial space frame opened found passed)
    {boundary : Boundary} (accounted : bounded.Accounted bounded.frames boundary) :
    passed.Accounted passed.search.stack boundary ∧
      (found = true → ∃ handle entry, (handle, entry) ∈ opened.product.outgoing frame.state ∧
        opened.closesCycle handle = true ∧
        boundary.stops passed.iteration space entry.via = false) := by
  rw [opens.frames_eq] at accounted
  have accountedOpened : ({ bounded with search := opened } : BoundedSearch).Accounted
      passed.search.stack boundary :=
    accounted.same rfl rfl (congrArg Round.iteration opens.enters.round)
  obtain ⟨_, _, look, accountedPassed, looks, yes⟩ :=
    accountedOpened.findCycle space (opened.product.outgoing frame.state)
  rw [opens.look] at look
  cases look
  refine ⟨accountedPassed, fun isFound => ?_⟩
  obtain ⟨handle, entry, member, closes, open_⟩ := yes isFound
  rw [(findCycle_spec opens.look).1.defers.closesCycle] at closes
  exact ⟨handle, entry, member, closes, looks.iteration ▸ open_⟩

end Opening

/-- What a step answers that has processed the state. -/
def answer (state : StateId) : Except Breach Unit → Except Failure StateId
  | .ok _ => .ok state
  | .error breach => .error (.breach breach)

section Step

variable {A : Type} {automaton : Automaton} {initial : ProductStateId}
  {root : ProductPoint} {bounded after : BoundedSearch} {run later : Exploration R A}
  {result : Except Failure StateId}

/-- The kinds of steps. -/
inductive Steps (automaton : Automaton) (initial : ProductStateId) (bounded : BoundedSearch)
    (run : Exploration R A) : Except Failure StateId → BoundedSearch → Exploration R A → Prop where
  /-- There is nothing to do. -/
  | rests (stopped : bounded.search.next = none) :
      Steps automaton initial bounded run (.ok run.start) bounded run
  /-- The system state could not be closed. -/
  | refuses {frame : Frame} {error : ExploreError} {later : Exploration R A}
      (next : bounded.search.next = some frame) (advanced : run.Advances later) :
      Steps automaton initial bounded run (.error (.error error)) bounded later
  | reports {frame : Frame} {opened : Search} {passed : BoundedSearch} {state : StateId}
      {later : Exploration R A} (advanced : run.Advances later)
      (opens : Opens bounded automaton initial later.space frame opened true passed) :
      Steps automaton initial bounded run (.ok state) passed.reported later
  | walks {frame : Frame} {opened : Search} {passed reached after : BoundedSearch}
      {boundary : Boundary} {outcome : Except Breach Unit} {state : StateId}
      {later : Exploration R A} (advanced : run.Advances later)
      (opens : Opens bounded automaton initial later.space frame opened false passed)
      (walk : Walks later.space (passed.completed frame.state) reached)
      (accounted : reached.Accounted reached.search.stack boundary)
      (arrives : Arrives later.space run.config reached outcome after) :
      Steps automaton initial bounded run (answer state outcome) after later

theorem Steps.advances (steps : Steps automaton initial bounded run result after later) :
    run.Advances later := by
  cases steps with
  | rests stopped => exact .refl run
  | refuses next advanced => exact advanced
  | reports advanced opens => exact advanced
  | walks advanced opens walk accounted arrives => exact advanced

/-- A step that meets a breach has met a limit that cannot be relaxed. -/
theorem Steps.breach {breach : Breach}
    (steps : Steps automaton initial bounded run (.error (.breach breach)) after later) :
    breach = .overflow := by
  generalize isResult : (.error (.breach breach) : Except Failure StateId) = result at steps
  cases steps with
  | rests stopped => cases isResult
  | refuses next advanced => cases isResult
  | reports advanced opens => cases isResult
  | walks advanced opens walk accounted arrives =>
      cases arrives with
      | overflows empty may large =>
          cases isResult
          rfl
      | _ => cases isResult

/-- Walking back keeps what is known, and the shape of the arena. -/
theorem Walking.walks {space : StateSpace R} {reached : BoundedSearch}
    (walking : bounded.Walking automaton initial space) (wellFormed : space.WellFormed)
    (walk : Walks space bounded reached) :
    reached.Walking automaton initial space ∧
      bounded.search.product.SameShape reached.search.product ∧
      reached.search.round = bounded.search.round := by
  induction walk with
  | refl => exact ⟨walking, .refl _, rfl⟩
  | tail _ back inductionHypothesis =>
      obtain ⟨walkingNow, shape, round⟩ := inductionHypothesis
      cases back with
      | leaves onTop fresh leave =>
          obtain ⟨walkingLeft, defers, leaves, _⟩ := walkingNow.walked wellFormed onTop fresh leave
          exact ⟨walkingLeft, shape.trans (defers.touches.shape.trans leaves.touches.shape),
            leaves.touches.round.trans (defers.touches.round.trans round)⟩

theorem Arrives.sameShape {space : StateSpace R} {config : Config} {reached : BoundedSearch}
    {outcome : Except Breach Unit} (arrives : Arrives space config reached outcome after) :
    reached.search.product.SameShape after.search.product := by
  cases arrives with
  | chooses onTop fresh => exact (freshSuccessor_spec fresh).1.defers.touches.shape
  | rests empty may => exact .refl _
  | restarts boundary empty may => exact .refl _
  | overflows empty may large => exact .refl _

/-- What is left of a search whose limit could not be relaxed: it had walked
back to the end of its round. -/
structure Halted (bounded : BoundedSearch) (run : Exploration R A) (automaton : Automaton)
    (initial : ProductStateId) : Prop where
  history : run.space.HasHistory
  walked : ∃ reached : BoundedSearch, reached.Walking automaton initial run.space ∧
    reached.search.stack = [] ∧ bounded = reached.halted

theorem Halted.stopped (halted : bounded.Halted run automaton initial) :
    bounded.search.next = none := by
  obtain ⟨reached, walking, _, rfl⟩ := halted.walked
  exact walking.stopped

theorem Halted.coherent (halted : bounded.Halted run automaton initial) :
    bounded.search.Coherent automaton initial run.space := by
  obtain ⟨reached, walking, empty, rfl⟩ := halted.walked
  have renewed : ({ reached.search with
      round := reached.search.round.next
      next := none } : Search).Coherent automaton initial run.space :=
    walking.knows.coherent.renewed empty fun _ isNext => by cases isNext
  rw [← walking.stopped] at renewed
  exact renewed

/-- A search that has met a breach is halted. -/
theorem Steps.halted {breach : Breach} (history : run.space.HasHistory)
    (steps : Steps automaton initial bounded run (.error (.breach breach)) after later) :
    after.Halted later automaton initial := by
  have historyAfter := history.evolves steps.advances.space
  generalize isResult : (.error (.breach breach) : Except Failure StateId) = result at steps
  cases steps with
  | rests stopped => cases isResult
  | refuses next advanced => cases isResult
  | reports advanced opens => cases isResult
  | walks advanced opens walk accounted arrives =>
      cases arrives with
      | overflows empty may large =>
          obtain ⟨walking, _⟩ := (opens.walking rfl).walks historyAfter.wellFormed walk
          exact ⟨historyAfter, _, walking, empty, rfl⟩
      | _ => cases isResult

variable [Acceptor R A]

/-- The invariant of a search that has not met a breach. -/
structure Steady (bounded : BoundedSearch) (run : Exploration R A) (automaton : Automaton)
    (initial : ProductStateId) (root : ProductPoint) : Prop where
  invariant : bounded.Invariant run automaton initial root
  placed : bounded.search.Placed automaton
  accounted : ∃ boundary, bounded.Accounted bounded.frames boundary

theorem Steady.advances (steady : bounded.Steady run automaton initial root)
    (advanced : run.Advances later) (unreported : bounded.search.counterExample = none) :
    bounded.Steady later automaton initial root :=
  { steady with invariant := steady.invariant.advances advanced unreported }

/-- The next frame can be entered. -/
theorem Steady.expands (steady : bounded.Steady run automaton initial root)
    (located : automaton.Located) {frame : Frame} (next : bounded.search.next = some frame)
    (systemClosed :
      run.space.isClosed (bounded.search.product.systemState frame.state) = true) :
    ∃ opened, (bounded.search.entered frame).expandOnce run.space frame.state = .ok opened ∧
      opened.Coherent automaton initial run.space ∧ Search.Enters frame bounded.search opened ∧
      opened.Placed automaton := by
  have invariant := steady.invariant
  obtain ⟨⟨entry, present⟩, _, _, unreported⟩ := invariant.faithful.coherent.pending next
  obtain ⟨location, here⟩ := steady.placed.location present
  obtain ⟨opened, expand, placed⟩ : ∃ opened,
      (bounded.search.entered frame).expandOnce run.space frame.state = .ok opened ∧
        opened.Placed automaton := by
    unfold Search.expandOnce
    split
    · exact ⟨_, rfl, steady.placed.reshaped (bounded.search.sameShape_entered frame)⟩
    · exact ⟨_, (Search.expand_entered invariant.faithful.coherent.installed).2
        ⟨location, here, rfl⟩, steady.placed.opened located here⟩
  obtain ⟨coherent, enters⟩ := expandOnce_enters invariant.faithful.history.wellFormed
    (invariant.knows unreported) (invariant.closed unreported) next systemClosed expand
  exact ⟨opened, expand, coherent, enters, placed⟩

/-- So its transitions can be looked at. -/
theorem Steady.opens (steady : bounded.Steady run automaton initial root)
    (located : automaton.Located) {frame : Frame} (next : bounded.search.next = some frame)
    (systemClosed :
      run.space.isClosed (bounded.search.product.systemState frame.state) = true) :
    ∃ opened found passed boundary,
      Opens bounded automaton initial run.space frame opened found passed ∧
      ({ bounded with search := bounded.search.entered frame }).exploreState run.space frame.state =
        (.ok found, if found then passed else passed.completed frame.state) ∧
      passed.Accounted passed.search.stack boundary := by
  obtain ⟨opened, expand, coherent, enters, placed⟩ := steady.expands located next systemClosed
  obtain ⟨boundary, accounted⟩ := steady.accounted
  have path : bounded.frames = opened.stack := by
    rw [frames, next, enters.stack]
    rfl
  rw [path] at accounted
  have accountedOpened : ({ bounded with search := opened } : BoundedSearch).Accounted
      opened.stack boundary :=
    accounted.same rfl rfl (congrArg Round.iteration enters.round)
  obtain ⟨found, passed, look, accountedPassed, _⟩ :=
    accountedOpened.findCycle run.space (opened.product.outgoing frame.state)
  have explores : ({ bounded with search := bounded.search.entered frame }).exploreState run.space
      frame.state = (.ok found, if found then passed else passed.completed frame.state) := by
    unfold exploreState
    simp only [expand, look]
    cases found <;> rfl
  refine ⟨opened, found, passed, boundary,
    ⟨next, systemClosed, coherent, enters, placed, look, ?_⟩, explores, ?_⟩
  · rintro rfl
    obtain ⟨_, knows, closed, stopped, _⟩ :=
      steady.invariant.completes next systemClosed explores
    exact ⟨knows, closed, stopped⟩
  · rw [(findCycle_spec look).1.defers.stack]
    exact accountedPassed

/-! ## Every step -/

/-- Once the system state is closed, the step goes on to a report or walks
back. -/
theorem Steady.proceeds {origin : Exploration R A} (tracked : origin.Advances run)
    (steady : bounded.Steady run automaton initial root) (located : automaton.Located)
    {frame : Frame} (next : bounded.search.next = some frame)
    (systemClosed :
      run.space.isClosed (bounded.search.product.systemState frame.state) = true) :
    ∃ found explored,
      ({ bounded with search := bounded.search.entered frame }).exploreState run.space frame.state =
        (.ok found, explored) ∧
      ∀ outcome after later, explored.proceed run found = (outcome, after, later) →
        (∀ state, Steps automaton initial bounded origin (answer state outcome) after later) ∧
        after.search.Placed automaton ∧
        (outcome = .ok () → ∃ boundary, after.Accounted after.frames boundary) := by
  obtain ⟨opened, found, passed, boundary, opens, explores, accounted⟩ :=
    steady.opens located next systemClosed
  have defers := (findCycle_spec opens.look).1.defers
  have placed : passed.search.Placed automaton := opens.placed.reshaped defers.touches.shape
  refine ⟨found, _, explores, fun outcome after later proceeds => ?_⟩
  cases found with
  | true =>
      cases proceeds
      have told : run.Advances (passed.search.report run).2 := ⟨.refl, .now, rfl, rfl, rfl⟩
      exact ⟨fun state => .reports (tracked.trans told) opens, placed,
        fun _ => ⟨boundary, accounted.same rfl rfl rfl⟩⟩
  | false =>
      have walking := opens.walking rfl
      have accountedCompleted : (passed.completed frame.state).Accounted
          (passed.completed frame.state).search.stack boundary := accounted.same rfl rfl rfl
      obtain ⟨reached, boundaryReached, arrived, moved, walk, walks, accountedReached, arrives,
        accountedAfter⟩ := accountedCompleted.retreat rfl walking.stopped run.space run.config
      obtain ⟨_, shape, _⟩ := walking.walks steady.invariant.faithful.history.wellFormed walks
      have placedAfter : moved.search.Placed automaton := placed.reshaped
        ((passed.touches_completed frame.state).shape.trans (shape.trans arrives.sameShape))
      -- The run is told of a new iteration at most.
      have goesOn : ∃ change, outcome = arrived ∧ after = moved ∧ later = run.track change := by
        have same : run.track id = run := by simp [Exploration.track]
        simp only [proceed, Bool.false_eq_true, if_false, walk] at proceeds
        cases arrived with
        | error breach =>
            cases proceeds
            exact ⟨id, rfl, rfl, same.symm⟩
        | ok _ =>
            simp only [Prod.mk.injEq] at proceeds
            obtain ⟨rfl, rfl, rfl⟩ := proceeds
            split
            · exact ⟨id, rfl, rfl, same.symm⟩
            · exact ⟨_, rfl, rfl, rfl⟩
      obtain ⟨change, rfl, rfl, rfl⟩ := goesOn
      refine ⟨fun state => ?_, placedAfter, accountedAfter⟩
      have advanced := tracked.trans (Exploration.advances_track run change)
      rw [tracked.config] at arrives
      exact .walks advanced opens walks accountedReached arrives

/-- Every step is of one of the kinds, and the invariant holds after it unless
it meets a breach. -/
theorem Steady.doNext (steady : bounded.Steady run automaton initial root)
    (located : automaton.Located) (step : bounded.doNext run = (result, after, later)) :
    Steps automaton initial bounded run result after later ∧
      ((∀ breach, result ≠ .error (.breach breach)) →
        after.Steady later automaton initial root) := by
  have invariantAfter := doNext_invariant steady.invariant step
  have history := steady.invariant.faithful.history
  cases next : bounded.search.next with
  | none =>
      unfold BoundedSearch.doNext at step
      rw [next] at step
      cases step
      exact ⟨.rests next, fun _ => steady⟩
  | some frame =>
      let system := bounded.search.product.systemState frame.state
      obtain ⟨_, _, _, unreported⟩ := steady.invariant.faithful.coherent.pending next
      have contained := steady.invariant.faithful.coherent.contains_next next
      have advanced := Exploration.advances_closeState run system
      have unbroken : ∀ breach, (run.closeState system).1 ≠ .error (.breach breach) :=
        Exploration.closeState_unbroken history
      have closes := (Exploration.closeState_closes history contained).1
      unfold BoundedSearch.doNext at step
      rw [next] at step
      simp only [steady.invariant.faithful.coherent.enter_eq next] at step
      cases close : run.closeState system with
      | mk closing visited =>
          rw [close] at advanced unbroken closes step
          cases closing with
          | error failure =>
              cases step
              cases failure with
              | error error =>
                  exact ⟨.refuses next advanced, fun _ => steady.advances advanced unreported⟩
              | breach breach => exact absurd rfl (unbroken breach)
          | ok applied =>
              have tracked := advanced.trans (Exploration.advances_track visited
                ({ · with stackDepth := (bounded.search.entered frame).stack.length }))
              obtain ⟨found, explored, explores, goesOn⟩ := Steady.proceeds tracked
                (steady.advances tracked unreported) located next (closes applied rfl)
              simp only [explores] at step
              cases proceeds : explored.proceed (visited.track
                  ({ · with stackDepth := (bounded.search.entered frame).stack.length })) found with
              | mk outcome rest =>
                  obtain ⟨moved, goneOn⟩ := rest
                  obtain ⟨steps, placed, accounted⟩ := goesOn outcome moved goneOn proceeds
                  rw [proceeds] at step
                  have sameResult : result = answer system outcome ∧ after = moved ∧
                      later = goneOn := by
                    cases outcome <;> cases step <;> exact ⟨rfl, rfl, rfl⟩
                  obtain ⟨rfl, rfl, rfl⟩ := sameResult
                  refine ⟨steps system, fun unbrokenStep => ?_⟩
                  refine ⟨invariantAfter unbrokenStep, placed, accounted ?_⟩
                  cases outcome with
                  | ok _ => rfl
                  | error breach => exact absurd rfl (unbrokenStep breach)

/-! ## Whole runs -/

/-- The invariant of a search over any number of steps. -/
inductive Lasting (bounded : BoundedSearch) (run : Exploration R A) (automaton : Automaton)
    (initial : ProductStateId) (root : ProductPoint) : Prop where
  | steady (steady : bounded.Steady run automaton initial root)
  | halted (halted : bounded.Halted run automaton initial)

theorem Lasting.coherent (lasting : bounded.Lasting run automaton initial root) :
    bounded.search.Coherent automaton initial run.space := by
  cases lasting with
  | steady steady => exact steady.invariant.faithful.coherent
  | halted halted => exact halted.coherent

theorem Lasting.doNext (lasting : bounded.Lasting run automaton initial root)
    (located : automaton.Located) (step : bounded.doNext run = (result, after, later)) :
    Steps automaton initial bounded run result after later ∧
      after.Lasting later automaton initial root := by
  cases lasting with
  | halted halted =>
      unfold BoundedSearch.doNext at step
      rw [halted.stopped] at step
      cases step
      exact ⟨.rests halted.stopped, .halted halted⟩
  | steady steady =>
      obtain ⟨steps, unbroken⟩ := steady.doNext located step
      refine ⟨steps, ?_⟩
      by_cases broken : ∃ breach, result = .error (.breach breach)
      · obtain ⟨breach, rfl⟩ := broken
        exact .halted (steps.halted steady.invariant.faithful.history)
      · exact .steady (unbroken fun breach isBreach => broken ⟨breach, isBreach⟩)

theorem Lasting.observed (lasting : bounded.Lasting run automaton initial root)
    (progress : Option Progress) (stopRequested : Bool) :
    bounded.Lasting { run with progress := progress, stopRequested := stopRequested } automaton
      initial root := by
  cases lasting with
  | halted halted => exact .halted ⟨halted.history, halted.walked⟩
  | steady steady =>
      exact .steady { steady with
        invariant := { steady.invariant with
          faithful := { steady.invariant.faithful with } } }

theorem prepare_steady {ready : BoundedSearch} (history : run.space.HasHistory)
    (contained : run.space.contains run.start = true)
    (installed : bounded.search.automaton = some automaton) (located : automaton.Located)
    (prepare : bounded.prepare run = .ok (ready, later)) :
    ∃ initial, ready.search.Pristine initial ∧
      ready.Steady later automaton initial (run.start, automaton.initial) := by
  obtain ⟨other, invariant⟩ := prepare_invariant history contained installed prepare
  obtain ⟨accounted, _⟩ := prepare_accounted prepare
  obtain ⟨search, initial, reset, pristine, coherent, rooted⟩ :=
    Search.reset_eq_ok installed contained
  unfold BoundedSearch.prepare at prepare
  rw [reset] at prepare
  cases prepare
  obtain rfl : other = initial := Option.some.inj
    (invariant.faithful.coherent.origin.symm.trans coherent.origin)
  exact ⟨other, pristine, invariant, pristine.placed located rooted, _, accounted⟩

end Step

end BoundedSearch

end OnTheFly
