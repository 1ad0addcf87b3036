import OnTheFly.Proofs.Strategy.Any

/-!
Contract: how a search constructs the product.

Owns: the transitions that the product has at a system state and a location,
written out; the product states that the attempts of a search have put on its
stack; and that at any time exactly these have transitions, namely those of the
product, in order, and each of them once. A state that comes back to the stack
in a later round is not expanded again.
-/

set_option autoImplicit false

namespace OnTheFly

variable {R : RuleSystem}

/-! ## The transitions of the product -/

namespace StateSpace

variable {space : StateSpace R} {state : StateId}

/-- Whether a guard holds if the labels of the transitions that leave a state,
self-loops included, are all that is true. -/
def Enables (space : StateSpace R) (state : StateId) (guard : Guard) : Prop :=
  (∀ name ∈ guard.positive.names, name ∈ (space.outgoing state).map (·.2.rule)) ∧
    ∀ name ∈ guard.negative.names, name ∉ (space.outgoing state).map (·.2.rule)

instance (space : StateSpace R) (state : StateId) (guard : Guard) :
    Decidable (space.Enables state guard) :=
  inferInstanceAs (Decidable (_ ∧ _))

/-- The transitions of the product at a system state and a location. Each edge
of the location that is enabled there goes with each system transition to
another state, or, if there is none, with the system state as it is. -/
def synchronised (space : StateSpace R) (state : StateId) (location : Location) :
    List ProductStep :=
  (location.edges.filter fun edge => space.Enables state edge.guard).flatMap fun edge =>
    if ∀ entry ∈ space.outgoing state, entry.2.target = state then
      [⟨none, state, edge.target⟩]
    else
      ((space.outgoing state).filter fun entry => entry.2.target ≠ state).map fun entry =>
        ⟨some entry.1, entry.2.target, edge.target⟩

theorem enables_iff {guard : Guard} :
    space.Enables state guard ↔ guard.isEnabled (space.outLabels state) = true := by
  rw [Guard.isEnabled_iff]
  simp only [outLabels, NameSet.mem_ofList]
  rfl

theorem WellFormed.moves_eq (wellFormed : space.WellFormed) (state : StateId) :
    space.moves state = (space.outgoing state).filter fun entry => entry.2.target ≠ state := by
  refine List.filter_congr fun entry member => ?_
  obtain ⟨memberOut, found⟩ := mem_outgoing.1 member
  obtain ⟨transition, foundToo, source, _⟩ := wellFormed.out_valid memberOut
  rw [found] at foundToo
  cases foundToo
  simp [Transition.isSelfLoop, source, eq_comm]

/-- The steps that a search adds are the transitions of the product. -/
theorem WellFormed.productSteps_eq (wellFormed : space.WellFormed) (state : StateId)
    (location : Location) :
    productSteps space state location = space.synchronised state location := by
  have enabled : location.edges.filter (·.guard.isEnabled (space.outLabels state)) =
      location.edges.filter fun edge => space.Enables state edge.guard := by
    refine List.filter_congr fun edge _ => ?_
    rw [← Bool.decide_coe (edge.guard.isEnabled _)]
    exact decide_eq_decide.2 enables_iff.symm
  unfold productSteps synchronised Automaton.enabledTargets
  rw [enabled, List.flatMap_map]
  refine List.flatMap_congr fun edge _ => ?_
  unfold systemSteps
  rw [wellFormed.moves_eq]
  split
  · rename_i none_
    have stays : ∀ entry ∈ space.outgoing state, entry.2.target = state := by
      simpa [List.filter_eq_nil_iff] using none_
    rw [if_pos stays]
    rfl
  · rename_i some_
    have leaves : ¬ ∀ entry ∈ space.outgoing state, entry.2.target = state := by
      simpa [List.filter_eq_nil_iff] using some_
    rw [if_neg leaves, List.map_map]
    rfl

end StateSpace

/-! ## Transitions of an arena -/

namespace Product

/-- Whether every transition is listed at its source, and none is listed twice. -/
structure Listed (product : Product) : Prop where
  nodup (state : ProductStateId) : (product.out state).Nodup
  listed {handle : ProductTransitionId} {transition : ProductTransition} :
    product.transition? handle = some transition → handle ∈ product.out transition.source

variable {product after : Product}

theorem Listed.sameShape (listed : product.Listed) (shape : product.SameShape after) :
    after.Listed := by
  constructor
  · intro state
    rw [shape.out]
    exact listed.nodup state
  · intro handle transition
    rw [shape.out, shape.transition?]
    exact listed.listed

section

variable {source : ProductStateId} {via : Option TransitionId} {target : StateId}
  {location : LocationId} {iteration : Nat}

theorem Listed.addSuccessor (listed : product.Listed) (wellFormed : product.WellFormed)
    (known : ∃ entry, product.state? source = some entry) :
    (product.addSuccessor source via target location iteration).2.Listed := by
  constructor
  · intro state
    rw [out_addSuccessor known]
    split
    · -- The new handle is beyond those of all transitions so far.
      have unused : ⟨product.transitions.size⟩ ∉ product.out state := by
        intro member
        obtain ⟨entry, present, memberEntry⟩ := mem_out.1 member
        obtain ⟨transition, found, _⟩ := wellFormed.out_valid present memberEntry
        simp [transition?] at found
      exact List.nodup_append_comm.2 (List.nodup_cons.2 ⟨unused, listed.nodup state⟩)
    · exact listed.nodup state
  · intro handle transition found
    rw [transition?_addSuccessor] at found
    rw [out_addSuccessor known]
    split at found
    · rename_i isNew
      cases found
      rw [if_pos rfl, isNew]
      exact List.mem_append_right _ List.mem_cons_self
    · have member := listed.listed found
      split
      · exact List.mem_append_left _ member
      · exact member

end

theorem Listed.addSteps (listed : product.Listed) (wellFormed : product.WellFormed)
    {source : ProductStateId} (known : ∃ entry, product.state? source = some entry)
    (iteration : Nat) (steps : List ProductStep) :
    (product.addSteps source iteration steps).Listed := by
  induction steps generalizing product with
  | nil => exact listed
  | cons step rest inductionHypothesis =>
      obtain ⟨entry, present⟩ := known
      have knownAfter := (extends_addSuccessor step.via step.state step.location iteration
        ⟨entry, present⟩).kept present
      exact inductionHypothesis (listed.addSuccessor wellFormed ⟨entry, present⟩)
        (wellFormed.addSuccessor ⟨entry, present⟩) (knownAfter.imp' _ fun _ => And.left)

end Product

/-! ## Steps of a search -/

namespace Search

variable {search opened after : Search} {automaton : Automaton} {initial : ProductStateId}
  {space : StateSpace R} {frame : Frame}

/-- The product state that a step puts on the stack: that of the next frame,
unless its system state could not be closed. -/
def pushedBy? (search : Search) : Except Failure StateId → Option ProductStateId
  | .error (.error _) => none
  | _ => search.next.map (·.state)

/-- What putting a frame on the stack does to the colours and to the arena. -/
structure Pushes (frame : Frame) (search after : Search) : Prop where
  painted_iff (state : ProductStateId) : after.product.colour state ≠ .unpainted ↔
    search.product.colour state ≠ .unpainted ∨ state = frame.state
  listed : search.product.Listed → after.product.Listed
  replayed : search.product.colour frame.state ≠ .unpainted →
    search.product.SameShape after.product

/-- What becomes of a search in a step that puts this state on its stack, or
none. -/
inductive Constructs (search : Search) : Search → Option ProductStateId → Prop where
  | rests : Constructs search search none
  | pushes {frame : Frame} {after : Search} (pushes : Pushes frame search after) :
      Constructs search after (some frame.state)

theorem Coherent.painted_entered (coherent : search.Coherent automaton initial space)
    (enters : Enters frame search opened) {state : ProductStateId}
    (member : state ∈ opened.onStack) : opened.product.colour state ≠ .unpainted := by
  rw [onStack_eq_cons enters.stack] at member
  rw [enters.colour]
  split
  · exact Colour.noConfusion
  · rename_i other
    exact coherent.painted_of_mem ((List.mem_cons.1 member).resolve_left other)

theorem Repaints.painted_iff (repaints : opened.Repaints after)
    (painted : ∀ state ∈ opened.onStack, opened.product.colour state ≠ .unpainted)
    (state : ProductStateId) :
    after.product.colour state ≠ .unpainted ↔ opened.product.colour state ≠ .unpainted := by
  rcases repaints.colour state with same | ⟨member, paint, repainted⟩
  · rw [same]
  · rw [repainted]
    exact ⟨fun _ => painted state member, fun _ => Colour.noConfusion⟩

/-- A frame is entered, after which only colours and marks change. -/
theorem Enters.pushes (coherent : search.Coherent automaton initial space)
    (next : search.next = some frame) (enters : Enters frame search opened)
    (shape : opened.product.SameShape after.product)
    (colours : ∀ state, after.product.colour state ≠ .unpainted ↔
      opened.product.colour state ≠ .unpainted) : Pushes frame search after := by
  constructor
  · intro state
    rw [colours, enters.colour]
    split
    · rename_i isFrame
      simp [isFrame, Round.cyan]
    · rename_i other
      simp [other]
  · intro listed
    by_cases fresh : search.product.colour frame.state = .unpainted
    · obtain ⟨painted, steps, samePainted, expanded⟩ := enters.constructed fresh
      obtain ⟨⟨entry, present⟩, _⟩ := coherent.pending next
      have known : ∃ entry, painted.state? frame.state = some entry :=
        (samePainted.state? present).imp fun _ => And.left
      have listedOpened := (listed.sameShape samePainted).addSteps
        (samePainted.wellFormed coherent.arena) known search.round.iteration steps
      rw [← expanded] at listedOpened
      exact listedOpened.sameShape shape
    · exact listed.sameShape ((enters.replayed fresh).trans shape)
  · exact fun painted => (enters.replayed painted).trans shape

/-- Whether a search has painted exactly these states, and its arena lists every
transition once. -/
structure Assembled (pushed : List ProductStateId) (search : Search) : Prop where
  painted_iff (state : ProductStateId) :
    state ∈ pushed ↔ search.product.colour state ≠ .unpainted
  listed : search.product.Listed

theorem Assembled.constructs {pushed : List ProductStateId} {pushedNow : Option ProductStateId}
    (assembled : search.Assembled pushed) (constructs : search.Constructs after pushedNow) :
    after.Assembled (pushed ++ pushedNow.toList) := by
  cases constructs with
  | rests => exact (List.append_nil pushed).symm ▸ assembled
  | @pushes frame _ pushes =>
      refine ⟨fun state => ?_, pushes.listed assembled.listed⟩
      rw [List.mem_append, assembled.painted_iff, pushes.painted_iff, Option.toList_some,
        List.mem_singleton]

/-- A step that puts no new state on the stack adds nothing to the arena. -/
theorem Assembled.replays {pushed : List ProductStateId} {pushedNow : Option ProductStateId}
    (assembled : search.Assembled pushed) (constructs : search.Constructs after pushedNow)
    (known : ∀ state, pushedNow = some state → state ∈ pushed) :
    search.product.SameShape after.product := by
  cases constructs with
  | rests => exact .refl _
  | pushes pushes => exact pushes.replayed ((assembled.painted_iff _).1 (known _ rfl))

/-- A search begins with nothing painted and no transitions. -/
theorem reset_assembled {start : StateId} (contained : space.contains start = true)
    (reset : search.reset start = .ok after) : after.Assembled [] := by
  cases installed : search.automaton with
  | none => simp [Search.reset, installed] at reset
  | some automaton =>
      obtain ⟨_, _, same, pristine, coherent, _⟩ := reset_eq_ok installed contained
      cases reset.symm.trans same
      refine ⟨fun state => by simp [pristine.colour], fun state => ?_, fun found => ?_⟩
      · rw [coherent.bare (pristine.colour state)]
        exact List.nodup_nil
      · have none_ : after.product.transitions = #[] := by
          simp only [Search.reset, installed, Except.ok.injEq] at reset
          rw [← reset]
          exact Product.transitions_addState {} start automaton.initial 1
        simp [Product.transition?, none_] at found

end Search

theorem LtlSearch.doNext_constructs {G A : Type} [Chooser G] [Acceptor R A]
    {automaton : Automaton} {initial : ProductStateId} {root : ProductPoint}
    {ltl after : LtlSearch G} {run later : Exploration R A} {result : Except Failure StateId}
    (located : automaton.Located) (invariant : ltl.Invariant run automaton initial root)
    (placed : ltl.search.Placed automaton) (step : ltl.doNext run = (result, after, later)) :
    ltl.search.Constructs after.search (ltl.search.pushedBy? result) := by
  have coherent := invariant.faithful.coherent
  have unbroken := (doNext_recolours located invariant placed step).1
  cases doNext_move coherent step unbroken with
  | rest stopped =>
      rw [show ltl.search.pushedBy? (.ok run.start) = none by simp [Search.pushedBy?, stopped]]
      exact .rests
  | @refuse _ failure _ next closed =>
      cases failure with
      | error error => exact .rests
      | breach breach => exact absurd rfl (unbroken breach)
  | @visit frame _ _ _ _ _ _ next closed here opens explores =>
      obtain ⟨_, _, _, enters, touches, _⟩ := invariant.visit next closed here opens explores
      -- Once the frame is entered the search only walks back, which paints the stack.
      have repaints := explore_repaints (coherent.present_opened next enters) explores
      rw [show ltl.search.pushedBy? (.ok _) = some frame.state by simp [Search.pushedBy?, next]]
      exact .pushes (enters.pushes coherent next touches.shape
        (repaints.painted_iff fun _ => coherent.painted_entered enters))

theorem BoundedSearch.Steps.constructs {A : Type} {automaton : Automaton}
    {initial : ProductStateId} {bounded after : BoundedSearch} {run later : Exploration R A}
    {result : Except Failure StateId}
    (coherent : bounded.search.Coherent automaton initial run.space)
    (wellFormed : later.space.WellFormed)
    (steps : Steps automaton initial bounded run result after later) :
    bounded.search.Constructs after.search (bounded.search.pushedBy? result) := by
  cases steps with
  | rests stopped =>
      rw [show bounded.search.pushedBy? (.ok run.start) = none by
        simp [Search.pushedBy?, stopped]]
      exact .rests
  | refuses next advanced => exact .rests
  | @reports frame _ _ state _ advanced opens =>
      have looked := (findCycle_spec opens.look).1.defers
      rw [show bounded.search.pushedBy? (.ok state) = some frame.state by
        simp [Search.pushedBy?, opens.next]]
      exact .pushes (opens.enters.pushes coherent opens.next looked.touches.shape
        (looked.repaints.painted_iff fun _ => coherent.painted_entered opens.enters))
  | @walks frame opened passed reached _ _ outcome state _ advanced opens walk accounted arrives =>
      have looked := (findCycle_spec opens.look).1.defers
      have walking := opens.walking rfl
      have completed : passed.search.Repaints (passed.completed frame.state).search :=
        .of_colour rfl rfl (passed.colour_completed frame.state)
      have repaints : opened.Repaints reached.search :=
        looked.repaints.trans (completed.trans (walking.repaints wellFormed walk))
      have shape : opened.product.SameShape after.search.product :=
        looked.touches.shape.trans ((passed.touches_completed frame.state).shape.trans
          ((walking.walks wellFormed walk).2.1.trans arrives.sameShape))
      -- A limit that cannot be relaxed is met after the frame was entered.
      have pushed : bounded.search.pushedBy? (answer state outcome) = some frame.state := by
        cases outcome <;> simp [Search.pushedBy?, answer, opens.next]
      rw [pushed]
      refine .pushes (opens.enters.pushes coherent opens.next shape fun other => ?_)
      rw [arrives.recolours.1]
      exact repaints.painted_iff (fun _ => coherent.painted_entered opens.enters) other

/-! ## Runs -/

namespace AnyStrategy

variable {G A : Type} {strategy after : AnyStrategy G} {run later : Exploration R A}

/-- The product states that attempts have put on the stack, in order. -/
def pushed (trail : List (AnyStrategy G × Except Failure StateId)) : List ProductStateId :=
  trail.filterMap fun attempt => attempt.1.search?.bind (·.pushedBy? attempt.2)

theorem pushed_concat {trail : List (AnyStrategy G × Except Failure StateId)} {search : Search}
    (isSearch : strategy.search? = some search) (result : Except Failure StateId) :
    pushed (trail ++ [(strategy, result)]) = pushed trail ++ (search.pushedBy? result).toList := by
  unfold pushed
  rw [List.filterMap_append]
  cases pushes : search.pushedBy? result <;> simp [isSearch, pushes]

variable [Chooser G] [Acceptor R A]

theorem Sound.constructs {result : Except Failure StateId} {searchAfter : Search}
    (sound : strategy.Sound run) (step : Strategy.doNext strategy run = (result, after, later))
    (isSearchAfter : after.search? = some searchAfter) :
    ∃ search, strategy.search? = some search ∧
      search.Constructs searchAfter (search.pushedBy? result) := by
  have keeps := sound.keeps
  cases strategy with
  | closing held =>
      cases step
      cases isSearchAfter
  | linear held =>
      cases step
      cases isSearchAfter
  | ltl held =>
      obtain ⟨automaton, initial, root, located, invariant, placed⟩ := keeps
      change wrap .ltl (held.doNext run) = _ at step
      cases inner : held.doNext run with
      | mk answer rest =>
          rw [inner] at step
          cases step
          cases isSearchAfter
          exact ⟨held.search, rfl, LtlSearch.doNext_constructs located invariant placed inner⟩
  | bounded held =>
      obtain ⟨automaton, initial, root, located, lasting⟩ := keeps
      change wrap .bounded (held.doNext run) = _ at step
      cases inner : held.doNext run with
      | mk answer rest =>
          rw [inner] at step
          cases step
          cases isSearchAfter
          obtain ⟨steps, _⟩ := lasting.doNext located inner
          have historyAfter := sound.history.evolves steps.advances.space
          exact ⟨held.search, rfl, steps.constructs lasting.coherent historyAfter.wellFormed⟩

theorem prepare_reset {ready : AnyStrategy G} {search : Search}
    (prepare : Strategy.prepare strategy run = (.ok (), ready, later))
    (isSearch : ready.search? = some search) :
    ∃ origin : Search, origin.reset run.start = .ok search := by
  cases strategy with
  | closing held =>
      cases prepare
      cases isSearch
  | linear held =>
      cases prepare
      cases isSearch
  | ltl held =>
      change wrap .ltl (Strategy.prepare held run) = _ at prepare
      cases prepared : held.search.reset run.start with
      | error error =>
          simp [Strategy.prepare, LtlSearch.prepare, prepared, wrap] at prepare
      | ok reset =>
          simp only [Strategy.prepare, LtlSearch.prepare, prepared, wrap] at prepare
          cases prepare
          cases isSearch
          exact ⟨held.search, prepared⟩
  | bounded held =>
      change wrap .bounded (Strategy.prepare held run) = _ at prepare
      cases prepared : held.search.reset run.start with
      | error error =>
          simp [Strategy.prepare, BoundedSearch.prepare, prepared, wrap] at prepare
      | ok reset =>
          simp only [Strategy.prepare, BoundedSearch.prepare, prepared, wrap] at prepare
          cases prepare
          cases isSearch
          exact ⟨held.search, prepared⟩

variable {trail : List (AnyStrategy G × Except Failure StateId)}

/-- The search of a strategy has painted what the attempts on the way to it have
put on the stack. -/
theorem attempts_assembled (built : strategy.Built) (history : run.space.HasHistory)
    (contained : run.space.contains run.start = true)
    (attempts : Attempts strategy run trail after later) :
    after.Sound later ∧
      ∀ search, after.search? = some search → search.Assembled (pushed trail) := by
  induction attempts with
  | prepared prepare =>
      refine ⟨prepare_sound built history contained prepare, fun search isSearch => ?_⟩
      obtain ⟨origin, reset⟩ := prepare_reset prepare isSearch
      exact Search.reset_assembled contained reset
  | attempted _ step inductionHypothesis =>
      obtain ⟨sound, assembled⟩ := inductionHypothesis
      refine ⟨(sound.doNext step).2.1, fun searchAfter isSearchAfter => ?_⟩
      obtain ⟨search, isSearch, constructs⟩ := sound.constructs step isSearchAfter
      rw [pushed_concat isSearch]
      exact (assembled search isSearch).constructs constructs
  | observed progress stopRequested _ inductionHypothesis =>
      exact ⟨inductionHypothesis.1.observed progress stopRequested, inductionHypothesis.2⟩

end AnyStrategy

/-- Whatever the rules, the history of the state space, the automaton and the
boundary, and whatever the steps of a search answer: at any time every product
state that was put on the stack has the transitions of the product, in order,
and every other product state has none. Each transition is listed at its source
only, and once. A step that puts a state on the stack again, or none, leaves states and
transitions of the product as they are. -/
theorem product_constructed_once {G A : Type} [Chooser G] [Acceptor R A]
    {strategy current : AnyStrategy G} (built : strategy.Built) {run now : Exploration R A}
    (history : run.space.HasHistory) (contained : run.space.contains run.start = true)
    {trail : List (AnyStrategy G × Except Failure StateId)}
    (attempts : Attempts strategy run trail current now) {search : Search}
    (isSearch : current.search? = some search) :
    (∀ state ∈ AnyStrategy.pushed trail, ∃ automaton location,
      search.automaton = some automaton ∧
      automaton.location? (search.product.location state) = some location ∧
      now.space.isClosed (search.product.systemState state) = true ∧
      search.product.steps state =
        now.space.synchronised (search.product.systemState state) location) ∧
    (∀ state, state ∉ AnyStrategy.pushed trail → search.product.out state = []) ∧
    (∀ state, (search.product.out state).Nodup ∧
      ∀ handle, handle ∈ search.product.out state ↔ ∃ transition,
        search.product.transition? handle = some transition ∧ transition.source = state) ∧
    search.path ⊆ AnyStrategy.pushed trail ∧
    ∀ result after later, Strategy.doNext current now = (result, after, later) →
      (∀ state, search.pushedBy? result = some state → state ∈ AnyStrategy.pushed trail) →
      ∃ searchAfter, after.search? = some searchAfter ∧
        search.product.SameShape searchAfter.product := by
  obtain ⟨sound, assembles⟩ := AnyStrategy.attempts_assembled built history contained attempts
  have assembled := assembles search isSearch
  obtain ⟨automaton, initial, coherent⟩ := sound.coherent isSearch
  refine ⟨?_, ?_, fun state => ⟨assembled.listed.nodup state, fun handle => ?_⟩, ?_, ?_⟩
  · intro state member
    obtain ⟨closed, location, here, complete⟩ :=
      coherent.expanded ((assembled.painted_iff state).1 member)
    rw [sound.history.wellFormed.productSteps_eq] at complete
    exact ⟨automaton, location, coherent.installed, here, closed, complete⟩
  · intro state absent
    exact coherent.bare (Decidable.not_not.1 (mt (assembled.painted_iff state).2 absent))
  · constructor
    · intro member
      obtain ⟨entry, present, memberEntry⟩ := Product.mem_out.1 member
      obtain ⟨transition, found, source, _⟩ := coherent.arena.out_valid present memberEntry
      exact ⟨transition, found, source⟩
    · rintro ⟨transition, found, rfl⟩
      exact assembled.listed.listed found
  · intro state onPath
    rw [Search.path_eq_reverse, List.mem_reverse] at onPath
    exact (assembled.painted_iff state).2 (coherent.painted_of_mem onPath)
  · intro result after later step known
    obtain ⟨searchAfter, isSearchAfter, _⟩ := (sound.doNext step).2.2 search isSearch
    obtain ⟨same, isSame, constructs⟩ := sound.constructs step isSearchAfter
    cases isSearch.symm.trans isSame
    exact ⟨searchAfter, isSearchAfter, assembled.replays constructs known⟩

/-- The fork, where the first attempt to drop is interrupted. -/
def heldSystem : LabelledSystem :=
  { forkSystem with interruptions := ⟨[("drop", 1)]⟩ }

def heldRun : Exploration heldSystem.rules CounterExamples where
  space := (StateSpace.create heldSystem.rules heldSystem.interruptions).drainEvents.2
  acceptor := {}
  config := {}
  start := StateSpace.startState
  known := #[true]
  progress := none
  stopRequested := false

/-- So many attempts of the bounded search of the fork. -/
def heldAttempts (count : Nat) : List (AnyStrategy LastChoice × Except Failure StateId) ×
    AnyStrategy LastChoice × Exploration heldSystem.rules CounterExamples :=
  let (_, ready, opened) := Strategy.prepare forkSearch heldRun
  attempted ready opened count

/-- The first attempt is interrupted. The next two put the hub and the leaf on
the stack, and one more puts the hub there again, in the second round. It has
the transitions that it had before, and the side has none yet. -/
theorem heldAttempts_constructed_once :
    forkSearch.Built ∧ heldRun.space.HasHistory ∧
      AnyStrategy.pushed (heldAttempts 3).1 = [⟨0⟩, ⟨1⟩] ∧
      AnyStrategy.pushed (heldAttempts 4).1 = [⟨0⟩, ⟨1⟩, ⟨0⟩] ∧
      ∃ before after : Search, (heldAttempts 3).2.1.search? = some before ∧
        (heldAttempts 4).2.1.search? = some after ∧
        before.product.SameShape after.product ∧
        after.product.systemState ⟨0⟩ = ⟨0⟩ ∧ after.product.systemState ⟨2⟩ = ⟨2⟩ ∧
        after.product.steps ⟨0⟩ = [⟨some ⟨0⟩, ⟨1⟩, ⟨0⟩⟩, ⟨some ⟨1⟩, ⟨2⟩, ⟨0⟩⟩] ∧
        (∃ location, after.product.steps ⟨0⟩ =
          (heldAttempts 4).2.2.space.synchronised ⟨0⟩ location) ∧
        after.product.out ⟨2⟩ = [] := by
  have built : forkSearch.Built := by
    intro search automaton isSearch installed
    cases isSearch
    cases installed
    exact ⟨onceDraft, by decide +kernel⟩
  have history : heldRun.space.HasHistory := ⟨heldSystem.interruptions, .single (.drain _)⟩
  have attempts (count : Nat) : Attempts forkSearch heldRun (heldAttempts count).1
      (heldAttempts count).2.1 (heldAttempts count).2.2 := attempts_attempted rfl count
  have pushedBefore : AnyStrategy.pushed (heldAttempts 3).1 = [⟨0⟩, ⟨1⟩] := by decide +kernel
  have pushedAfter : AnyStrategy.pushed (heldAttempts 4).1 = [⟨0⟩, ⟨1⟩, ⟨0⟩] := by
    decide +kernel
  have here : (heldAttempts 3).2.1.search?.map (·.pushedBy?
      (Strategy.doNext (heldAttempts 3).2.1 (heldAttempts 3).2.2).1) = some (some ⟨0⟩) := by
    decide +kernel
  have there : (heldAttempts 4).2.1.search?.map (fun search => (search.product.systemState ⟨0⟩,
      search.product.systemState ⟨2⟩, search.product.steps ⟨0⟩)) =
        some (⟨0⟩, ⟨2⟩, [⟨some ⟨0⟩, ⟨1⟩, ⟨0⟩⟩, ⟨some ⟨1⟩, ⟨2⟩, ⟨0⟩⟩]) := by decide +kernel
  obtain ⟨before, isBefore, again⟩ := Option.map_eq_some_iff.1 here
  obtain ⟨after, isAfter, facts⟩ := Option.map_eq_some_iff.1 there
  simp only [Prod.mk.injEq] at facts
  obtain ⟨hub, side, steps⟩ := facts
  obtain ⟨_, _, _, _, replays⟩ :=
    product_constructed_once built history rfl (attempts 3) isBefore
  obtain ⟨expanded, bare, _⟩ := product_constructed_once built history rfl (attempts 4) isAfter
  obtain ⟨same, isSame, shape⟩ := replays _ _ _ rfl fun state isPushed => by
    cases again.symm.trans isPushed
    rw [pushedBefore]
    exact List.mem_cons_self
  cases isAfter.symm.trans isSame
  obtain ⟨_, location, _, _, _, complete⟩ := expanded ⟨0⟩ (by simp [pushedAfter])
  rw [hub] at complete
  exact ⟨built, history, pushedBefore, pushedAfter, before, after, isBefore, isAfter, shape, hub,
    side, steps, ⟨location, complete⟩, bare ⟨2⟩ (by simp [pushedAfter])⟩

end OnTheFly
