import OnTheFly.Exploration.Strategy
import OnTheFly.ModelCheck.Search
import OnTheFly.Proofs.Product.Arena
import OnTheFly.Proofs.Product.Cycles

/-!
Contract: what every search for accepting cycles keeps to.

Owns: the invariant that ties the stack, the colours and the arena of a search
to the synchronous product, and how entering, leaving and choosing a frame keep
it.
Does not own: the order in which a search makes these moves.
-/

set_option autoImplicit false

namespace OnTheFly

theorem Round.isExplored_iff {round : Round} {colour : Colour} :
    round.isExplored colour = true ↔ ∃ paint, colour = .painted round.iteration paint := by
  simp only [Round.isExplored, Bool.or_eq_true, decide_eq_true_eq]
  constructor
  · rintro ((cyan | blue) | red)
    · exact ⟨.cyan, cyan⟩
    · exact ⟨.blue, blue⟩
    · exact ⟨.red, red⟩
  · rintro ⟨paint, rfl⟩
    cases paint with
    | cyan => exact .inl (.inl rfl)
    | blue => exact .inl (.inr rfl)
    | red => exact .inr rfl

namespace Search

variable {R : RuleSystem}

/-- The product states on the stack, the top first. -/
def onStack (search : Search) : List ProductStateId :=
  search.stack.map (·.state)

theorem onStack_congr {search after : Search} (stack : after.stack = search.stack) :
    after.onStack = search.onStack := by
  rw [onStack, stack, onStack]

theorem onStack_eq_nil {search : Search} (stack : search.stack = []) : search.onStack = [] := by
  rw [onStack, stack, List.map_nil]

theorem onStack_eq_cons {search : Search} {top : Frame} {rest : List Frame}
    (stack : search.stack = top :: rest) :
    search.onStack = top.state :: rest.map (·.state) := by
  rw [onStack, stack, List.map_cons]

/-- A path of the arena from `initial`, the last state first. -/
def Threaded (product : Product) (initial : ProductStateId) : List ProductStateId → Prop
  | [] => True
  | [bottom] => bottom = initial
  | top :: below :: rest => product.Linked below top ∧ Threaded product initial (below :: rest)

/-- The invariant of a search. A painted state has all transitions that the
product has at its pair, an unpainted one has none yet. -/
structure Coherent (search : Search) (automaton : Automaton) (initial : ProductStateId)
    (space : StateSpace R) : Prop where
  installed : search.automaton = some automaton
  origin : search.initial = some initial
  arena : search.product.WellFormed
  contained {state : ProductStateId} {entry : ProductState} :
    search.product.state? state = some entry → space.contains entry.state = true
  expanded {state : ProductStateId} : search.product.colour state ≠ .unpainted →
    space.isClosed (search.product.systemState state) = true ∧
      ∃ location, automaton.location? (search.product.location state) = some location ∧
        search.product.steps state =
          productSteps space (search.product.systemState state) location
  bare {state : ProductStateId} :
    search.product.colour state = .unpainted → search.product.out state = []
  rounds {state : ProductStateId} {iteration : Nat} {paint : Paint} :
    search.product.colour state = .painted iteration paint → iteration ≤ search.round.iteration
  cyan_iff {state : ProductStateId} :
    search.product.colour state = search.round.cyan ↔ state ∈ search.onStack
  distinct : search.onStack.Nodup
  threaded : Threaded search.product initial search.onStack
  pending {frame : Frame} : search.next = some frame →
    (∃ entry, search.product.state? frame.state = some entry) ∧
      search.round.isExplored (search.product.colour frame.state) = false ∧
      Threaded search.product initial (frame.state :: search.onStack) ∧
      search.counterExample = none

section

variable {search after : Search} {automaton : Automaton} {initial : ProductStateId}
  {space later : StateSpace R}

theorem Threaded.linked {product : Product} {top below : ProductStateId}
    {rest : List ProductStateId} (threaded : Threaded product initial (top :: below :: rest)) :
    product.Linked below top :=
  threaded.1

theorem Threaded.tail {product : Product} {top : ProductStateId} {rest : List ProductStateId}
    (threaded : Threaded product initial (top :: rest)) : Threaded product initial rest := by
  cases rest with
  | nil => trivial
  | cons below rest => exact threaded.2

theorem Threaded.imp {old new : Product}
    (links : ∀ source target, old.Linked source target → new.Linked source target)
    {path : List ProductStateId} (threaded : Threaded old initial path) :
    Threaded new initial path := by
  induction path with
  | nil => trivial
  | cons top rest inductionHypothesis =>
      cases rest with
      | nil => exact threaded
      | cons below rest => exact ⟨links _ _ threaded.1, inductionHypothesis threaded.2⟩

namespace Coherent

/-! ## Transitions of painted states -/

theorem painted_of_mem (coherent : search.Coherent automaton initial space)
    {state : ProductStateId} (member : state ∈ search.onStack) :
    search.product.colour state ≠ .unpainted := by
  rw [coherent.cyan_iff.2 member]
  exact Colour.noConfusion

/-- No state has been explored in the next round. -/
theorem unexplored_next (coherent : search.Coherent automaton initial space)
    (state : ProductStateId) :
    search.round.next.isExplored (search.product.colour state) = false := by
  rw [Bool.eq_false_iff]
  intro explored
  obtain ⟨paint, painted⟩ := Round.isExplored_iff.1 explored
  have bound := coherent.rounds painted
  simp only [Round.next] at bound
  omega

/-- The system state of the next frame is stored. -/
theorem contains_next (coherent : search.Coherent automaton initial space) {frame : Frame}
    (next : search.next = some frame) :
    space.contains (search.product.systemState frame.state) = true := by
  obtain ⟨⟨entry, present⟩, _⟩ := coherent.pending next
  have known := coherent.contained present
  simpa [Product.systemState, present] using known

/-- The arena holds the transitions of the product at a painted state. -/
theorem synchronous_iff (coherent : search.Coherent automaton initial space)
    {state : ProductStateId} (painted : search.product.colour state ≠ .unpainted)
    {via : Option TransitionId} {target : ProductPoint} :
    Synchronous space automaton (search.product.point state) via target ↔
      ∃ handle transition, (handle, transition) ∈ search.product.outgoing state ∧
        transition.via = via ∧ search.product.point transition.target = target := by
  obtain ⟨_, location, here, complete⟩ := coherent.expanded painted
  have listed : ⟨via, target.1, target.2⟩ ∈
        productSteps space (search.product.systemState state) location ↔
      Synchronous space automaton (search.product.point state) via target :=
    mem_productSteps_iff here _
  rw [← complete, Product.mem_steps] at listed
  exact listed.symm

/-- After any evolution the same transitions leave a painted state. -/
theorem successor_iff (coherent : search.Coherent automaton initial space)
    (wellFormed : space.WellFormed) (kept : space.Extends later) {state : ProductStateId}
    (painted : search.product.colour state ≠ .unpainted) {target : ProductPoint} :
    Successor later automaton (search.product.point state) target ↔
      ∃ next, search.product.Linked state next ∧ search.product.point next = target := by
  have closed := (coherent.expanded painted).1
  unfold Successor
  constructor
  · rintro ⟨via, step⟩
    have before : Synchronous space automaton (search.product.point state) via target :=
      (wellFormed.synchronous_of_closed kept closed).1 step
    obtain ⟨handle, transition, member, _, point⟩ := (coherent.synchronous_iff painted).1 before
    exact ⟨transition.target, ⟨handle, transition, member, rfl⟩, point⟩
  · rintro ⟨_, ⟨handle, transition, member, rfl⟩, point⟩
    refine ⟨transition.via, (wellFormed.synchronous_of_closed kept closed).2 ?_⟩
    exact (coherent.synchronous_iff painted).2 ⟨handle, transition, member, rfl, point⟩

/-! ## Moves -/

theorem evolves (coherent : search.Coherent automaton initial space)
    (wellFormed : space.WellFormed) (kept : space.Extends later) :
    search.Coherent automaton initial later where
  installed := coherent.installed
  origin := coherent.origin
  arena := coherent.arena
  contained present := kept.contains (coherent.contained present)
  expanded := by
    intro state painted
    obtain ⟨closed, location, here, complete⟩ := coherent.expanded painted
    refine ⟨(kept.closed closed).1, location, here, ?_⟩
    rw [complete, wellFormed.productSteps_of_closed kept closed]
  bare := coherent.bare
  rounds := coherent.rounds
  cyan_iff := coherent.cyan_iff
  distinct := coherent.distinct
  threaded := coherent.threaded
  pending := coherent.pending

end Coherent

/-- What only changes colours and marks. -/
structure Touches (search after : Search) : Prop where
  automaton : after.automaton = search.automaton
  initial : after.initial = search.initial
  round : after.round = search.round
  shape : search.product.SameShape after.product

namespace Coherent

/-- The product is repainted, while each colour stays a colour. -/
theorem touched (coherent : search.Coherent automaton initial space)
    (touches : search.Touches after)
    (unpainted_iff : ∀ state, after.product.colour state = .unpainted ↔
      search.product.colour state = .unpainted)
    (rounds : ∀ state iteration paint,
      after.product.colour state = .painted iteration paint →
        iteration ≤ search.round.iteration)
    (cyan_iff : ∀ state,
      after.product.colour state = search.round.cyan ↔ state ∈ after.onStack)
    (distinct : after.onStack.Nodup)
    (threaded : Threaded search.product initial after.onStack)
    (pending : ∀ frame, after.next = some frame →
      (∃ entry, search.product.state? frame.state = some entry) ∧
        search.round.isExplored (after.product.colour frame.state) = false ∧
        Threaded search.product initial (frame.state :: after.onStack) ∧
        after.counterExample = none) :
    after.Coherent automaton initial space where
  installed := touches.automaton.trans coherent.installed
  origin := touches.initial.trans coherent.origin
  arena := touches.shape.wellFormed coherent.arena
  contained := by
    intro state entry present
    obtain ⟨before, presentBefore, sameState, _⟩ := touches.shape.symm.state? present
    rw [← sameState]
    exact coherent.contained presentBefore
  expanded := by
    intro state painted
    have paintedBefore := mt (unpainted_iff state).2 painted
    rw [touches.shape.systemState, touches.shape.location, touches.shape.steps]
    exact coherent.expanded paintedBefore
  bare := by
    intro state unpainted
    rw [touches.shape.out]
    exact coherent.bare ((unpainted_iff state).1 unpainted)
  rounds := by
    intro state iteration paint painted
    rw [touches.round]
    exact rounds state iteration paint painted
  cyan_iff := by
    intro state
    rw [touches.round]
    exact cyan_iff state
  distinct := distinct
  threaded := threaded.imp fun _ _ linked => touches.shape.linked ▸ linked
  pending := by
    intro frame next
    obtain ⟨⟨entry, present⟩, unexplored, path, unreported⟩ := pending frame next
    obtain ⟨entryAfter, presentAfter, _⟩ := touches.shape.state? present
    refine ⟨⟨entryAfter, presentAfter⟩, ?_, ?_, unreported⟩
    · rw [touches.round]
      exact unexplored
    · exact path.imp fun _ _ linked => touches.shape.linked ▸ linked

theorem marked (coherent : search.Coherent automaton initial space)
    (touches : search.Touches after) (colour : after.product.colour = search.product.colour)
    (stack : after.stack = search.stack) (next : after.next = search.next)
    (counterExample : after.counterExample = search.counterExample) :
    after.Coherent automaton initial space := by
  have onStack := onStack_congr stack
  apply coherent.touched touches
  · intro state
    rw [colour]
  · intro state iteration paint
    rw [colour]
    exact coherent.rounds
  · intro state
    rw [colour, onStack]
    exact coherent.cyan_iff
  · rw [onStack]
    exact coherent.distinct
  · rw [onStack]
    exact coherent.threaded
  · rw [next, colour, onStack, counterExample]
    exact fun _ => coherent.pending

/-- The top frame leaves the stack with another paint of the round. -/
theorem left (coherent : search.Coherent automaton initial space)
    (touches : search.Touches after) {top : Frame} (stack : search.stack = top :: after.stack)
    {paint : Paint} (notCyan : paint ≠ .cyan)
    (colour : ∀ state, after.product.colour state =
      if state = top.state then .painted search.round.iteration paint
      else search.product.colour state)
    (next : after.next = none) : after.Coherent automaton initial space := by
  have onStack : search.onStack = top.state :: after.onStack := onStack_eq_cons stack
  have distinct := coherent.distinct
  have threaded := coherent.threaded
  rw [onStack] at distinct threaded
  have paintedTop : search.product.colour top.state ≠ .unpainted :=
    coherent.painted_of_mem (onStack ▸ List.mem_cons_self)
  apply coherent.touched touches
  · intro state
    rw [colour]
    split
    · rename_i isTop
      simp [isTop, paintedTop]
    · rfl
  · intro state iteration other
    rw [colour]
    split
    · rintro ⟨⟩
      exact Nat.le_refl _
    · exact coherent.rounds
  · intro state
    rw [colour]
    split
    · rename_i isTop
      -- A second frame of the same state would contradict the distinct stack.
      simp [Round.cyan, notCyan, isTop, (List.nodup_cons.1 distinct).1]
    · rename_i other
      rw [coherent.cyan_iff, onStack, List.mem_cons]
      simp [other]
  · exact (List.nodup_cons.1 distinct).2
  · exact threaded.tail
  · intro frame pending
    rw [next] at pending
    cases pending

/-- A transition of the top frame to an unexplored state is followed next. -/
theorem chosen (coherent : search.Coherent automaton initial space)
    (unreported : search.counterExample = none) (frame : Frame) {top : Frame} {rest : List Frame}
    (stack : search.stack = top :: rest) (linked : search.product.Linked top.state frame.state)
    (unexplored : search.round.isExplored (search.product.colour frame.state) = false) :
    ({ search with next := some frame } : Search).Coherent automaton initial space := by
  have onStack := onStack_eq_cons stack
  refine { coherent with pending := ?_ }
  rintro _ ⟨⟩
  refine ⟨coherent.arena.linked_valid linked, unexplored, ?_, unreported⟩
  have threaded := coherent.threaded
  change Threaded search.product initial (frame.state :: search.onStack)
  rw [onStack] at threaded ⊢
  exact ⟨linked, threaded⟩

/-- A new round begins with an empty stack, and at the initial state if
anywhere. -/
theorem renewed (coherent : search.Coherent automaton initial space) (stack : search.stack = [])
    {next : Option Frame}
    (pending : ∀ frame, next = some frame → frame.state = initial ∧
      (∃ entry, search.product.state? initial = some entry) ∧ search.counterExample = none) :
    ({ search with round := search.round.next, next := next } : Search).Coherent automaton initial
      space := by
  have unexplored := coherent.unexplored_next
  have empty := onStack_eq_nil stack
  refine { coherent with rounds := ?_, cyan_iff := ?_, pending := ?_ }
  · intro state iteration paint painted
    exact Nat.le_succ_of_le (coherent.rounds painted)
  · intro state
    change search.product.colour state = search.round.next.cyan ↔ state ∈ search.onStack
    rw [empty]
    refine ⟨fun cyan => ?_, fun member => absurd member List.not_mem_nil⟩
    have explored := unexplored state
    rw [cyan] at explored
    simp [Round.isExplored] at explored
  · intro frame isNext
    obtain ⟨rfl, known, unreported⟩ := pending frame isNext
    refine ⟨known, unexplored frame.state, ?_, unreported⟩
    change Threaded search.product frame.state (frame.state :: search.onStack)
    rw [empty]
    rfl

end Coherent

/-! ## Entering a frame -/

/-- What entering a frame does, whether or not its state is expanded. -/
structure Enters (frame : Frame) (search after : Search) : Prop where
  stack : after.stack = frame :: search.stack
  next : after.next = none
  automaton : after.automaton = search.automaton
  initial : after.initial = search.initial
  round : after.round = search.round
  counterExample : after.counterExample = search.counterExample
  colour (state : ProductStateId) : after.product.colour state =
    if state = frame.state then search.round.cyan else search.product.colour state
  isClosed : after.product.isClosed = search.product.isClosed
  isPocket : after.product.isPocket = search.product.isPocket
  present {state : ProductStateId} {entry : ProductState} :
    search.product.state? state = some entry →
      ∃ entryAfter, after.product.state? state = some entryAfter
  point {state : ProductStateId} {entry : ProductState} :
    search.product.state? state = some entry →
      after.product.point state = search.product.point state
  outgoing {state : ProductStateId} : search.product.colour state ≠ .unpainted →
    after.product.outgoing state = search.product.outgoing state
  transition {handle : ProductTransitionId} {transition : ProductTransition} :
    search.product.transition? handle = some transition →
      after.product.transition? handle = some transition
  replayed : search.product.colour frame.state ≠ .unpainted →
    search.product.SameShape after.product
  constructed : search.product.colour frame.state = .unpainted →
    ∃ painted steps, search.product.SameShape painted ∧
      after.product = painted.addSteps frame.state search.round.iteration steps

theorem Enters.isExplored {frame : Frame} (enters : Enters frame search after)
    {state : ProductStateId}
    (known : search.round.isExplored (search.product.colour state) = true ∨ state = frame.state) :
    after.round.isExplored (after.product.colour state) = true := by
  rw [enters.round, enters.colour]
  split
  · exact Round.isExplored_iff.2 ⟨.cyan, rfl⟩
  · rename_i other
    exact known.resolve_right other

/-- The search with the frame on its stack and its state painted. -/
def entered (search : Search) (frame : Frame) : Search :=
  { search with
    product := search.product.paint frame.state search.round.cyan
    stack := frame :: search.stack
    next := none }

theorem sameShape_entered (search : Search) (frame : Frame) :
    search.product.SameShape (search.entered frame).product :=
  Product.sameShape_modify _ _ fun _ => rfl

theorem isClosed_entered (search : Search) (frame : Frame) :
    (search.entered frame).product.isClosed = search.product.isClosed :=
  Product.isClosed_modify _ _ fun _ => rfl

namespace Coherent

theorem enter_eq (coherent : search.Coherent automaton initial space) {frame : Frame}
    (next : search.next = some frame) : search.enter frame = .ok (search.entered frame) := by
  obtain ⟨_, unexplored, _⟩ := coherent.pending next
  simp [enter, unexplored, entered]

theorem colour_entered (coherent : search.Coherent automaton initial space) {frame : Frame}
    (next : search.next = some frame) (state : ProductStateId) :
    (search.entered frame).product.colour state =
      if state = frame.state then search.round.cyan else search.product.colour state := by
  obtain ⟨⟨entry, present⟩, _⟩ := coherent.pending next
  exact Product.colour_modify present _ state

/-- On the stack after a frame is entered are those of before and one more. -/
theorem cyan_entered (coherent : search.Coherent automaton initial space) {frame : Frame}
    (next : search.next = some frame) (state : ProductStateId) :
    (search.entered frame).product.colour state = search.round.cyan ↔
      state ∈ frame.state :: search.onStack := by
  rw [coherent.colour_entered next, List.mem_cons]
  split
  · rename_i isFrame
    simp [isFrame]
  · rename_i other
    rw [coherent.cyan_iff]
    simp [other]

theorem rounds_entered (coherent : search.Coherent automaton initial space) {frame : Frame}
    (next : search.next = some frame) {state : ProductStateId} {iteration : Nat} {paint : Paint}
    (painted : (search.entered frame).product.colour state = .painted iteration paint) :
    iteration ≤ search.round.iteration := by
  rw [coherent.colour_entered next] at painted
  split at painted
  · cases painted
    exact Nat.le_refl _
  · exact coherent.rounds painted

theorem distinct_entered (coherent : search.Coherent automaton initial space) {frame : Frame}
    (next : search.next = some frame) : (frame.state :: search.onStack).Nodup := by
  obtain ⟨_, unexplored, _⟩ := coherent.pending next
  refine List.nodup_cons.2 ⟨fun member => ?_, coherent.distinct⟩
  rw [coherent.cyan_iff.2 member] at unexplored
  simp [Round.isExplored] at unexplored

/-- A state that an earlier round has expanded is entered. -/
theorem reentered (coherent : search.Coherent automaton initial space) {frame : Frame}
    (next : search.next = some frame)
    (painted : search.product.colour frame.state ≠ .unpainted) :
    (search.entered frame).Coherent automaton initial space ∧
      Enters frame search (search.entered frame) := by
  have shape := search.sameShape_entered frame
  have touches : search.Touches (search.entered frame) := ⟨rfl, rfl, rfl, shape⟩
  obtain ⟨_, _, threaded, _⟩ := coherent.pending next
  constructor
  · apply coherent.touched touches
    · intro state
      rw [coherent.colour_entered next]
      split
      · rename_i isFrame
        simp [isFrame, painted, Round.cyan]
      · rfl
    · exact fun _ _ _ => coherent.rounds_entered next
    · exact coherent.cyan_entered next
    · exact coherent.distinct_entered next
    · exact threaded
    · intro _ pending
      cases pending
  · exact
      { stack := rfl, next := rfl, automaton := rfl, initial := rfl, round := rfl,
        counterExample := rfl
        colour := coherent.colour_entered next
        isClosed := search.isClosed_entered frame
        isPocket := Product.isPocket_modify _ _ fun _ => rfl
        present := fun present => (shape.state? present).imp fun _ => And.left
        point := fun _ => congrFun shape.point _
        outgoing := fun _ => congrFun shape.outgoing _
        transition := id
        replayed := fun _ => shape
        constructed := fun fresh => absurd fresh painted }

end Coherent

/-- The search with the frame on its stack and its state expanded. -/
def opened (search : Search) (space : StateSpace R) (frame : Frame) (location : Location) :
    Search :=
  { search.entered frame with
    product := (search.entered frame).product.addSteps frame.state search.round.iteration
      (productSteps space (search.product.systemState frame.state) location) }

theorem expand_entered (installed : search.automaton = some automaton) {frame : Frame}
    {expanded : Search} :
    (search.entered frame).expand space frame.state = .ok expanded ↔
      ∃ location, automaton.location? (search.product.location frame.state) = some location ∧
        expanded = search.opened space frame location := by
  have installedAfter : (search.entered frame).automaton = some automaton := installed
  have shape := search.sameShape_entered frame
  unfold expand
  rw [installedAfter]
  simp only [shape.location, shape.systemState]
  cases here : automaton.location? (search.product.location frame.state) with
  | none => simp
  | some location =>
      simp only [Except.ok.injEq, Option.some.injEq, exists_eq_left']
      rw [Search.opened, installedAfter]
      exact eq_comm

namespace Coherent

/-- Expanding adds to the arena, and the entered state gets its steps. -/
theorem grows (coherent : search.Coherent automaton initial space) {frame : Frame}
    (next : search.next = some frame) (location : Location) :
    (search.opened space frame location).product.WellFormed ∧
      Product.Extends frame.state (search.entered frame).product
        (search.opened space frame location).product ∧
      (search.opened space frame location).product.steps frame.state =
        search.product.steps frame.state ++
          productSteps space (search.product.systemState frame.state) location := by
  have shape := search.sameShape_entered frame
  obtain ⟨⟨entry, present⟩, _⟩ := coherent.pending next
  obtain ⟨paintedEntry, paintedPresent, _⟩ := shape.state? present
  obtain ⟨arena, grown, listed⟩ := (shape.wellFormed coherent.arena).addSteps
    ⟨paintedEntry, paintedPresent⟩ search.round.iteration
    (productSteps space (search.product.systemState frame.state) location)
  exact ⟨arena, grown, listed.trans (by rw [shape.steps])⟩

theorem enters_opened (coherent : search.Coherent automaton initial space) {frame : Frame}
    (next : search.next = some frame)
    (fresh : search.product.colour frame.state = .unpainted) (location : Location) :
    Enters frame search (search.opened space frame location) := by
  have shape := search.sameShape_entered frame
  obtain ⟨_, grown, _⟩ := coherent.grows next location
  exact {
    stack := rfl
    next := rfl
    automaton := rfl
    initial := rfl
    round := rfl
    counterExample := rfl
    colour := fun state => (congrFun grown.colour state).trans (coherent.colour_entered next state)
    isClosed := grown.isClosed.trans (search.isClosed_entered frame)
    isPocket := grown.isPocket.trans (Product.isPocket_modify _ _ fun _ => rfl)
    present := by
      intro state entry present
      obtain ⟨painted, presentPainted, _⟩ := shape.state? present
      exact (grown.kept presentPainted).imp' _ fun _ => And.left
    point := by
      intro state entry present
      obtain ⟨painted, presentPainted, _⟩ := shape.state? present
      exact (grown.point presentPainted).trans (congrFun shape.point state)
    outgoing := by
      intro state painted
      have other : state ≠ frame.state := by
        rintro rfl
        exact painted fresh
      rw [grown.outgoing_of_ne (shape.wellFormed coherent.arena) other, shape.outgoing]
    transition := grown.transition
    replayed := fun painted => absurd fresh painted
    constructed := fun _ => ⟨_, _, shape, rfl⟩ }

/-- The transitions of before are there after, for an unpainted state has none. -/
theorem linked_of_enters (coherent : search.Coherent automaton initial space) {frame : Frame}
    (enters : Enters frame search after)
    {source target : ProductStateId} (linked : search.product.Linked source target) :
    after.product.Linked source target := by
  obtain ⟨handle, transition, member, reached⟩ := linked
  have painted : search.product.colour source ≠ .unpainted := by
    intro unpainted
    have memberOut := (Product.mem_outgoing.1 member).1
    rw [coherent.bare unpainted] at memberOut
    cases memberOut
  exact ⟨handle, transition, (enters.outgoing painted).symm ▸ member, reached⟩

/-- A state that adding brought is a target of the expanded one. -/
theorem contained_opened (coherent : search.Coherent automaton initial space)
    (wellFormed : space.WellFormed) {frame : Frame} (next : search.next = some frame)
    {location : Location}
    (here : automaton.location? (search.product.location frame.state) = some location)
    {state : ProductStateId} {entry : ProductState}
    (present : (search.opened space frame location).product.state? state = some entry) :
    space.contains entry.state = true := by
  rcases Product.addSteps_pair present with ⟨middle, foundMiddle, sameState, _⟩ |
    ⟨step, member, sameState, _⟩
  · obtain ⟨before, foundBefore, sameBefore, _⟩ :=
      (search.sameShape_entered frame).symm.state? foundMiddle
    rw [← sameState, ← sameBefore]
    exact coherent.contained foundBefore
  · have reached := (mem_productSteps_iff here step).1 member
    rw [← sameState]
    exact wellFormed.contains_target (coherent.contains_next next) reached

/-- A state without transitions so far is entered and expanded. -/
theorem opened (coherent : search.Coherent automaton initial space)
    (wellFormed : space.WellFormed) {frame : Frame} (next : search.next = some frame)
    (closed : space.isClosed (search.product.systemState frame.state) = true)
    (fresh : search.product.colour frame.state = .unpainted) {location : Location}
    (here : automaton.location? (search.product.location frame.state) = some location) :
    (search.opened space frame location).Coherent automaton initial space := by
  have shape := search.sameShape_entered frame
  have enters := coherent.enters_opened next fresh location
  obtain ⟨⟨entry, present⟩, _, threaded, _⟩ := coherent.pending next
  obtain ⟨arena, grown, listed⟩ := coherent.grows next location
  exact {
    installed := coherent.installed
    origin := coherent.origin
    arena
    contained := coherent.contained_opened wellFormed next here
    expanded := by
      intro state painted
      rw [enters.colour] at painted
      by_cases isFrame : state = frame.state
      · subst isFrame
        have samePoint := enters.point present
        simp only [Product.point, Prod.mk.injEq] at samePoint
        have nothing : search.product.steps frame.state = [] := by
          simp [Product.steps, Product.outgoing, coherent.bare fresh]
        rw [samePoint.1, samePoint.2, listed, nothing]
        exact ⟨closed, location, here, rfl⟩
      · rw [if_neg isFrame] at painted
        obtain ⟨before, presentBefore⟩ := Product.present_of_colour painted
        have samePoint := enters.point presentBefore
        simp only [Product.point, Prod.mk.injEq] at samePoint
        rw [samePoint.1, samePoint.2,
          grown.steps_of_ne (shape.wellFormed coherent.arena) isFrame, shape.steps]
        exact coherent.expanded painted
    bare := by
      intro state unpainted
      rw [enters.colour] at unpainted
      split at unpainted
      · cases unpainted
      · rename_i other
        rw [grown.out_of_ne other, shape.out]
        exact coherent.bare unpainted
    rounds := by
      intro state iteration paint painted
      rw [enters.colour, ← coherent.colour_entered next] at painted
      exact coherent.rounds_entered next painted
    cyan_iff := by
      intro state
      rw [enters.colour, ← coherent.colour_entered next]
      exact coherent.cyan_entered next state
    distinct := coherent.distinct_entered next
    threaded := threaded.imp fun _ _ => coherent.linked_of_enters enters
    pending := by
      intro _ pending
      cases pending }

/-- A painted state is settled if all its covered transitions lead to settled
states. -/
theorem settled (coherent : search.Coherent automaton initial space)
    (wellFormed : space.WellFormed) (kept : space.Extends later) {state : ProductStateId}
    (painted : search.product.colour state ≠ .unpainted)
    (targets : ∀ target, search.product.Linked state target →
      automaton.isAccepting (search.product.location state) = true ∨
        automaton.isAccepting (search.product.location target) = true →
      Settled later automaton (search.product.point target)) :
    Settled later automaton (search.product.point state) := by
  refine Acc.intro _ ?_
  rintro point ⟨step, covered⟩
  obtain ⟨target, linked, rfl⟩ := (coherent.successor_iff wellFormed kept painted).1 step
  exact targets target linked covered

/-- The product can reach the top of a path through painted states. -/
theorem reaches_of_threaded (coherent : search.Coherent automaton initial space)
    (wellFormed : space.WellFormed) {state : ProductStateId} {path : List ProductStateId}
    (threaded : Threaded search.product initial (state :: path))
    (painted : ∀ below ∈ path, search.product.colour below ≠ .unpainted) :
    Reaches space automaton (search.product.point initial) (search.product.point state) := by
  induction path generalizing state with
  | nil =>
      obtain rfl : state = initial := threaded
      exact .refl
  | cons below rest inductionHypothesis =>
      have reached := inductionHypothesis threaded.tail fun other member =>
        painted other (List.mem_cons_of_mem _ member)
      exact reached.tail ((coherent.successor_iff wellFormed (.refl space)
        (painted below List.mem_cons_self)).2 ⟨state, threaded.linked, rfl⟩)

theorem reaches_next (coherent : search.Coherent automaton initial space)
    (wellFormed : space.WellFormed) {frame : Frame} (next : search.next = some frame) :
    Reaches space automaton (search.product.point initial) (search.product.point frame.state) :=
  coherent.reaches_of_threaded wellFormed (coherent.pending next).2.2.1
    fun _ => coherent.painted_of_mem

/-- If a set of painted states holds the initial one and all targets of its
members, then it stands for every point that the product can reach. -/
theorem covers (coherent : search.Coherent automaton initial space)
    (wellFormed : space.WellFormed) (kept : space.Extends later)
    {visited : ProductStateId → Prop} (first : visited initial)
    (painted : ∀ state, visited state → search.product.colour state ≠ .unpainted)
    (follows : ∀ state target, visited state → search.product.Linked state target →
      visited target)
    {point : ProductPoint}
    (reached : Reaches later automaton (search.product.point initial) point) :
    ∃ state, visited state ∧ search.product.point state = point := by
  induction reached with
  | refl => exact ⟨initial, first, rfl⟩
  | tail _ step inductionHypothesis =>
      obtain ⟨state, isVisited, rfl⟩ := inductionHypothesis
      obtain ⟨target, linked, rfl⟩ :=
        (coherent.successor_iff wellFormed kept (painted state isVisited)).1 step
      exact ⟨target, follows state target isVisited linked, rfl⟩

end Coherent

/-! ## The beginning -/

/-- A search that has not made a step yet. -/
structure Pristine (search : Search) (initial : ProductStateId) : Prop where
  next : search.next = some { state := initial }
  stack : search.stack = []
  round : search.round = {}
  counterExample : search.counterExample = none
  colour (state : ProductStateId) : search.product.colour state = .unpainted
  isClosed (state : ProductStateId) : search.product.isClosed state = false
  isPocket (state : ProductStateId) : search.product.isPocket state = false
  alone {state : ProductStateId} {entry : ProductState} :
    search.product.state? state = some entry → state = initial

/-- A reset search starts at the start state and the initial location. -/
theorem reset_eq_ok {start : StateId} (installed : search.automaton = some automaton)
    (contained : space.contains start = true) :
    ∃ ready initial, search.reset start = .ok ready ∧ ready.Pristine initial ∧
      ready.Coherent automaton initial space ∧
      ready.product.point initial = (start, automaton.initial) := by
  let added := ({} : Product).addState start automaton.initial 1
  have arena : added.2.WellFormed := Product.wellFormed_empty.addState
  obtain ⟨entry, present, sameStart, samePlace⟩ :=
    Product.wellFormed_empty.addState_target start automaton.initial 1
  have only : ∀ {state other}, added.2.state? state = some other →
      state = added.1.1 ∧
        other = { state := start, location := automaton.initial, iteration := 1 } := by
    intro state other found
    rcases Product.addState_cases found with old | ⟨handle, _, new⟩
    · simp [Product.state?] at old
    · exact ⟨(congrArg Prod.fst handle).symm, new⟩
  have colour : ∀ state, added.2.colour state = .unpainted := by
    intro state
    unfold Product.colour
    cases found : added.2.state? state with
    | none => rfl
    | some other => simp [(only found).2]
  have blank : ∀ state, added.2.isClosed state = false ∧ added.2.isPocket state = false := by
    intro state
    unfold Product.isClosed Product.isPocket
    cases found : added.2.state? state with
    | none => exact ⟨rfl, rfl⟩
    | some other => simp [(only found).2]
  refine ⟨{
      automaton := some automaton
      product := added.2
      initial := some added.1.1
      next := some { state := added.1.1 } }, added.1.1, ?_, ?_, ?_, ?_⟩
  · simp [reset, installed, added, Product.clear]
  · exact ⟨rfl, rfl, rfl, rfl, colour, fun state => (blank state).1, fun state => (blank state).2,
      fun found => (only found).1⟩
  · exact {
      installed := rfl
      origin := rfl
      arena
      contained := by
        intro state other found
        rw [(only found).2]
        exact contained
      expanded := fun {state} painted => absurd (colour state) painted
      bare := by
        intro state _
        unfold Product.out
        cases found : added.2.state? state with
        | none => rfl
        | some other => simp [(only found).2]
      rounds := by
        intro state iteration paint painted
        rw [colour] at painted
        cases painted
      cyan_iff := by
        intro state
        simp [colour, Round.cyan, onStack]
      distinct := List.nodup_nil
      threaded := trivial
      pending := by
        rintro _ ⟨⟩
        refine ⟨⟨entry, present⟩, ?_, rfl, rfl⟩
        rw [colour]
        rfl }
  · rw [Product.point_of_state? present, sameStart, samePlace]

end

end Search

end OnTheFly
