import OnTheFly.Proofs.ModelCheck.Bounded.Moves
import OnTheFly.Proofs.ModelCheck.Bounded.Termination

/-!
Contract: after a pocket state the system moves finitely often.

Owns: that the moves between pocket states are well-founded in every state of a
search, and what follows for the paths and cycles of the product.
Does not own: why a search may leave pocket states out.

A state is marked when it is left and all its moves lead to marked states. So
the order in which states are marked is an order in which moves go down.
-/

set_option autoImplicit false

namespace OnTheFly

open Relation

variable {R : RuleSystem}

/-! ## Moves -/

/-- Whether the system moves on the way from one state of the arena to the
other. -/
def Product.MovesTo (product : Product) (source target : ProductStateId) : Prop :=
  ∃ handle transition, (handle, transition) ∈ product.outgoing source ∧
    transition.via.isSome = true ∧ transition.target = target

/-- A transition of the product on which the system moves. -/
def Moves (space : StateSpace R) (automaton : Automaton) (source target : ProductPoint) : Prop :=
  ∃ handle, Synchronous space automaton source (some handle) target

/-- Where the system can still move, it has moved all the way. -/
theorem moves_of_reaches {space : StateSpace R} {automaton : Automaton}
    {first last target : ProductPoint} (reached : Reaches space automaton first last)
    (moves : Moves space automaton last target) :
    ReflTransGen (Moves space automaton) first last := by
  induction reached generalizing target with
  | refl => exact .refl
  | tail _ step inductionHypothesis =>
      obtain ⟨via, step⟩ := step
      obtain ⟨handle, move⟩ := moves
      cases via with
      | none => cases step.stays move
      | some other => exact (inductionHypothesis ⟨other, step⟩).tail ⟨other, step⟩

/-- Whether on every path from the point the system moves in the first `bound`
steps at most. -/
def StopsWithin (space : StateSpace R) (automaton : Automaton) (point : ProductPoint)
    (bound : Nat) : Prop :=
  ∀ (length : Nat) (visit : Nat → ProductPoint) (via : Nat → Option TransitionId),
    visit 0 = point →
    (∀ step < length, Synchronous space automaton (visit step) (via step) (visit (step + 1))) →
    ∀ step < length, bound ≤ step → via step = none

section Stopping

variable {space : StateSpace R} {automaton : Automaton}

theorem StopsWithin.mono {point : ProductPoint} {bound more : Nat}
    (stops : StopsWithin space automaton point bound) (within : bound ≤ more) :
    StopsWithin space automaton point more :=
  fun length visit via start steps step inside late =>
    stops length visit via start steps step inside (Nat.le_trans within late)

/-- Once the system stays put, it stays put for the rest of the path. -/
theorem stays_put {length : Nat} {visit : Nat → ProductPoint} {via : Nat → Option TransitionId}
    (steps : ∀ step < length,
      Synchronous space automaton (visit step) (via step) (visit (step + 1)))
    (stays : via 0 = none) {step : Nat} (inside : step < length) : via step = none := by
  induction step with
  | zero => exact stays
  | succ step inductionHypothesis =>
      have before := steps step (Nat.lt_of_succ_lt inside)
      rw [inductionHypothesis (Nat.lt_of_succ_lt inside)] at before
      exact before.stays (steps (step + 1) inside)

/-- One step more than from all points that the system can move to. -/
theorem StopsWithin.succ {point : ProductPoint} {bound : Nat}
    (stops : ∀ target, Moves space automaton point target →
      StopsWithin space automaton target bound) :
    StopsWithin space automaton point (bound + 1) := by
  intro length visit via start steps step inside late
  have first := steps 0 (Nat.zero_lt_of_lt inside)
  cases moves : via 0 with
  | none => exact stays_put steps moves inside
  | some handle =>
      rw [start, moves] at first
      obtain ⟨before, rfl⟩ : ∃ before, step = before + 1 := ⟨step - 1, by omega⟩
      exact stops (visit 1) ⟨handle, first⟩ (length - 1) (fun step => visit (step + 1))
        (fun step => via (step + 1)) rfl (fun step inside => steps (step + 1) (by omega)) before
        (by omega) (by omega)

/-- Finitely many bounds have a common one. -/
theorem StopsWithin.common {points : List ProductPoint}
    (each : ∀ point ∈ points, ∃ bound, StopsWithin space automaton point bound) :
    ∃ bound, ∀ point ∈ points, StopsWithin space automaton point bound := by
  induction points with
  | nil => exact ⟨0, by simp⟩
  | cons first rest inductionHypothesis =>
      obtain ⟨bound, stops⟩ := each first List.mem_cons_self
      obtain ⟨others, stopOthers⟩ := inductionHypothesis fun point member =>
        each point (List.mem_cons_of_mem _ member)
      refine ⟨max bound others, fun point member => ?_⟩
      rcases List.mem_cons.1 member with rfl | listed
      · exact stops.mono (Nat.le_max_left _ _)
      · exact (stopOthers point listed).mono (Nat.le_max_right _ _)

end Stopping

namespace BoundedSearch

/-! ## The invariant -/

/-- What holds of the marks of a search. -/
structure DeadEnds (bounded : BoundedSearch) : Prop where
  enabled {state : ProductStateId} : bounded.search.product.isPocket state = true →
    bounded.pocket = true
  painted {state : ProductStateId} : bounded.search.product.isPocket state = true →
    bounded.search.product.colour state ≠ .unpainted
  closed {state : ProductStateId} : bounded.search.product.isPocket state = true →
    bounded.search.product.isClosed state = true
  leads {state : ProductStateId} : bounded.search.product.isPocket state = true →
    LeadsToPockets bounded.search.product state
  descends {state : ProductStateId} : bounded.search.product.isPocket state = true →
    Acc (fun target source => bounded.search.product.MovesTo source target) state
  first {frame : Frame} : bounded.search.next = some frame →
    bounded.search.product.isPocket frame.state = true →
    bounded.search.initial = some frame.state

section Parts

variable {bounded after : BoundedSearch} {automaton : Automaton} {initial : ProductStateId}
  {space : StateSpace R}

namespace DeadEnds

/-- Moves go down as long as the transitions of marked states stay. -/
theorem descends_kept (deadEnds : bounded.DeadEnds) {product : Product}
    (outgoing : ∀ state, bounded.search.product.isPocket state = true →
      product.outgoing state = bounded.search.product.outgoing state)
    {state : ProductStateId} (isPocket : bounded.search.product.isPocket state = true) :
    Acc (fun target source => product.MovesTo source target) state := by
  have descends := deadEnds.descends isPocket
  induction descends with
  | intro state _ inductionHypothesis =>
      refine Acc.intro _ ?_
      rintro _ ⟨handle, transition, member, isMove, rfl⟩
      rw [outgoing state isPocket] at member
      exact inductionHypothesis _ ⟨handle, transition, member, isMove, rfl⟩
        (deadEnds.leads isPocket handle transition member isMove)

/-- No more states are marked, and what is known of the marked ones stays. -/
theorem kept (deadEnds : bounded.DeadEnds) (pocket : after.pocket = bounded.pocket)
    (isPocket : after.search.product.isPocket = bounded.search.product.isPocket)
    (painted : ∀ state, bounded.search.product.colour state ≠ .unpainted →
      after.search.product.colour state ≠ .unpainted)
    (closed : ∀ state, bounded.search.product.isClosed state = true →
      after.search.product.isClosed state = true)
    (outgoing : ∀ state, bounded.search.product.colour state ≠ .unpainted →
      after.search.product.outgoing state = bounded.search.product.outgoing state)
    (first : ∀ frame, after.search.next = some frame →
      bounded.search.product.isPocket frame.state = true →
      after.search.initial = some frame.state) : after.DeadEnds where
  enabled := by
    rw [isPocket, pocket]
    exact deadEnds.enabled
  painted := by
    rw [isPocket]
    exact fun marked => painted _ (deadEnds.painted marked)
  closed := by
    rw [isPocket]
    exact fun marked => closed _ (deadEnds.closed marked)
  leads := by
    intro state marked handle transition member isMove
    rw [isPocket] at marked ⊢
    rw [outgoing state (deadEnds.painted marked)] at member
    exact deadEnds.leads marked handle transition member isMove
  descends := by
    rw [isPocket]
    exact deadEnds.descends_kept fun state marked => outgoing state (deadEnds.painted marked)
  first := by
    rw [isPocket]
    exact first _

/-- At the beginning no state is marked. -/
theorem pristine (pristine : bounded.search.Pristine initial) : bounded.DeadEnds := by
  have unmarked : ∀ {state}, bounded.search.product.isPocket state ≠ true := by
    intro state isPocket
    rw [pristine.isPocket state] at isPocket
    cases isPocket
  exact ⟨fun isPocket => absurd isPocket unmarked, fun isPocket => absurd isPocket unmarked,
    fun isPocket => absurd isPocket unmarked, fun isPocket => absurd isPocket unmarked,
    fun isPocket => absurd isPocket unmarked, fun _ isPocket => absurd isPocket unmarked⟩

theorem deferred (deadEnds : bounded.DeadEnds) (defers : bounded.Defers after) :
    after.DeadEnds := by
  refine deadEnds.kept defers.pocket defers.isPocket ?_ ?_ ?_ ?_
  · rw [defers.colour]
    exact fun _ => id
  · rw [defers.isClosed]
    exact fun _ => id
  · intro state _
    rw [defers.touches.shape.outgoing]
  · intro frame next
    rw [defers.next] at next
    rw [defers.touches.initial]
    exact deadEnds.first next

theorem entered (deadEnds : bounded.DeadEnds) {frame : Frame} {opened : Search}
    (enters : Search.Enters frame bounded.search opened) :
    ({ bounded with search := opened } : BoundedSearch).DeadEnds := by
  refine deadEnds.kept rfl enters.isPocket ?_ ?_ (fun _ => enters.outgoing) ?_
  · intro state painted
    change opened.product.colour state ≠ .unpainted
    rw [enters.colour]
    split
    · exact Colour.noConfusion
    · exact painted
  · intro state closed
    change opened.product.isClosed state = true
    rw [enters.isClosed]
    exact closed
  · intro other next
    change opened.next = some other at next
    rw [enters.next] at next
    cases next

theorem completed (deadEnds : bounded.DeadEnds) (state : ProductStateId) :
    (bounded.completed state).DeadEnds := by
  refine deadEnds.kept rfl (bounded.isPocket_completed state) ?_ ?_ ?_ ?_
  · rw [bounded.colour_completed]
    exact fun _ => id
  · intro other closed
    by_cases same : other = state
    · subst same
      cases present : bounded.search.product.state? other with
      | none => simp [Product.isClosed, present] at closed
      | some entry => simp [BoundedSearch.completed, setProduct, Product.isClosed, present]
    · simpa [BoundedSearch.completed, setProduct, Product.isClosed, Ne.symm same] using closed
  · intro other _
    rw [(bounded.touches_completed state).shape.outgoing]
  · exact fun _ => deadEnds.first

/-- The top frame is left, and marked if all its moves lead to marked states. -/
theorem left (deadEnds : bounded.DeadEnds) (closed : bounded.ClosedWhenPainted) {top : Frame}
    (painted : bounded.search.product.colour top.state ≠ .unpainted)
    (stopped : bounded.search.next = none) (leaves : bounded.Leaves top after) :
    after.DeadEnds := by
  have outgoing := leaves.touches.shape.outgoing
  have marks : ∀ {state}, bounded.search.product.isPocket state = true →
      after.search.product.isPocket state = true :=
    fun marked => leaves.isPocket_iff.2 (.inl marked)
  constructor
  · intro state marked
    rw [leaves.pocket]
    rcases leaves.isPocket_iff.1 marked with before | ⟨_, enabled, _⟩
    · exact deadEnds.enabled before
    · exact enabled
  · intro state marked
    rw [leaves.colour]
    split
    · exact Colour.noConfusion
    · rename_i other
      rcases leaves.isPocket_iff.1 marked with before | ⟨isTop, _⟩
      · exact deadEnds.painted before
      · exact absurd isTop other
  · intro state marked
    rw [leaves.isClosed]
    rcases leaves.isPocket_iff.1 marked with before | ⟨rfl, _⟩
    · exact deadEnds.closed before
    · exact (closed top.state).2 painted
  · intro state marked handle transition member isMove
    rw [outgoing] at member
    rcases leaves.isPocket_iff.1 marked with before | ⟨rfl, _, leads⟩
    · exact marks (deadEnds.leads before handle transition member isMove)
    · exact marks (leads handle transition member isMove)
  · intro state marked
    have kept : ∀ {state}, bounded.search.product.isPocket state = true →
        Acc (fun target source => after.search.product.MovesTo source target) state :=
      deadEnds.descends_kept fun state _ => congrFun outgoing state
    rcases leaves.isPocket_iff.1 marked with before | ⟨rfl, _, leads⟩
    · exact kept before
    · -- All moves from the top go to states that were marked before.
      refine Acc.intro _ ?_
      rintro _ ⟨handle, transition, member, isMove, rfl⟩
      rw [outgoing] at member
      exact kept (leads handle transition member isMove)
  · intro frame next
    rw [leaves.next, stopped] at next
    cases next

end DeadEnds

/-! ## One step -/

/-- Whether all marks stay. -/
def Retains (bounded after : BoundedSearch) : Prop :=
  ∀ state, bounded.search.product.isPocket state = true →
    after.search.product.isPocket state = true

theorem Retains.trans {last : BoundedSearch} (first : bounded.Retains after)
    (second : after.Retains last) : bounded.Retains last :=
  fun state isPocket => second state (first state isPocket)

theorem Opens.deadEnds {frame : Frame} {opened : Search} {found : Bool} {passed : BoundedSearch}
    (opens : Opens bounded automaton initial space frame opened found passed)
    (deadEnds : bounded.DeadEnds) : passed.DeadEnds ∧ bounded.Retains passed := by
  have defers := (findCycle_spec opens.look).1.defers
  refine ⟨(deadEnds.entered opens.enters).deferred defers, fun state isPocket => ?_⟩
  rw [defers.isPocket, opens.enters.isPocket]
  exact isPocket

theorem Walking.deadEnds {reached : BoundedSearch}
    (walking : bounded.Walking automaton initial space) (wellFormed : space.WellFormed)
    (walk : Walks space bounded reached) (deadEnds : bounded.DeadEnds) :
    reached.DeadEnds ∧ bounded.Retains reached := by
  induction walk with
  | refl => exact ⟨deadEnds, fun _ => id⟩
  | tail walk back inductionHypothesis =>
      obtain ⟨deadEndsNow, retains⟩ := inductionHypothesis
      obtain ⟨walkingNow, _⟩ := walking.walks wellFormed walk
      cases back with
      | leaves onTop fresh leave =>
          obtain ⟨_, defers, leaves, _⟩ := walkingNow.walked wellFormed onTop fresh leave
          have painted := walkingNow.knows.coherent.painted_of_mem
            (Search.onStack_eq_cons onTop ▸ List.mem_cons_self)
          refine ⟨(deadEndsNow.deferred defers).left ?_ (defers.colour ▸ painted)
            (defers.next.trans walkingNow.stopped) leaves, retains.trans fun state isPocket => ?_⟩
          · intro state
            rw [defers.isClosed, defers.colour]
            exact walkingNow.closed state
          · exact leaves.isPocket_iff.2 (.inl (defers.isPocket ▸ isPocket))

theorem Arrives.deadEnds {reached : BoundedSearch} {config : Config}
    {outcome : Except Breach Unit} (arrives : Arrives space config reached outcome after)
    (deadEnds : reached.DeadEnds) : after.DeadEnds ∧ reached.Retains after := by
  cases arrives with
  | chooses onTop fresh =>
      obtain ⟨passes, found, _⟩ := freshSuccessor_spec fresh
      have defers := passes.defers
      refine ⟨(deadEnds.deferred defers).kept rfl rfl (fun _ => id) (fun _ => id) (fun _ _ => rfl)
        ?_, fun state isPocket => ?_⟩
      · -- A marked state is not chosen.
        intro frame next isPocket
        cases next
        obtain ⟨_, _, _, target, unexplored⟩ := found _ rfl
        rw [defers.isPocket] at isPocket
        rw [target, isUnexplored_of_isPocket (deadEnds.enabled isPocket) isPocket
          (deadEnds.painted isPocket)] at unexplored
        cases unexplored
      · rw [defers.isPocket]
        exact isPocket
  | rests empty may => exact ⟨deadEnds, fun _ => id⟩
  | restarts boundary empty may =>
      refine ⟨deadEnds.kept rfl rfl (fun _ => id) (fun _ => id) (fun _ _ => rfl) ?_, fun _ => id⟩
      intro frame next _
      obtain ⟨state, origin, rfl⟩ := Option.map_eq_some_iff.1 next
      exact origin
  | overflows empty may large =>
      exact ⟨deadEnds.kept rfl rfl (fun _ => id) (fun _ => id) (fun _ _ => rfl)
        fun _ => deadEnds.first, fun _ => id⟩

end Parts

section Step

variable {A : Type} {automaton : Automaton} {initial : ProductStateId}
  {bounded after : BoundedSearch} {run later : Exploration R A} {result : Except Failure StateId}

theorem Steps.deadEnds (steps : Steps automaton initial bounded run result after later)
    (wellFormed : later.space.WellFormed) (deadEnds : bounded.DeadEnds) :
    after.DeadEnds ∧ bounded.Retains after := by
  cases steps with
  | rests stopped => exact ⟨deadEnds, fun _ => id⟩
  | refuses next advanced => exact ⟨deadEnds, fun _ => id⟩
  | reports advanced opens =>
      obtain ⟨opened, retains⟩ := opens.deadEnds deadEnds
      refine ⟨opened.kept rfl rfl (fun _ => id) (fun _ => id) (fun _ _ => rfl) ?_, retains⟩
      intro frame next
      cases next
  | walks advanced opens walk accounted arrives =>
      obtain ⟨opened, retains⟩ := opens.deadEnds deadEnds
      obtain ⟨reached, retainsWalk⟩ :=
        (opens.walking rfl).deadEnds wellFormed walk (opened.completed _)
      obtain ⟨arrived, retainsLast⟩ := arrives.deadEnds reached
      refine ⟨arrived, retains.trans (.trans ?_ (retainsWalk.trans retainsLast))⟩
      intro state isPocket
      rw [BoundedSearch.isPocket_completed]
      exact isPocket

end Step

/-! ## Paths and cycles -/

section Paths

variable {bounded : BoundedSearch} {automaton : Automaton} {initial : ProductStateId}
  {space later : StateSpace R}

/-- All moves of the product from a marked state lead to marked states. -/
theorem DeadEnds.move (deadEnds : bounded.DeadEnds)
    (coherent : bounded.search.Coherent automaton initial space) (wellFormed : space.WellFormed)
    (kept : space.Extends later) {state : ProductStateId}
    (isPocket : bounded.search.product.isPocket state = true) {target : ProductPoint}
    (moves : Moves later automaton (bounded.search.product.point state) target) :
    ∃ next, bounded.search.product.MovesTo state next ∧
      bounded.search.product.isPocket next = true ∧
      bounded.search.product.point next = target := by
  have painted := deadEnds.painted isPocket
  obtain ⟨via, step⟩ := moves
  have before := (wellFormed.synchronous_of_closed kept (coherent.expanded painted).1).1 step
  obtain ⟨handle, transition, member, isVia, isTarget⟩ := (coherent.synchronous_iff painted).1 before
  have isMove : transition.via.isSome = true := by rw [isVia, Option.isSome_some]
  exact ⟨transition.target, ⟨handle, transition, member, isMove, rfl⟩,
    deadEnds.leads isPocket handle transition member isMove, isTarget⟩

/-- So no infinite sequence of moves leaves a marked state. -/
theorem DeadEnds.accessible (deadEnds : bounded.DeadEnds)
    (coherent : bounded.search.Coherent automaton initial space) (wellFormed : space.WellFormed)
    (kept : space.Extends later) {state : ProductStateId}
    (isPocket : bounded.search.product.isPocket state = true) :
    Acc (fun target source => Moves later automaton source target)
      (bounded.search.product.point state) := by
  have descends := deadEnds.descends isPocket
  induction descends with
  | intro state _ inductionHypothesis =>
      refine Acc.intro _ fun target moves => ?_
      obtain ⟨next, movesTo, isPocketNext, rfl⟩ :=
        deadEnds.move coherent wellFormed kept isPocket moves
      exact inductionHypothesis next movesTo isPocketNext

/-- And there is a number of steps after which the system has come to rest. -/
theorem DeadEnds.stops (deadEnds : bounded.DeadEnds)
    (coherent : bounded.search.Coherent automaton initial space) (wellFormed : space.WellFormed)
    (kept : space.Extends later) {state : ProductStateId}
    (isPocket : bounded.search.product.isPocket state = true) :
    ∃ bound, StopsWithin later automaton (bounded.search.product.point state) bound := by
  have descends := deadEnds.descends isPocket
  induction descends with
  | intro state _ inductionHypothesis =>
      -- A state has finitely many transitions, so one number is enough for all.
      let targets := (bounded.search.product.outgoing state).filter fun entry =>
        entry.2.via.isSome
      have each : ∀ point ∈ targets.map fun entry =>
            bounded.search.product.point entry.2.target,
          ∃ bound, StopsWithin later automaton point bound := by
        intro point member
        obtain ⟨⟨handle, transition⟩, listed, rfl⟩ := List.mem_map.1 member
        obtain ⟨outgoing, isMove⟩ := List.mem_filter.1 listed
        exact inductionHypothesis transition.target ⟨handle, transition, outgoing, isMove, rfl⟩
          (deadEnds.leads isPocket handle transition outgoing isMove)
      obtain ⟨bound, stops⟩ := StopsWithin.common each
      refine ⟨bound + 1, .succ fun target moves => ?_⟩
      obtain ⟨_, ⟨handle, transition, outgoing, isMove, rfl⟩, _, rfl⟩ :=
        deadEnds.move coherent wellFormed kept isPocket moves
      exact stops _ (List.mem_map.2 ⟨(handle, transition), List.mem_filter.2 ⟨outgoing, isMove⟩,
        rfl⟩)

/-- No cycle on which the system moves can be reached. -/
theorem DeadEnds.not_cyclic (deadEnds : bounded.DeadEnds)
    (coherent : bounded.search.Coherent automaton initial space) (wellFormed : space.WellFormed)
    (kept : space.Extends later) {state : ProductStateId}
    (isPocket : bounded.search.product.isPocket state = true) {source target : ProductPoint}
    (reached : Reaches later automaton (bounded.search.product.point state) source)
    (moves : Moves later automaton source target) : ¬ Reaches later automaton target source := by
  intro back
  have accessible := deadEnds.accessible coherent wellFormed kept isPocket
  exact not_cyclic_of_acc accessible (moves_of_reaches reached moves)
    (.head' moves (moves_of_reaches back moves))

end Paths

/-! ## Whole runs -/

section Run

variable {A : Type} [Acceptor R A] {automaton : Automaton} {initial : ProductStateId}
  {root : ProductPoint} {bounded after : BoundedSearch} {run later : Exploration R A}

theorem Lasting.deadEnds (lasting : bounded.Lasting run automaton initial root)
    (history : run.space.HasHistory) (located : automaton.Located) (deadEnds : bounded.DeadEnds)
    (calls : Calls bounded run after later) :
    after.Lasting later automaton initial root ∧ later.space.HasHistory ∧ after.DeadEnds ∧
      bounded.Retains after := by
  induction calls with
  | none => exact ⟨lasting, history, deadEnds, fun _ => id⟩
  | called _ step inductionHypothesis =>
      obtain ⟨lastingNow, historyNow, deadEndsNow, retains⟩ := inductionHypothesis
      obtain ⟨steps, lastingAfter⟩ := lastingNow.doNext located step
      have historyAfter := historyNow.evolves steps.advances.space
      obtain ⟨deadEndsAfter, retainsAfter⟩ := steps.deadEnds historyAfter.wellFormed deadEndsNow
      exact ⟨lastingAfter, historyAfter, deadEndsAfter, retains.trans retainsAfter⟩
  | observed progress stopRequested _ inductionHypothesis =>
      obtain ⟨lastingNow, rest⟩ := inductionHypothesis
      exact ⟨lastingNow.observed progress stopRequested, rest⟩

/-- What the mark of a pocket state stands for. The state is complete, and all
transitions on which the system moves lead to marked states. Between marked
states these moves are well-founded. Whatever is explored later, on every path
from the state the system moves in a bounded number of steps and stays put from
then on, and the path leads to no cycle on which the system moves. No step takes
the mark away, and only as the initial state is a marked state entered again. -/
structure KeepsPockets (bounded : BoundedSearch) (run : Exploration R A)
    (automaton : Automaton) : Prop where
  closed (state : ProductStateId) : bounded.search.product.isPocket state = true →
    bounded.search.product.isClosed state = true
  leads (state : ProductStateId) : bounded.search.product.isPocket state = true →
    LeadsToPockets bounded.search.product state
  descends : WellFounded
    fun target source : { state // bounded.search.product.isPocket state = true } =>
      bounded.search.product.MovesTo source target
  stops (state : ProductStateId) (evolved : StateSpace R) :
    bounded.search.product.isPocket state = true → run.space.Evolves evolved →
      ∃ bound, StopsWithin evolved automaton (bounded.search.product.point state) bound
  acyclic (state : ProductStateId) (evolved : StateSpace R) (source target : ProductPoint) :
    bounded.search.product.isPocket state = true → run.space.Evolves evolved →
      Reaches evolved automaton (bounded.search.product.point state) source →
      Moves evolved automaton source target → ¬ Reaches evolved automaton target source
  retained (after : BoundedSearch) (later : Exploration R A) :
    Calls bounded run after later → bounded.Retains after
  entered (frame : Frame) : bounded.search.next = some frame →
    bounded.search.product.isPocket frame.state = true →
    bounded.search.initial = some frame.state

theorem Lasting.keepsPockets (lasting : bounded.Lasting run automaton initial root)
    (history : run.space.HasHistory) (located : automaton.Located)
    (deadEnds : bounded.DeadEnds) : bounded.KeepsPockets run automaton := by
  have coherent := lasting.coherent
  have wellFormed := history.wellFormed
  constructor
  · exact fun _ => deadEnds.closed
  · exact fun _ => deadEnds.leads
  · exact ⟨fun marked => InvImage.accessible Subtype.val (deadEnds.descends marked.2)⟩
  · intro state evolved isPocket evolves
    exact deadEnds.stops coherent wellFormed (evolves.continues wellFormed).kept isPocket
  · intro state evolved source target isPocket evolves
    exact deadEnds.not_cyclic coherent wellFormed (evolves.continues wellFormed).kept isPocket
  · intro after later calls
    exact (lasting.deadEnds history located deadEnds calls).2.2.2
  · exact fun _ => deadEnds.first

end Run

end BoundedSearch

/-- In every run of a bounded search, whatever its steps answer, the marks of
pocket states are kept and stand for dead ends. -/
theorem pockets_are_dead_ends {A : Type} [Acceptor R A] {space : StateSpace R} {acceptor : A}
    {config : Config} {progress : Option Progress} {stopRequested : Bool} {start : StateId}
    {begun opened run : Exploration R A} {bounded ready after : BoundedSearch}
    {automaton : Automaton} {draft : Draft} (built : draft.build = .ok automaton)
    (history : space.HasHistory)
    (begins : Exploration.begin space acceptor config progress stopRequested start = .ok begun)
    (installed : bounded.search.automaton = some automaton)
    (prepare : Strategy.prepare bounded begun = (.ok (), ready, opened))
    (calls : Calls ready opened after run) :
    after.KeepsPockets run automaton := by
  obtain ⟨_, contained, _⟩ := Exploration.begin_eq_ok begins
  have historyBegun := Exploration.history_of_begin history begins
  have located := Draft.located_of_build built
  obtain ⟨initial, pristine, steady⟩ := BoundedSearch.prepare_steady historyBegun contained
    installed located (BoundedSearch.strategy_prepare.1 prepare)
  obtain ⟨lasting, historyNow, deadEnds, _⟩ := (BoundedSearch.Lasting.steady steady).deadEnds
    steady.invariant.faithful.history located (.pristine pristine) calls
  exact lasting.keepsPockets historyNow located deadEnds

/-- A camp with a pass to climb to, a lake beside the way, and a peak behind. -/
def campSystem : LabelledSystem :=
  { nodes := #[{ name := "camp" }, { name := "pass" }, { name := "lake" }, { name := "peak" }]
    edges := #[⟨⟨0⟩, "climb", ⟨1⟩⟩, ⟨⟨0⟩, "walk", ⟨2⟩⟩, ⟨⟨2⟩, "walk", ⟨1⟩⟩,
      ⟨⟨1⟩, "climb", ⟨3⟩⟩] }

/-- A run that begins with the camp as its only state. -/
def campRun (maxIterations : Nat) : Exploration campSystem.rules CounterExamples where
  space := (StateSpace.create campSystem.rules {}).drainEvents.2
  acceptor := {}
  config := { maxIterations := maxIterations }
  start := StateSpace.startState
  known := #[true]
  progress := none
  stopRequested := false

theorem campRun_begins (maxIterations : Nat) :
    Exploration.begin (StateSpace.create campSystem.rules {}) ({} : CounterExamples)
      { maxIterations := maxIterations } none false StateSpace.startState =
        .ok (campRun maxIterations) := rfl

def campDry : Stretch campSystem.rules BoundedSearch CounterExamples :=
  playRun 30 (BoundedSearch.create onceAutomaton (Boundary.ruleSet ["climb"]) true) (campRun 0)

/-- All ways from the camp end at the peak. When the search has been there, in its
third iteration, every state is marked. -/
theorem campDry_dead_ends :
    onceDraft.build = .ok onceAutomaton ∧ (StateSpace.create campSystem.rules {}).HasHistory ∧
      campDry.ending = .ended .exhausted 10 ∧ campDry.strategy.iteration = 3 ∧
      (campDry.strategy.search.product.outgoing ⟨0⟩).map
        (fun entry => (entry.2.via, entry.2.target)) = [(some ⟨0⟩, ⟨1⟩), (some ⟨1⟩, ⟨2⟩)] ∧
      (∀ index < 4, campDry.strategy.search.product.isPocket ⟨index⟩ = true) ∧
      campDry.strategy.KeepsPockets campDry.run onceAutomaton ∧
      ∃ bound, StopsWithin campDry.run.space onceAutomaton (StateSpace.startState, ⟨0⟩) bound := by
  have built : onceDraft.build = .ok onceAutomaton := by decide +kernel
  have history : (StateSpace.create campSystem.rules {}).HasHistory := ⟨{}, .refl⟩
  have ending : campDry.ending = .ended .exhausted 10 := by decide +kernel
  have marked : ∀ index < 4, campDry.strategy.search.product.isPocket ⟨index⟩ = true := by
    decide +kernel
  have start : campDry.strategy.search.product.point ⟨0⟩ = (StateSpace.startState, ⟨0⟩) := by
    decide +kernel
  have driven : Driven (BoundedSearch.create onceAutomaton (Boundary.ruleSet ["climb"]) true)
      (campRun 0) campDry.strategy campDry.run := (playRun_driven_of_ended ⟨_, _, rfl⟩ ending).1
  obtain ⟨ready, opened, prepare, calls⟩ := driven.calls
  have keeps := pockets_are_dead_ends built history (campRun_begins 0) rfl prepare calls
  refine ⟨built, history, ending, by decide +kernel, by decide +kernel, marked, keeps, ?_⟩
  rw [← start]
  exact keeps.stops ⟨0⟩ _ (marked 0 (by decide)) .refl

end OnTheFly
