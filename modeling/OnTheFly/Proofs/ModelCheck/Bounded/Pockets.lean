import OnTheFly.Proofs.ModelCheck.Bounded.Parts
import OnTheFly.Proofs.ModelCheck.Examined

/-!
Contract: what the bounded search knows of pocket states.

Owns: the invariant of pocket states, and that it survives every part of a step
and every restart. It does not depend on what is deferred, so a pocket state
need not be visited again in a later round.

A pocket state has only pocket states after it, except that a step on which the
system stays put may lead to a state that is still on the stack. From there on
the system stays put, so that state will be a pocket state as well.
-/

set_option autoImplicit false

namespace OnTheFly

/-- Where the system stays put on the way to a painted state, it stays put on
all ways from there. -/
theorem Search.Coherent.stays {R : RuleSystem} {search : Search} {automaton : Automaton}
    {initial : ProductStateId} {space : StateSpace R}
    (coherent : search.Coherent automaton initial space) {state : ProductStateId}
    {handle other : ProductTransitionId} {transition next : ProductTransition}
    (painted : search.product.colour state ≠ .unpainted)
    (member : (handle, transition) ∈ search.product.outgoing state)
    (stays : transition.via = none)
    (paintedTarget : search.product.colour transition.target ≠ .unpainted)
    (memberNext : (other, next) ∈ search.product.outgoing transition.target) :
    next.via = none := by
  have first : Synchronous space automaton (search.product.point state) none
      (search.product.point transition.target) :=
    (coherent.synchronous_iff painted).2 ⟨handle, transition, member, stays, rfl⟩
  have second : Synchronous space automaton (search.product.point transition.target) next.via
      (search.product.point next.target) :=
    (coherent.synchronous_iff paintedTarget).2 ⟨other, next, memberNext, rfl, rfl⟩
  exact first.stays second

namespace BoundedSearch

variable {R : RuleSystem} {bounded after : BoundedSearch} {automaton : Automaton}
  {initial : ProductStateId} {space later : StateSpace R}

structure Pockets (bounded : BoundedSearch) (automaton : Automaton) (space : StateSpace R) :
    Prop where
  enabled {state : ProductStateId} : bounded.search.product.isPocket state = true →
    bounded.pocket = true
  painted {state : ProductStateId} : bounded.search.product.isPocket state = true →
    bounded.search.product.colour state ≠ .unpainted
  followed {state : ProductStateId} {handle : ProductTransitionId}
    {transition : ProductTransition} : bounded.search.product.isPocket state = true →
    (handle, transition) ∈ bounded.search.product.outgoing state →
    bounded.search.product.isPocket transition.target = true ∨
      (transition.via = none ∧ transition.target ∈ bounded.search.onStack)
  settled {state : ProductStateId} : bounded.search.product.isPocket state = true →
    ∀ later, space.Evolves later →
      Settled later automaton (bounded.search.product.point state)
  /-- A finished state at which the system stays put is a pocket. -/
  stuck {state : ProductStateId} : bounded.pocket = true → bounded.search.Finished state →
    (∀ handle transition, (handle, transition) ∈ bounded.search.product.outgoing state →
      transition.via = none) →
    bounded.search.product.isPocket state = true

/-- Whether only transitions that move the system are deferred. -/
def DefersMoves (bounded : BoundedSearch) : Prop :=
  ∀ handle ∈ bounded.deferred, ∃ transition,
    bounded.search.product.transition? handle = some transition ∧ transition.via.isSome = true

theorem DefersMoves.not_mem (moves : bounded.DefersMoves) {state : ProductStateId}
    {handle : ProductTransitionId} {transition : ProductTransition}
    (member : (handle, transition) ∈ bounded.search.product.outgoing state)
    (stays : transition.via = none) : handle ∉ bounded.deferred := by
  intro deferred
  obtain ⟨other, found, isMove⟩ := moves handle deferred
  rw [(Product.mem_outgoing.1 member).2] at found
  cases found
  simp [stays] at isMove

namespace Pockets

theorem evolves (pockets : bounded.Pockets automaton space) (evolved : space.Evolves later) :
    bounded.Pockets automaton later :=
  { pockets with settled := fun pocket _ further =>
      pockets.settled pocket _ (evolved.trans further) }

theorem marked (pockets : bounded.Pockets automaton space)
    (touches : bounded.search.Touches after.search)
    (colour : after.search.product.colour = bounded.search.product.colour)
    (isPocket : after.search.product.isPocket = bounded.search.product.isPocket)
    (stack : after.search.stack = bounded.search.stack)
    (pocket : after.pocket = bounded.pocket) : after.Pockets automaton space := by
  have onStack := Search.onStack_congr stack
  constructor
  · rw [isPocket, pocket]
    exact pockets.enabled
  · rw [isPocket, colour]
    exact pockets.painted
  · rw [isPocket, touches.shape.outgoing, onStack]
    exact pockets.followed
  · rw [isPocket, touches.shape.point]
    exact pockets.settled
  · intro state
    unfold Search.Finished
    rw [isPocket, pocket, touches.shape.outgoing, touches.round, colour, onStack]
    exact pockets.stuck

theorem entered (pockets : bounded.Pockets automaton space) {frame : Frame}
    (enters : Search.Enters frame bounded.search after.search)
    (pocket : after.pocket = bounded.pocket) : after.Pockets automaton space := by
  have onStack : after.search.onStack = frame.state :: bounded.search.onStack :=
    Search.onStack_eq_cons enters.stack
  constructor
  · rw [enters.isPocket, pocket]
    exact pockets.enabled
  · intro state isPocket
    rw [enters.isPocket] at isPocket
    rw [enters.colour]
    split
    · exact Colour.noConfusion
    · exact pockets.painted isPocket
  · intro state handle transition isPocket member
    rw [enters.isPocket] at isPocket
    rw [enters.outgoing (pockets.painted isPocket)] at member
    rw [enters.isPocket, onStack]
    exact (pockets.followed isPocket member).imp_right fun ⟨stays, waiting⟩ =>
      ⟨stays, List.mem_cons_of_mem _ waiting⟩
  · intro state isPocket
    rw [enters.isPocket] at isPocket
    obtain ⟨entry, present⟩ := Product.present_of_colour (pockets.painted isPocket)
    rw [enters.point present]
    exact pockets.settled isPocket
  · intro state enabled finished stuck
    have finishedBefore := enters.finished finished
    rw [enters.outgoing (Search.painted_of_isExplored finishedBefore.1)] at stuck
    rw [enters.isPocket]
    exact pockets.stuck (pocket ▸ enabled) finishedBefore stuck

/-- When the top frame is left, a step of it on which the system stays put leads
to a state on the stack or to a pocket. -/
theorem target_of_stay (pockets : bounded.Pockets automaton space)
    (coherent : bounded.search.Coherent automaton initial space)
    (enabled : bounded.pocket = true) {state : ProductStateId}
    (painted : bounded.search.product.colour state ≠ .unpainted)
    {handle : ProductTransitionId} {transition : ProductTransition}
    (member : (handle, transition) ∈ bounded.search.product.outgoing state)
    (stays : transition.via = none) (known : bounded.isUnexplored transition.target = false) :
    transition.target ∈ bounded.search.onStack ∨
      bounded.search.product.isPocket transition.target = true := by
  rcases isUnexplored_eq_false known with explored | isPocket
  · by_cases waiting : transition.target ∈ bounded.search.onStack
    · exact .inl waiting
    · refine .inr (pockets.stuck enabled ⟨explored, waiting⟩ fun other next memberNext => ?_)
      exact coherent.stays painted member stays (Search.painted_of_isExplored explored) memberNext
  · exact .inr isPocket

end Pockets

/-- Whether each transition of a state has been followed or deferred. -/
def Followed (bounded : BoundedSearch) (state : ProductStateId) : Prop :=
  ∀ handle transition, (handle, transition) ∈ bounded.search.product.outgoing state →
    bounded.isUnexplored transition.target = false ∨
      (handle ∈ bounded.deferred ∧ transition.via.isSome = true)

theorem Followed.stay {state : ProductStateId} (followed : bounded.Followed state)
    {handle : ProductTransitionId} {transition : ProductTransition}
    (member : (handle, transition) ∈ bounded.search.product.outgoing state)
    (stays : transition.via = none) : bounded.isUnexplored transition.target = false := by
  rcases followed handle transition member with known | ⟨_, isMove⟩
  · exact known
  · simp [stays] at isMove

/-- A top frame that is found to be a pocket is settled. Its steps on which the
system moves lead to pockets, and the others to pockets or back onto the stack,
where they have been tested. -/
theorem Pockets.settled_top (pockets : bounded.Pockets automaton space)
    (coherent : bounded.search.Coherent automaton initial space) (wellFormed : space.WellFormed)
    (tested : Search.Tested bounded.search.product automaton bounded.deferred
      bounded.search.onStack)
    (moves : bounded.DefersMoves) (enabled : bounded.pocket = true) {top : ProductStateId}
    {rest : List ProductStateId} (stack : bounded.search.onStack = top :: rest)
    (leads : LeadsToPockets bounded.search.product top) (followed : bounded.Followed top)
    (evolved : space.Evolves later) :
    Settled later automaton (bounded.search.product.point top) := by
  have painted := coherent.painted_of_mem (stack ▸ List.mem_cons_self : top ∈ _)
  refine coherent.settled wellFormed (evolved.continues wellFormed).kept painted ?_
  rintro _ ⟨handle, transition, member, rfl⟩ covered
  cases via : transition.via with
  | some system =>
      exact pockets.settled (leads handle transition member (by simp [via])) later evolved
  | none =>
      rcases pockets.target_of_stay coherent enabled painted member via
        (followed.stay member via) with waiting | isPocket
      · rw [stack] at waiting tested
        have plain := tested.1 handle transition member waiting (moves.not_mem member via)
        simp [plain] at covered
      · exact pockets.settled isPocket later evolved

/-- Leaving the top frame keeps the invariant. -/
theorem Pockets.left (pockets : bounded.Pockets automaton space)
    (coherent : bounded.search.Coherent automaton initial space) (wellFormed : space.WellFormed)
    (tested : Search.Tested bounded.search.product automaton bounded.deferred
      bounded.search.onStack)
    (moves : bounded.DefersMoves) {top : Frame} (leaves : bounded.Leaves top after)
    (followed : bounded.Followed top.state) : after.Pockets automaton space := by
  have onStack : bounded.search.onStack = top.state :: after.search.onStack :=
    Search.onStack_eq_cons leaves.stack
  have paintedTop := coherent.painted_of_mem (onStack ▸ List.mem_cons_self : top.state ∈ _)
  have paintedBefore : ∀ {state}, after.search.product.isPocket state = true →
      bounded.search.product.colour state ≠ .unpainted := by
    intro state isPocket
    rcases leaves.isPocket_iff.1 isPocket with before | ⟨rfl, _⟩
    · exact pockets.painted before
    · exact paintedTop
  -- The system stays put at the top, so all its moves, none, lead to pockets.
  have topIsPocket : bounded.pocket = true → (∀ handle transition,
      (handle, transition) ∈ bounded.search.product.outgoing top.state →
      transition.via = none) → after.search.product.isPocket top.state = true := by
    intro enabled stuck
    refine leaves.isPocket_iff.2 (.inr ⟨rfl, enabled, fun handle transition member isMove => ?_⟩)
    simp [stuck handle transition member] at isMove
  constructor
  · intro state isPocket
    rw [leaves.pocket]
    rcases leaves.isPocket_iff.1 isPocket with before | ⟨_, enabled, _⟩
    · exact pockets.enabled before
    · exact enabled
  · intro state isPocket
    rw [leaves.colour]
    split
    · exact Colour.noConfusion
    · exact paintedBefore isPocket
  · intro state handle transition isPocket member
    rw [leaves.touches.shape.outgoing] at member
    have enabled : bounded.pocket = true := by
      rcases leaves.isPocket_iff.1 isPocket with before | ⟨_, enabled, _⟩
      · exact pockets.enabled before
      · exact enabled
    have before : bounded.search.product.isPocket transition.target = true ∨
        (transition.via = none ∧ transition.target ∈ bounded.search.onStack) := by
      rcases leaves.isPocket_iff.1 isPocket with before | ⟨rfl, _, leads⟩
      · exact pockets.followed before member
      · cases via : transition.via with
        | some system => exact .inl (leads handle transition member (by simp [via]))
        | none =>
            rcases pockets.target_of_stay coherent enabled paintedTop member via
              (followed.stay member via) with waiting | isPocketTarget
            · exact .inr ⟨rfl, waiting⟩
            · exact .inl isPocketTarget
    rcases before with isPocketTarget | ⟨stays, waiting⟩
    · exact .inl (leaves.isPocket_iff.2 (.inl isPocketTarget))
    · rw [onStack, List.mem_cons] at waiting
      rcases waiting with isTop | below
      · left
        rw [isTop]
        refine topIsPocket enabled fun other next memberNext => ?_
        rw [← isTop] at memberNext
        exact coherent.stays (paintedBefore isPocket) member stays (isTop ▸ paintedTop) memberNext
      · exact .inr ⟨stays, below⟩
  · intro state isPocket later evolved
    rw [leaves.touches.shape.point]
    rcases leaves.isPocket_iff.1 isPocket with before | ⟨rfl, enabled, leads⟩
    · exact pockets.settled before later evolved
    · exact pockets.settled_top coherent wellFormed tested moves enabled onStack leads followed
        evolved
  · rintro state enabled ⟨explored, notOn⟩ stuck
    rw [leaves.pocket] at enabled
    rw [leaves.touches.shape.outgoing] at stuck
    by_cases isTop : state = top.state
    · subst isTop
      exact topIsPocket enabled stuck
    · rw [leaves.touches.round, leaves.colour, if_neg isTop] at explored
      refine leaves.isPocket_iff.2 (.inl (pockets.stuck enabled ⟨explored, ?_⟩ stuck))
      simp [onStack, isTop, notOn]

end BoundedSearch

end OnTheFly
