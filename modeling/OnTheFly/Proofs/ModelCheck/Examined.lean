import OnTheFly.Proofs.ModelCheck.Search

/-!
Contract: what a search knows of the states that it has left.

Owns: the invariant that the tests for cycles on the stack have failed, that
all transitions of the finished states have been followed, and that no infinite
sequence of covered transitions leaves them; and how entering and leaving a
frame keep it.

A search may exempt transitions, and then knows nothing of its finished states
until it has started again. It may also prune states that it need not visit.
-/

set_option autoImplicit false

namespace OnTheFly

namespace Search

variable {R : RuleSystem} {search after : Search} {automaton : Automaton}
  {initial : ProductStateId} {space later : StateSpace R}

/-! ## Testing for cycles -/

/-- Whether no state of a path has a transition with an accepting end back onto
the path up to itself, those in `exempt` apart. -/
def Tested (product : Product) (automaton : Automaton) (exempt : List ProductTransitionId) :
    List ProductStateId → Prop
  | [] => True
  | top :: below =>
      (∀ handle transition, (handle, transition) ∈ product.outgoing top →
        transition.target ∈ top :: below → handle ∉ exempt →
        automaton.isAccepting (product.location top) = false ∧
          automaton.isAccepting (product.location transition.target) = false) ∧
      Tested product automaton exempt below

theorem Tested.imp {old new : Product} {exempt others : List ProductTransitionId}
    (more : ∀ handle ∈ exempt, handle ∈ others) {path : List ProductStateId}
    (same : ∀ state ∈ path, new.outgoing state = old.outgoing state ∧
      new.location state = old.location state)
    (tested : Tested old automaton exempt path) : Tested new automaton others path := by
  induction path with
  | nil => trivial
  | cons top below inductionHypothesis =>
      refine ⟨?_, inductionHypothesis (fun state member => same state (by simp [member])) tested.2⟩
      intro handle transition member onPath included
      rw [(same top (by simp)).1] at member
      rw [(same top (by simp)).2, (same transition.target onPath).2]
      exact tested.1 handle transition member onPath fun excluded =>
        included (more handle excluded)

/-- The test for a cycle asks whether a transition leads back onto the stack and
has an accepting end. -/
theorem Coherent.closesCycle_iff (coherent : search.Coherent automaton initial space)
    {state : ProductStateId} {handle : ProductTransitionId} {transition : ProductTransition}
    (member : (handle, transition) ∈ search.product.outgoing state) :
    search.closesCycle handle = true ↔
      transition.target ∈ search.onStack ∧
        (automaton.isAccepting (search.product.location state) = true ∨
          automaton.isAccepting (search.product.location transition.target) = true) := by
  have found := (Product.mem_outgoing.1 member).2
  have source := (coherent.arena.outgoing_valid member).1
  rw [← coherent.cyan_iff]
  simp [closesCycle, found, isAccepting, coherent.installed, source]

/-- A state is finished when it has been explored and has left the stack. -/
def Finished (search : Search) (state : ProductStateId) : Prop :=
  search.round.isExplored (search.product.colour state) = true ∧ state ∉ search.onStack

theorem painted_of_isExplored {state : ProductStateId}
    (explored : search.round.isExplored (search.product.colour state) = true) :
    search.product.colour state ≠ .unpainted := by
  obtain ⟨paint, painted⟩ := Round.isExplored_iff.1 explored
  rw [painted]
  exact Colour.noConfusion

/-- A state that is finished after a frame is entered was so before. -/
theorem Enters.finished {frame : Frame} (enters : Enters frame search after)
    {state : ProductStateId} (finished : after.Finished state) : search.Finished state := by
  obtain ⟨explored, notOn⟩ := finished
  rw [onStack_eq_cons enters.stack, List.mem_cons, not_or] at notOn
  rw [enters.round, enters.colour, if_neg notOn.1] at explored
  exact ⟨explored, notOn.2⟩

/-- A search that has left its first state and has nothing next has finished
it. -/
theorem finished_of_begun (stopped : search.next = none) (stack : search.stack = [])
    (begun : search.round.isExplored (search.product.colour initial) = true ∨
      ∃ frame, search.next = some frame ∧ frame.state = initial) : search.Finished initial := by
  refine ⟨begun.resolve_right ?_, by simp [onStack_eq_nil stack]⟩
  rintro ⟨frame, next, _⟩
  rw [stopped] at next
  cases next

/-! ## Finished states -/

structure Examined (search : Search) (automaton : Automaton) (space : StateSpace R)
    (exempt : List ProductTransitionId) (pruned : ProductStateId → Prop) : Prop where
  tested : Tested search.product automaton exempt search.onStack
  followed {state target : ProductStateId} : exempt = [] → search.Finished state →
    search.product.Linked state target →
    search.round.isExplored (search.product.colour target) = true ∨ pruned target
  settled {state : ProductStateId} : exempt = [] → search.Finished state →
    ∀ later, space.Evolves later → Settled later automaton (search.product.point state)

namespace Examined

variable {exempt others : List ProductTransitionId} {pruned prunedAfter : ProductStateId → Prop}

theorem evolves (examined : search.Examined automaton space exempt pruned)
    (evolved : space.Evolves later) : search.Examined automaton later exempt pruned :=
  { examined with settled := fun nothing finished _ further =>
      examined.settled nothing finished _ (evolved.trans further) }

theorem eq_nil_of_more (more : ∀ handle ∈ exempt, handle ∈ others) (nothing : others = []) :
    exempt = [] := by
  rw [List.eq_nil_iff_forall_not_mem]
  intro handle member
  simpa [nothing] using more handle member

/-- Marks change, and more transitions are exempt. -/
theorem marked (examined : search.Examined automaton space exempt pruned)
    (touches : search.Touches after) (colour : after.product.colour = search.product.colour)
    (stack : after.stack = search.stack) (more : ∀ handle ∈ exempt, handle ∈ others) :
    after.Examined automaton space others pruned := by
  have onStack := onStack_congr stack
  have before : ∀ {state}, after.Finished state → search.Finished state := by
    intro state finished
    unfold Finished at finished ⊢
    rwa [touches.round, colour, onStack] at finished
  constructor
  · rw [onStack]
    refine examined.tested.imp more fun state _ => ?_
    exact ⟨congrFun touches.shape.outgoing state,
      congrFun touches.shape.location state⟩
  · intro state target nothing finished linked
    rw [touches.shape.linked] at linked
    rw [touches.round, colour]
    exact examined.followed (eq_nil_of_more more nothing) (before finished) linked
  · intro state nothing finished
    rw [touches.shape.point]
    exact examined.settled (eq_nil_of_more more nothing) (before finished)

/-- A frame is entered, and no transition of it closes a cycle, those exempt
apart. -/
theorem entered (examined : search.Examined automaton space exempt pruned)
    (coherent : search.Coherent automaton initial space) {frame : Frame}
    (enters : Enters frame search after) (coherentAfter : after.Coherent automaton initial space)
    (more : ∀ handle ∈ exempt, handle ∈ others)
    (noCycle : ∀ handle transition, (handle, transition) ∈ after.product.outgoing frame.state →
      handle ∈ others ∨ after.closesCycle handle = false) :
    after.Examined automaton space others pruned := by
  have onStack : after.onStack = frame.state :: search.onStack := onStack_eq_cons enters.stack
  constructor
  · rw [onStack]
    constructor
    · intro handle transition member target included
      have open_ := (noCycle handle transition member).resolve_left included
      rw [← onStack] at target
      rw [Bool.eq_false_iff, ne_eq, coherentAfter.closesCycle_iff member] at open_
      simpa [target] using open_
    · refine examined.tested.imp more fun state member => ?_
      have painted := coherent.painted_of_mem member
      obtain ⟨entry, present⟩ := Product.present_of_colour painted
      exact ⟨enters.outgoing painted, congrArg Prod.snd (enters.point present)⟩
  · intro state target nothing finished linked
    have finishedBefore := enters.finished finished
    obtain ⟨handle, transition, member, reached⟩ := linked
    rw [enters.outgoing (painted_of_isExplored finishedBefore.1)] at member
    rcases examined.followed (eq_nil_of_more more nothing) finishedBefore
      ⟨handle, transition, member, reached⟩ with explored | prune
    · exact .inl (enters.isExplored (.inl explored))
    · exact .inr prune
  · intro state nothing finished later evolved
    have finishedBefore := enters.finished finished
    obtain ⟨entry, present⟩ :=
      Product.present_of_colour (painted_of_isExplored finishedBefore.1)
    rw [enters.point present]
    exact examined.settled (eq_nil_of_more more nothing) finishedBefore later evolved

/-- The top frame leaves the stack after all its transitions were followed. Its
targets are pruned or finished, or they are on the stack and not reached by a
covered transition. -/
theorem left (examined : search.Examined automaton space exempt pruned)
    (coherent : search.Coherent automaton initial space) (wellFormed : space.WellFormed)
    (touches : search.Touches after) {top : Frame} (stack : search.stack = top :: after.stack)
    {paint : Paint}
    (colour : ∀ state, after.product.colour state =
      if state = top.state then .painted search.round.iteration paint
      else search.product.colour state)
    (explored : exempt = [] → ∀ target, search.product.Linked top.state target →
      search.round.isExplored (search.product.colour target) = true ∨ pruned target)
    (prunedSettled : ∀ state, pruned state → ∀ later, space.Evolves later →
      Settled later automaton (search.product.point state))
    (stillPruned : ∀ state, pruned state → prunedAfter state) :
    after.Examined automaton space exempt prunedAfter := by
  have onStack : search.onStack = top.state :: after.onStack := onStack_eq_cons stack
  have tested := examined.tested
  rw [onStack] at tested
  have before : ∀ {state}, state ≠ top.state → after.Finished state → search.Finished state := by
    rintro state other ⟨explored, notOn⟩
    rw [touches.round, colour, if_neg other] at explored
    exact ⟨explored, by simp [onStack, other, notOn]⟩
  constructor
  · refine tested.2.imp (fun _ => id) fun state _ => ?_
    exact ⟨congrFun touches.shape.outgoing state,
      congrFun touches.shape.location state⟩
  · intro state target nothing finished linked
    rw [touches.shape.linked] at linked
    have known : search.round.isExplored (search.product.colour target) = true ∨
        pruned target := by
      by_cases isTop : state = top.state
      · exact explored nothing target (isTop ▸ linked)
      · exact examined.followed nothing (before isTop finished) linked
    rcases known with known | prune
    · left
      rw [touches.round, colour]
      split
      · exact Round.isExplored_iff.2 ⟨paint, rfl⟩
      · exact known
    · exact .inr (stillPruned target prune)
  · intro state nothing finished later evolved
    rw [touches.shape.point]
    by_cases isTop : state = top.state
    · subst isTop
      refine coherent.settled wellFormed (evolved.continues wellFormed).kept ?_ ?_
      · exact coherent.painted_of_mem (onStack ▸ List.mem_cons_self)
      · intro target linked covered
        rcases explored nothing target linked with known | prune
        · by_cases onPath : target ∈ search.onStack
          · obtain ⟨handle, transition, member, rfl⟩ := linked
            rw [onStack] at onPath
            have plain := tested.1 handle transition member onPath (by simp [nothing])
            simp [plain] at covered
          · exact examined.settled nothing ⟨known, onPath⟩ later evolved
        · exact prunedSettled target prune later evolved
    · exact examined.settled nothing (before isTop finished) later evolved

end Examined

end Search

end OnTheFly
