import OnTheFly.Proofs.ModelCheck.Bounded.Accounting
import OnTheFly.Proofs.ModelCheck.Bounded.Run

/-!
Contract: the parts of a step, with and without pocket pruning side by side.

Owns: when a search without pruning mirrors one with pruning, and that each part
of a step keeps it that way as long as both look at the same frame.
Does not own: how the two come apart and together again.

The search without pruning may have explored more, but only pocket states, and
may have deferred more.
-/

set_option autoImplicit false

namespace OnTheFly

namespace BoundedSearch

variable {R : RuleSystem} {plain pruned plainAfter prunedAfter : BoundedSearch}
  {space : StateSpace R}

structure Mirrors (plain pruned : BoundedSearch) : Prop where
  shape : pruned.search.product.SameShape plain.search.product
  automaton : plain.search.automaton = pruned.search.automaton
  initial : plain.search.initial = pruned.search.initial
  round : plain.search.round = pruned.search.round
  unpruned : plain.pocket = false
  unpainted_iff {state : ProductStateId} : plain.search.product.colour state = .unpainted ↔
    pruned.search.product.colour state = .unpainted
  explored {state : ProductStateId} :
    pruned.search.round.isExplored (pruned.search.product.colour state) = true →
      pruned.search.round.isExplored (plain.search.product.colour state) = true
  extra {state : ProductStateId} :
    pruned.search.round.isExplored (plain.search.product.colour state) = true →
      pruned.search.round.isExplored (pruned.search.product.colour state) = true ∨
        pruned.search.product.isPocket state = true
  deferred {handle : ProductTransitionId} : handle ∈ pruned.deferred → handle ∈ plain.deferred

/-- Whether only painted states are marked as pockets, and only with pruning. -/
def MarksPainted (bounded : BoundedSearch) : Prop :=
  ∀ state, bounded.search.product.isPocket state = true →
    bounded.pocket = true ∧ bounded.search.product.colour state ≠ .unpainted

theorem Pockets.marksPainted {automaton : Automaton} (pockets : pruned.Pockets automaton space) :
    pruned.MarksPainted :=
  fun _ isPocket => ⟨pockets.enabled isPocket, pockets.painted isPocket⟩

theorem MarksPainted.defers (marks : pruned.MarksPainted) (defers : pruned.Defers prunedAfter) :
    prunedAfter.MarksPainted := by
  intro state isPocket
  rw [defers.isPocket] at isPocket
  rw [defers.pocket, defers.colour]
  exact marks state isPocket

namespace Mirrors

/-! ## One of the two changes -/

/-- The search without pruning explores pocket states. -/
theorem strayed (mirrors : plain.Mirrors pruned)
    (touches : plain.search.Touches plainAfter.search) (pocket : plainAfter.pocket = plain.pocket)
    (unpainted_iff : ∀ state, plainAfter.search.product.colour state = .unpainted ↔
      plain.search.product.colour state = .unpainted)
    (explored : ∀ state, plain.search.round.isExplored (plain.search.product.colour state) = true →
      plain.search.round.isExplored (plainAfter.search.product.colour state) = true)
    (extra : ∀ state,
      plain.search.round.isExplored (plainAfter.search.product.colour state) = true →
        plain.search.round.isExplored (plain.search.product.colour state) = true ∨
          pruned.search.product.isPocket state = true)
    (deferred : ∀ handle ∈ plain.deferred, handle ∈ plainAfter.deferred) :
    plainAfter.Mirrors pruned where
  shape := mirrors.shape.trans touches.shape
  automaton := touches.automaton.trans mirrors.automaton
  initial := touches.initial.trans mirrors.initial
  round := touches.round.trans mirrors.round
  unpruned := pocket.trans mirrors.unpruned
  unpainted_iff := (unpainted_iff _).trans mirrors.unpainted_iff
  explored known := by
    have before := mirrors.explored known
    rw [← mirrors.round] at before ⊢
    exact explored _ before
  extra known := by
    rw [← mirrors.round] at known
    rcases extra _ known with before | isPocket
    · rw [mirrors.round] at before
      exact mirrors.extra before
    · exact .inr isPocket
  deferred known := deferred _ (mirrors.deferred known)

theorem plain_defers (mirrors : plain.Mirrors pruned) (defers : plain.Defers plainAfter) :
    plainAfter.Mirrors pruned := by
  refine mirrors.strayed defers.touches defers.pocket ?_ ?_ ?_ fun _ => defers.more
  · intro state
    rw [defers.colour]
  · intro state known
    rw [defers.colour]
    exact known
  · intro state known
    rw [defers.colour] at known
    exact .inl known

/-- The search without pruning paints a pocket state. -/
theorem repainted (mirrors : plain.Mirrors pruned) (marks : pruned.MarksPainted)
    (touches : plain.search.Touches plainAfter.search) (pocket : plainAfter.pocket = plain.pocket)
    (deferred : ∀ handle ∈ plain.deferred, handle ∈ plainAfter.deferred)
    {state : ProductStateId} (isPocket : pruned.search.product.isPocket state = true)
    {paint : Paint}
    (colour : ∀ other, plainAfter.search.product.colour other =
      if other = state then .painted plain.search.round.iteration paint
      else plain.search.product.colour other) : plainAfter.Mirrors pruned := by
  have painted : plain.search.product.colour state ≠ .unpainted := fun unpainted =>
    (marks state isPocket).2 (mirrors.unpainted_iff.1 unpainted)
  refine mirrors.strayed touches pocket ?_ ?_ ?_ deferred
  · intro other
    rw [colour]
    split
    · rename_i same
      simp [same, painted]
    · rfl
  · intro other known
    rw [colour]
    split
    · exact Round.isExplored_iff.2 ⟨paint, rfl⟩
    · exact known
  · intro other known
    rw [colour] at known
    split at known
    · rename_i same
      exact .inr (same ▸ isPocket)
    · exact .inl known

/-- In the search with pruning nothing changes that could be seen. -/
theorem pruned_marked (mirrors : plain.Mirrors pruned)
    (touches : pruned.search.Touches prunedAfter.search)
    (colour : prunedAfter.search.product.colour = pruned.search.product.colour)
    (isPocket : prunedAfter.search.product.isPocket = pruned.search.product.isPocket)
    (deferred : ∀ handle ∈ prunedAfter.deferred, handle ∈ plain.deferred) :
    plain.Mirrors prunedAfter where
  shape := touches.shape.symm.trans mirrors.shape
  automaton := mirrors.automaton.trans touches.automaton.symm
  initial := mirrors.initial.trans touches.initial.symm
  round := mirrors.round.trans touches.round.symm
  unpruned := mirrors.unpruned
  unpainted_iff := by
    intro state
    rw [colour]
    exact mirrors.unpainted_iff
  explored := by
    intro state
    rw [colour, touches.round]
    exact mirrors.explored
  extra := by
    intro state
    rw [colour, touches.round, isPocket]
    exact mirrors.extra
  deferred known := deferred _ known

/-! ## What is still to be visited -/

/-- Without pruning a state is still to be visited if it has not been explored
in the round. -/
theorem isUnexplored_plain (mirrors : plain.Mirrors pruned) (state : ProductStateId) :
    plain.isUnexplored state =
      !pruned.search.round.isExplored (plain.search.product.colour state) := by
  simp [isUnexplored, mirrors.unpruned, mirrors.round]

theorem known_of_isPocket (marks : pruned.MarksPainted) {state : ProductStateId}
    (isPocket : pruned.search.product.isPocket state = true) :
    pruned.isUnexplored state = false := by
  obtain ⟨enabled, painted⟩ := marks state isPocket
  exact isUnexplored_of_isPocket enabled isPocket painted

/-- What the search without pruning does not visit, the other does not visit
either. -/
theorem known_of_known (mirrors : plain.Mirrors pruned) (marks : pruned.MarksPainted)
    {state : ProductStateId} (known : plain.isUnexplored state = false) :
    pruned.isUnexplored state = false := by
  rw [mirrors.isUnexplored_plain, Bool.not_eq_false'] at known
  rcases mirrors.extra known with explored | isPocket
  · simp [isUnexplored, explored]
  · exact known_of_isPocket marks isPocket

/-- What only the search without pruning visits are pocket states. -/
theorem isUnexplored_of_not_isPocket (mirrors : plain.Mirrors pruned) {state : ProductStateId}
    (unknown : plain.isUnexplored state = true)
    (noPocket : pruned.search.product.isPocket state = false) :
    pruned.isUnexplored state = true := by
  rw [mirrors.isUnexplored_plain, Bool.not_eq_true'] at unknown
  have unexplored :
      pruned.search.round.isExplored (pruned.search.product.colour state) = false := by
    rw [Bool.eq_false_iff]
    intro explored
    rw [mirrors.explored explored] at unknown
    cases unknown
  simp [isUnexplored, unexplored, noPocket]

end Mirrors

/-! ## Looking at the transitions of the same frame -/

theorem allows_congr {first second : BoundedSearch}
    (round : first.search.round = second.search.round)
    (boundary : first.boundary = second.boundary) (space : StateSpace R)
    (handle : ProductTransitionId) (entry : ProductTransition) :
    (first.allows space handle entry).1 = (second.allows space handle entry).1 := by
  unfold allows hasBudget iteration
  rw [round, boundary]
  split
  · split
    · rfl
    · split <;> rfl
  · rfl

theorem pass?_congr {first second : BoundedSearch}
    (round : first.search.round = second.search.round)
    (boundary : first.boundary = second.boundary) (space : StateSpace R)
    (entry : ProductTransition) : first.pass? space entry = second.pass? space entry := by
  unfold pass? hasBudget iteration
  rw [round, boundary]

/-- A transition is deferred in both. -/
theorem Mirrors.defer (mirrors : plain.Mirrors pruned) (handle : ProductTransitionId)
    (target : ProductStateId) :
    (plain.defer handle target).Mirrors (pruned.defer handle target) := by
  obtain ⟨plainDefers, remembered, _⟩ := defer_spec plain handle target
  obtain ⟨prunedDefers, _, only⟩ := defer_spec pruned handle target
  have deferredPlain := mirrors.plain_defers plainDefers
  refine deferredPlain.pruned_marked prunedDefers.touches prunedDefers.colour
    prunedDefers.isPocket fun other member => ?_
  rcases only other member with before | rfl
  · exact deferredPlain.deferred before
  · exact remembered

/-- If both test transitions alike, they find a cycle or not alike. -/
theorem Mirrors.findCycle (mirrors : plain.Mirrors pruned)
    (boundary : plain.boundary = pruned.boundary)
    (test : ∀ handle, plain.search.closesCycle handle = pruned.search.closesCycle handle)
    {entries : List (ProductTransitionId × ProductTransition)} {found foundPruned : Bool}
    (answer : BoundedSearch.findCycle space entries plain = (.ok found, plainAfter))
    (answerPruned :
      BoundedSearch.findCycle space entries pruned = (.ok foundPruned, prunedAfter)) :
    found = foundPruned ∧ plainAfter.Mirrors prunedAfter := by
  induction entries generalizing plain pruned with
  | nil =>
      cases answer
      cases answerPruned
      exact ⟨rfl, mirrors⟩
  | cons head rest inductionHypothesis =>
      obtain ⟨handle, entry⟩ := head
      have alike := allows_congr mirrors.round boundary space handle entry
      unfold BoundedSearch.findCycle at answer answerPruned
      cases look : plain.allows space handle entry with
      | mk result seen =>
          cases lookPruned : pruned.allows space handle entry with
          | mk resultPruned seenPruned =>
              rw [look, lookPruned] at alike
              cases alike
              cases result with
              | error breach => simp [look] at answer
              | ok allowed =>
                  simp only [look] at answer
                  simp only [lookPruned] at answerPruned
                  rcases allows_spec look with ⟨rfl, rfl⟩ | ⟨rfl, _, rfl⟩
                  · obtain rfl : seenPruned = pruned := by simpa using allows_spec lookPruned
                    rw [test handle] at answer
                    split at answer
                    · rename_i closes
                      rw [if_pos closes] at answerPruned
                      cases answer
                      cases answerPruned
                      exact ⟨rfl, mirrors⟩
                    · rename_i closes
                      rw [if_neg closes] at answerPruned
                      exact inductionHypothesis mirrors boundary test answer answerPruned
                  · obtain ⟨_, rfl⟩ : entry.via.isSome = true ∧
                        seenPruned = pruned.defer handle entry.target := by
                      simpa using allows_spec lookPruned
                    simp only [Bool.false_and, Bool.false_eq_true, if_false] at answer answerPruned
                    obtain ⟨plainDefers, _⟩ := defer_spec plain handle entry.target
                    obtain ⟨prunedDefers, _⟩ := defer_spec pruned handle entry.target
                    refine inductionHypothesis (mirrors.defer handle entry.target) ?_ ?_ answer
                      answerPruned
                    · rw [(defer_same plain handle entry.target).2,
                        (defer_same pruned handle entry.target).2, boundary]
                    · intro other
                      rw [plainDefers.closesCycle, prunedDefers.closesCycle, test]

/-- Both find the same successor to enter, or the search without pruning finds
a pocket state. -/
theorem Mirrors.freshSuccessor (mirrors : plain.Mirrors pruned) (marks : pruned.MarksPainted)
    (boundary : plain.boundary = pruned.boundary)
    {entries : List (ProductTransitionId × ProductTransition)} {passed passedPruned : Option Frame}
    (answer : BoundedSearch.freshSuccessor space entries plain = (.ok passed, plainAfter))
    (answerPruned :
      BoundedSearch.freshSuccessor space entries pruned = (.ok passedPruned, prunedAfter)) :
    (passed = passedPruned ∧ plainAfter.Mirrors prunedAfter ∧
        plainAfter.boundary = prunedAfter.boundary) ∨
      ∃ frame, passed = some frame ∧ pruned.search.product.isPocket frame.state = true := by
  induction entries generalizing plain pruned with
  | nil =>
      cases answer
      cases answerPruned
      exact .inl ⟨rfl, mirrors, boundary⟩
  | cons head rest inductionHypothesis =>
      obtain ⟨handle, entry⟩ := head
      have alike := pass?_congr mirrors.round boundary space entry
      unfold BoundedSearch.freshSuccessor at answer answerPruned
      split at answer
      · rename_i known
        have knownPruned := mirrors.known_of_known marks (by simpa using known)
        simp only [knownPruned, Bool.not_false, if_true] at answerPruned
        exact inductionHypothesis mirrors marks boundary answer answerPruned
      · rename_i unknown
        have unexplored : plain.isUnexplored entry.target = true := by simpa using unknown
        cases isPocket : pruned.search.product.isPocket entry.target with
        | true =>
            have knownPruned := Mirrors.known_of_isPocket marks isPocket
            simp only [knownPruned, Bool.not_false, if_true] at answerPruned
            split at answer
            · cases answer
            · rename_i frame boundaryAfter pass
              cases answer
              refine .inr ⟨frame, rfl, ?_⟩
              rw [(pass?_spec pass).1 frame rfl]
              exact isPocket
            · rename_i boundaryAfter stop
              obtain rfl := pass?_stop stop
              obtain ⟨defers, _⟩ := defer_spec plain handle entry.target
              refine inductionHypothesis (mirrors.plain_defers defers) marks ?_ answer answerPruned
              rw [(defer_same plain handle entry.target).2, boundary]
        | false =>
            have unexploredPruned := mirrors.isUnexplored_of_not_isPocket unexplored isPocket
            simp only [unexploredPruned, Bool.not_true, Bool.false_eq_true, if_false]
              at answerPruned
            rw [alike] at answer
            split at answer
            · cases answer
            · rename_i frame boundaryAfter pass
              rw [pass] at answerPruned
              cases answer
              cases answerPruned
              exact .inl ⟨rfl, { mirrors with }, rfl⟩
            · rename_i boundaryAfter stop
              rw [stop] at answerPruned
              obtain rfl := pass?_stop stop
              rw [← boundary] at answer
              obtain ⟨prunedDefers, _⟩ := defer_spec pruned handle entry.target
              have boundaries : (plain.defer handle entry.target).boundary =
                  (pruned.defer handle entry.target).boundary := by
                rw [(defer_same plain handle entry.target).2,
                  (defer_same pruned handle entry.target).2, boundary]
              have rest_ := inductionHypothesis (mirrors.defer handle entry.target)
                (marks.defers prunedDefers) boundaries answer answerPruned
              rwa [prunedDefers.isPocket] at rest_

/-! ## Entering and leaving the same frame -/

/-- Both leave the same frame. -/
theorem Mirrors.left (mirrors : plain.Mirrors pruned) {top : Frame}
    (leaves : plain.Leaves top plainAfter) (leavesPruned : pruned.Leaves top prunedAfter) :
    plainAfter.Mirrors prunedAfter where
  shape := (leavesPruned.touches.shape.symm.trans mirrors.shape).trans leaves.touches.shape
  automaton := leaves.touches.automaton.trans
    (mirrors.automaton.trans leavesPruned.touches.automaton.symm)
  initial := leaves.touches.initial.trans
    (mirrors.initial.trans leavesPruned.touches.initial.symm)
  round := leaves.touches.round.trans (mirrors.round.trans leavesPruned.touches.round.symm)
  unpruned := leaves.pocket.trans mirrors.unpruned
  unpainted_iff := by
    intro state
    rw [leaves.colour, leavesPruned.colour]
    split
    · exact ⟨nofun, nofun⟩
    · exact mirrors.unpainted_iff
  explored := by
    intro state
    rw [leaves.colour, leavesPruned.colour, leavesPruned.touches.round, mirrors.round]
    split
    · exact fun _ => Round.isExplored_iff.2 ⟨_, rfl⟩
    · exact mirrors.explored
  extra := by
    intro state
    rw [leaves.colour, leavesPruned.colour, leavesPruned.touches.round, mirrors.round]
    split
    · exact fun _ => .inl (Round.isExplored_iff.2 ⟨_, rfl⟩)
    · intro known
      exact (mirrors.extra known).imp_right fun isPocket =>
        leavesPruned.isPocket_iff.2 (.inl isPocket)
  deferred := by
    intro handle
    rw [leaves.deferred, leavesPruned.deferred]
    exact mirrors.deferred

theorem leave_congr {first second firstAfter secondAfter : BoundedSearch} {top : Frame}
    {rest : List Frame} (boundary : first.boundary = second.boundary)
    (answer : first.leave top rest = (.ok (), firstAfter))
    (answerSecond : second.leave top rest = (.ok (), secondAfter)) :
    firstAfter.boundary = secondAfter.boundary := by
  unfold leave at answer answerSecond
  simp only [boundary] at answer answerSecond
  split at answer
  · rename_i lowering counted installed
    simp only [counted, installed] at answerSecond
    split at answer
    · cases answer
    · rename_i lowered backtrack
      rw [backtrack] at answerSecond
      cases answer
      cases answerSecond
      rfl
  · rename_i unchanged
    split at answerSecond
    · rename_i lowering counted installed
      exact absurd installed (unchanged _ counted)
    · cases answer
      cases answerSecond
      rfl

/-- Both enter the same frame. -/
theorem Mirrors.entered (mirrors : plain.Mirrors pruned) {frame : Frame}
    {opened openedPruned : Search} (enters : Search.Enters frame plain.search opened)
    (entersPruned : Search.Enters frame pruned.search openedPruned)
    (shape : openedPruned.product.SameShape opened.product) :
    ({ plain with search := opened } : BoundedSearch).Mirrors
      { pruned with search := openedPruned } where
  shape := shape
  automaton := enters.automaton.trans (mirrors.automaton.trans entersPruned.automaton.symm)
  initial := enters.initial.trans (mirrors.initial.trans entersPruned.initial.symm)
  round := enters.round.trans (mirrors.round.trans entersPruned.round.symm)
  unpruned := mirrors.unpruned
  unpainted_iff := by
    intro state
    simp only [enters.colour, entersPruned.colour]
    split
    · exact ⟨nofun, nofun⟩
    · exact mirrors.unpainted_iff
  explored := by
    intro state
    simp only [enters.colour, entersPruned.colour, entersPruned.round, mirrors.round]
    split
    · exact id
    · exact mirrors.explored
  extra := by
    intro state
    simp only [enters.colour, entersPruned.colour, entersPruned.round, entersPruned.isPocket,
      mirrors.round]
    split
    · exact .inl
    · exact mirrors.extra
  deferred := mirrors.deferred

theorem Mirrors.plain_completed (mirrors : plain.Mirrors pruned) (state : ProductStateId) :
    (plain.completed state).Mirrors pruned := by
  refine mirrors.strayed (plain.touches_completed state) rfl ?_ ?_ ?_ fun _ => id
  · intro other
    rw [colour_completed]
  · intro other known
    rw [colour_completed]
    exact known
  · intro other known
    rw [colour_completed] at known
    exact .inl known

theorem Mirrors.completed (mirrors : plain.Mirrors pruned) (state : ProductStateId) :
    (plain.completed state).Mirrors (pruned.completed state) :=
  (mirrors.plain_completed state).pruned_marked (pruned.touches_completed state)
    (pruned.colour_completed state) (Product.isPocket_modify _ _ fun _ => rfl)
    fun _ => mirrors.deferred

/-- Entering the same frame, both expand it or not, with the same steps. -/
theorem Mirrors.sameShape_opened (mirrors : plain.Mirrors pruned)
    (closed : plain.ClosedWhenPainted) (closedPruned : pruned.ClosedWhenPainted)
    {frame : Frame} {opened openedPruned : Search}
    (expand : (plain.search.entered frame).expandOnce space frame.state = .ok opened)
    (expandPruned :
      (pruned.search.entered frame).expandOnce space frame.state = .ok openedPruned) :
    openedPruned.product.SameShape opened.product := by
  have entered : (pruned.search.entered frame).product.SameShape
      (plain.search.entered frame).product :=
    ((pruned.search.sameShape_entered frame).symm.trans mirrors.shape).trans
      (plain.search.sameShape_entered frame)
  have sameClosed : (plain.search.entered frame).product.isClosed frame.state =
      (pruned.search.entered frame).product.isClosed frame.state := by
    rw [Search.isClosed_entered, Search.isClosed_entered, Bool.eq_iff_iff, closed, closedPruned,
      ne_eq, ne_eq, mirrors.unpainted_iff]
  unfold Search.expandOnce at expand expandPruned
  rw [sameClosed] at expand
  split at expand
  · rename_i isClosed
    rw [if_pos isClosed] at expandPruned
    cases expand
    cases expandPruned
    exact entered
  · rename_i isOpen
    rw [if_neg isOpen] at expandPruned
    unfold Search.expand at expand expandPruned
    have automaton : (plain.search.entered frame).automaton =
      (pruned.search.entered frame).automaton := mirrors.automaton
    have round : (plain.search.entered frame).round = (pruned.search.entered frame).round :=
      mirrors.round
    rw [automaton, entered.location, entered.systemState, round] at expand
    cases installed : (pruned.search.entered frame).automaton with
    | none =>
        simp only [installed] at expand expandPruned
        cases expand
        cases expandPruned
        exact entered
    | some automaton =>
        simp only [installed] at expand expandPruned
        split at expand
        · cases expand
        · rename_i location here
          rw [here] at expandPruned
          cases expand
          cases expandPruned
          exact entered.addSteps _ _ _

/-! ## Starting again -/

/-- If the search with pruning starts again, so does the other. -/
theorem Mirrors.restarted (mirrors : plain.Mirrors pruned)
    (boundary : plain.boundary = pruned.boundary) {config : Config}
    (unexplored : ∀ state,
      plain.search.round.next.isExplored (plain.search.product.colour state) = false)
    (unexploredPruned : ∀ state,
      pruned.search.round.next.isExplored (pruned.search.product.colour state) = false)
    (answer : plain.restart config = (.ok (), plainAfter))
    (answerPruned : pruned.restart config = (.ok (), prunedAfter)) :
    prunedAfter = pruned ∨
      (plainAfter.Mirrors prunedAfter ∧ plainAfter.boundary = prunedAfter.boundary ∧
        plainAfter.search.next = prunedAfter.search.next ∧
        plainAfter.search.stack = plain.search.stack ∧
        prunedAfter.search.stack = pruned.search.stack ∧
        prunedAfter.search.counterExample = pruned.search.counterExample) := by
  have sameRound : plain.search.round.next = pruned.search.round.next := by rw [mirrors.round]
  unfold restart at answer answerPruned
  split at answerPruned
  · cases answerPruned
    exact .inl rfl
  · rename_i may
    have mayPlain : plain.mayRestart config = true := by
      have mayPruned : pruned.mayRestart config = true := by simpa using may
      unfold mayRestart iteration at mayPruned ⊢
      rw [Bool.and_eq_true, Bool.not_eq_true', List.isEmpty_eq_false_iff_exists_mem] at mayPruned ⊢
      rw [mirrors.round]
      obtain ⟨⟨handle, member⟩, allowed⟩ := mayPruned
      exact ⟨⟨handle, mirrors.deferred member⟩, allowed⟩
    rw [mayPlain] at answer
    simp only [Bool.not_true, Bool.false_eq_true, if_false, boundary] at answer
    simp only at answerPruned
    split at answer
    · cases answer
    · rename_i relaxed isRelaxed
      rw [isRelaxed] at answerPruned
      cases answer
      cases answerPruned
      refine .inr ⟨?_, rfl, by simp only [mirrors.initial], rfl, rfl, rfl⟩
      refine ⟨mirrors.shape, mirrors.automaton, mirrors.initial, sameRound, mirrors.unpruned,
        mirrors.unpainted_iff, ?_, ?_, nofun⟩
      · intro state explored
        change pruned.search.round.next.isExplored (pruned.search.product.colour state) = true
          at explored
        rw [unexploredPruned] at explored
        cases explored
      · intro state explored
        change pruned.search.round.next.isExplored (plain.search.product.colour state) = true
          at explored
        rw [← sameRound, unexplored] at explored
        cases explored

end BoundedSearch

end OnTheFly
