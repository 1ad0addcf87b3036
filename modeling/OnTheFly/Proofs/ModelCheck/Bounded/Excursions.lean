import OnTheFly.Proofs.ModelCheck.Bounded.Mirroring
import OnTheFly.Proofs.ModelCheck.Bounded.Turns

/-!
Contract: how a search without pocket pruning goes beside one with it.

Owns: the relation between the two, and that a turn of the search without
pruning keeps it.

The two go the same way until the search without pruning enters a pocket state
again. Then it is away, on pocket states only, while the other has walked back
further. When it returns to the frame from which it left, it walks back the same
way. It may have deferred more on its excursion, and so it may go on after the
other has come to its end.
-/

set_option autoImplicit false

namespace OnTheFly

/-- Searches of the same shape with the same stack test transitions alike. -/
theorem Search.closesCycle_congr {R : RuleSystem} {first second : Search} {automaton : Automaton}
    {initial initialSecond : ProductStateId} {space : StateSpace R}
    (coherent : first.Coherent automaton initial space)
    (coherentSecond : second.Coherent automaton initialSecond space)
    (shape : second.product.SameShape first.product) (stack : first.stack = second.stack)
    (handle : ProductTransitionId) : first.closesCycle handle = second.closesCycle handle := by
  have cyan : ∀ state, first.product.colour state = first.round.cyan ↔
      second.product.colour state = second.round.cyan := by
    intro state
    rw [coherent.cyan_iff, coherentSecond.cyan_iff, onStack, onStack, stack]
  unfold closesCycle isAccepting
  rw [shape.transition?, shape.location, coherent.installed, coherentSecond.installed]
  simp only [cyan]

namespace BoundedSearch

variable {R : RuleSystem} {plain pruned plainAfter prunedAfter origin : BoundedSearch}
  {automaton : Automaton} {initial initialPruned : ProductStateId} {space : StateSpace R}
  {config : Config}

/-- A search that mirrors `origin`, except that the frames in `away` led it on to
pocket states. -/
structure Strays (plain origin : BoundedSearch) (away : List Frame) : Prop where
  mirrors : plain.Mirrors origin
  boundary : plain.boundary = origin.boundary.map (·.raised away)
  pockets : ∀ frame ∈ away, origin.search.product.isPocket frame.state = true
  moved : ∀ frame ∈ away, frame.counted = true → frame.via.isSome = true

/-- What an excursion enters has been expanded before. -/
theorem Strays.painted {away : List Frame} (strays : plain.Strays origin away)
    (walking : origin.Walking automaton initial space) {frame : Frame} (member : frame ∈ away) :
    plain.search.product.colour frame.state ≠ .unpainted := by
  rw [ne_eq, strays.mirrors.unpainted_iff]
  exact walking.knows.pockets.painted (strays.pockets frame member)

/-- How a search without pruning and one with pruning can be related. -/
inductive Beside (automaton : Automaton) (initialPruned : ProductStateId) (space : StateSpace R)
    (config : Config) (plain pruned : BoundedSearch) : Prop where
  /-- They are at the same frame. -/
  | level (mirrors : plain.Mirrors pruned) (boundary : plain.boundary = pruned.boundary)
      (stack : plain.search.stack = pruned.search.stack)
      (next : plain.search.next = pruned.search.next)
      (unreported : pruned.search.counterExample = none)
  /-- One is on an excursion from where the other was on its way back. -/
  | away {origin : BoundedSearch} {frame : Frame} {frames : List Frame}
      (walking : origin.Walking automaton initialPruned space)
      (walk : retreat space config origin.search.stack origin = (.ok (), pruned))
      (strays : plain.Strays origin (frame :: frames))
      (stack : plain.search.stack = frames ++ origin.search.stack)
      (next : plain.search.next = some frame)
  /-- The search with pruning has come to its end. -/
  | alone (stopped : pruned.search.next = none)
      (unreported : pruned.search.counterExample = none)
  /-- The search without pruning has reported a counterexample. -/
  | reported (found : plain.search.counterExample.isSome = true)

/-! ## Walking back -/

/-- From the same frame the two walk back side by side. -/
theorem Walking.retreat_beside (wellFormed : space.WellFormed) {stack : List Frame}
    (walking : plain.Walking automaton initial space)
    (walkingPruned : pruned.Walking automaton initialPruned space)
    (mirrors : plain.Mirrors pruned) (boundary : plain.boundary = pruned.boundary)
    (onTop : plain.search.stack = stack) (onTopPruned : pruned.search.stack = stack)
    (walk : retreat space config stack plain = (.ok (), plainAfter))
    (walkPruned : retreat space config stack pruned = (.ok (), prunedAfter)) :
    Beside automaton initialPruned space config plainAfter prunedAfter := by
  induction stack generalizing plain pruned with
  | nil =>
      rcases mirrors.restarted boundary walking.knows.coherent.unexplored_next
        walkingPruned.knows.coherent.unexplored_next walk walkPruned with
        rfl | ⟨mirrorsAfter, boundaryAfter, next, stack, stackPruned, unreported⟩
      · exact .alone walkingPruned.stopped walkingPruned.knows.unreported
      · refine .level mirrorsAfter boundaryAfter ?_ next
          (unreported.trans walkingPruned.knows.unreported)
        rw [stack, stackPruned, onTop, onTopPruned]
  | cons top rest inductionHypothesis =>
      obtain ⟨passed, moved, fresh, chooses, leaves⟩ := retreat_parts walk
      obtain ⟨passedPruned, movedPruned, freshPruned, choosesPruned, leavesPruned⟩ :=
        retreat_parts walkPruned
      have defers := (freshSuccessor_spec fresh).1.defers
      have defersPruned := (freshSuccessor_spec freshPruned).1.defers
      have freshSame := fresh
      rw [mirrors.shape.outgoing] at freshSame
      rcases mirrors.freshSuccessor walkingPruned.knows.pockets.marksPainted boundary freshSame
        freshPruned with ⟨rfl, mirrorsMoved, boundaryMoved⟩ | ⟨frame, rfl, isPocket⟩
      · cases passed with
        | some frame =>
            rw [chooses frame rfl, choosesPruned frame rfl]
            refine .level { mirrorsMoved with } boundaryMoved ?_ rfl
              (defersPruned.counterExample.trans walkingPruned.knows.unreported)
            exact (defers.stack.trans onTop).trans (defersPruned.stack.trans onTopPruned).symm
        | none =>
            obtain ⟨left, leave, walkLeft⟩ := leaves rfl
            obtain ⟨leftPruned, leavePruned, walkLeftPruned⟩ := leavesPruned rfl
            obtain ⟨walkingLeft, _, leaves, stack⟩ := walking.walked wellFormed onTop fresh leave
            obtain ⟨walkingLeftPruned, _, leavesPruned, stackPruned⟩ :=
              walkingPruned.walked wellFormed onTopPruned freshPruned leavePruned
            exact inductionHypothesis walkingLeft walkingLeftPruned
              (mirrorsMoved.left leaves leavesPruned)
              (leave_congr boundaryMoved leave leavePruned) stack stackPruned walkLeft
              walkLeftPruned
      · -- A pocket state that the other passes over starts an excursion.
        obtain ⟨account, moves⟩ := freshSuccessor_account fresh
        have strays : ({ moved with search := { moved.search with next := some frame } } :
            BoundedSearch).Strays pruned [frame] :=
          { mirrors := { mirrors.plain_defers defers with }
            boundary := by rw [← boundary]; exact account
            pockets := by simpa using isPocket
            moved := by simpa using moves frame rfl }
        rw [chooses frame rfl]
        refine .away walkingPruned (onTopPruned.symm ▸ walkPruned) strays ?_ rfl
        exact (defers.stack.trans onTop).trans onTopPruned.symm

/-- From an excursion the search finds its way back. -/
theorem Walking.retreat_away (wellFormed : space.WellFormed) {away : List Frame}
    (walking : plain.Walking automaton initial space)
    (walkingOrigin : origin.Walking automaton initialPruned space)
    (strays : plain.Strays origin away)
    (onTop : plain.search.stack = away ++ origin.search.stack)
    (walk : retreat space config (away ++ origin.search.stack) plain = (.ok (), plainAfter))
    (walkPruned : retreat space config origin.search.stack origin = (.ok (), pruned)) :
    Beside automaton initialPruned space config plainAfter pruned := by
  induction away generalizing plain with
  | nil =>
      have boundary := strays.boundary
      rw [Boundary.map_raised_nil] at boundary
      exact walking.retreat_beside wellFormed walkingOrigin strays.mirrors boundary onTop rfl walk
        walkPruned
  | cons top rest inductionHypothesis =>
      have mirrors := strays.mirrors
      have isPocket := strays.pockets top List.mem_cons_self
      rcases retreat_cases walk with ⟨frame, moved, fresh, rfl⟩ |
        ⟨moved, left, fresh, leave, walkLeft⟩
      · -- Only pocket states follow a pocket state, apart from states on the stack.
        obtain ⟨passes, found, _⟩ := freshSuccessor_spec fresh
        obtain ⟨handle, transition, member, target, unexplored⟩ := found frame rfl
        obtain ⟨account, moves⟩ := freshSuccessor_account fresh
        have isPocketNext : origin.search.product.isPocket frame.state = true := by
          rw [mirrors.shape.outgoing] at member
          rw [← target]
          rcases walkingOrigin.knows.pockets.followed isPocket member with next | ⟨_, waiting⟩
          · exact next
          · have explored : origin.search.round.isExplored
                (origin.search.product.colour transition.target) = true := by
              rw [walkingOrigin.knows.coherent.cyan_iff.2 waiting]
              exact Round.isExplored_iff.2 ⟨.cyan, rfl⟩
            rw [mirrors.isUnexplored_plain, mirrors.explored explored] at unexplored
            cases unexplored
        refine .away walkingOrigin walkPruned ⟨{ mirrors.plain_defers passes.defers with }, ?_, ?_,
          ?_⟩ (passes.defers.stack.trans onTop) rfl
        · change moved.boundary = _
          rw [account, strays.boundary, Option.map_map]
          congr 1
          funext boundary
          exact boundary.raised_cons frame (top :: rest)
        · intro other member
          rcases List.mem_cons.1 member with rfl | below
          · exact isPocketNext
          · exact strays.pockets other below
        · intro other member
          rcases List.mem_cons.1 member with rfl | below
          · exact moves other rfl
          · exact strays.moved other below
      · obtain ⟨walkingLeft, defers, leaves, stack⟩ := walking.walked wellFormed onTop fresh leave
        have account := (freshSuccessor_account fresh).1
        rw [Option.toList_none, Boundary.map_raised_nil, strays.boundary] at account
        refine inductionHypothesis walkingLeft ⟨?_, ?_, ?_, ?_⟩ stack walkLeft
        · exact (mirrors.plain_defers defers).repainted walkingOrigin.knows.pockets.marksPainted
            leaves.touches leaves.pocket (fun _ member => leaves.deferred.symm ▸ member) isPocket
            leaves.colour
        · exact leave_account (strays.moved top List.mem_cons_self) account leave
        · exact fun frame member => strays.pockets frame (List.mem_cons_of_mem _ member)
        · exact fun frame member => strays.moved frame (List.mem_cons_of_mem _ member)

/-! ## One turn -/

section Turn

variable {A B : Type} [Acceptor R A] [Acceptor R B] {run : Exploration R A}
  {runPruned : Exploration R B} {root rootPruned : ProductPoint} {frame : Frame}

/-- At the same frame the two take the same turn. -/
theorem Mirrors.turned (mirrors : plain.Mirrors pruned)
    (boundary : plain.boundary = pruned.boundary)
    (stack : plain.search.stack = pruned.search.stack)
    (invariant : plain.Invariant run automaton initial root)
    (invariantPruned : pruned.Invariant runPruned automaton initialPruned rootPruned)
    (same : runPruned.space = run.space) (next : plain.search.next = some frame)
    (nextPruned : pruned.search.next = some frame)
    (systemClosed : run.space.isClosed (plain.search.product.systemState frame.state) = true)
    (turns : Turns plain run.space config frame plainAfter)
    (turnsPruned : Turns pruned run.space config frame prunedAfter) :
    Beside automaton initialPruned run.space config plainAfter prunedAfter := by
  obtain ⟨_, _, _, unreported⟩ := invariant.faithful.coherent.pending next
  obtain ⟨_, _, _, unreportedPruned⟩ := invariantPruned.faithful.coherent.pending nextPruned
  have systemClosedPruned : run.space.isClosed
      (pruned.search.product.systemState frame.state) = true := by
    rw [← mirrors.shape.systemState]
    exact systemClosed
  rw [← same] at systemClosedPruned turnsPruned
  obtain ⟨opened, passed, found, expand, coherent, enters, look, outcome⟩ :=
    invariant.turned next systemClosed turns
  obtain ⟨openedPruned, passedPruned, foundPruned, expandPruned, coherentPruned, entersPruned,
    lookPruned, outcomePruned⟩ := invariantPruned.turned nextPruned systemClosedPruned turnsPruned
  rw [same] at expandPruned coherentPruned lookPruned outcomePruned
  have shape := mirrors.sameShape_opened (invariant.closed unreported)
    (invariantPruned.closed unreportedPruned) expand expandPruned
  have stackOpened : opened.stack = openedPruned.stack := by
    rw [enters.stack, entersPruned.stack, stack]
  rw [shape.outgoing] at look
  obtain ⟨rfl, mirrorsPassed⟩ := (mirrors.entered enters entersPruned shape).findCycle boundary
    (Search.closesCycle_congr coherent coherentPruned shape stackOpened) look lookPruned
  have boundaryPassed : passed.boundary = passedPruned.boundary :=
    (findCycle_same look).trans (boundary.trans (findCycle_same lookPruned).symm)
  have stackPassed := (findCycle_spec look).1.defers.stack
  have stackPassedPruned := (findCycle_spec lookPruned).1.defers.stack
  cases found with
  | true =>
      simp only [if_true] at outcome
      rw [outcome]
      exact .reported rfl
  | false =>
      simp only [Bool.false_eq_true, if_false] at outcome outcomePruned
      have samePassed : passedPruned.search.stack = passed.search.stack :=
        stackPassedPruned.trans (stackOpened.symm.trans stackPassed.symm)
      rw [samePassed] at outcomePruned
      exact outcome.1.retreat_beside invariant.faithful.history.wellFormed outcomePruned.1
        (mirrorsPassed.completed frame.state) boundaryPassed rfl samePassed outcome.2
        outcomePruned.2

/-- A turn on an excursion. -/
theorem Strays.turned {frames : List Frame} (strays : plain.Strays origin (frame :: frames))
    (invariant : plain.Invariant run automaton initial root)
    (walkingOrigin : origin.Walking automaton initialPruned run.space)
    (walkPruned : retreat run.space config origin.search.stack origin = (.ok (), pruned))
    (stack : plain.search.stack = frames ++ origin.search.stack)
    (next : plain.search.next = some frame)
    (turns : Turns plain run.space config frame plainAfter) :
    Beside automaton initialPruned run.space config plainAfter pruned := by
  obtain ⟨_, _, _, unreported⟩ := invariant.faithful.coherent.pending next
  have marks := walkingOrigin.knows.pockets.marksPainted
  have isPocket := strays.pockets frame List.mem_cons_self
  have painted := strays.painted walkingOrigin List.mem_cons_self
  have systemClosed := (invariant.faithful.coherent.expanded painted).1
  obtain ⟨opened, passed, found, expand, coherent, enters, look, outcome⟩ :=
    invariant.turned next systemClosed turns
  cases found with
  | true =>
      simp only [if_true] at outcome
      rw [outcome]
      exact .reported rfl
  | false =>
      simp only [Bool.false_eq_true, if_false] at outcome
      obtain rfl : opened = plain.search.entered frame := by
        have isClosed : (plain.search.entered frame).product.isClosed frame.state = true := by
          rw [Search.isClosed_entered]
          exact (invariant.closed unreported frame.state).2 painted
        rw [Search.expandOnce, if_pos isClosed] at expand
        exact (Except.ok.inj expand).symm
      have touches : plain.search.Touches (plain.search.entered frame) :=
        ⟨rfl, rfl, rfl, plain.search.sameShape_entered frame⟩
      have mirrorsEntered : ({ plain with search := plain.search.entered frame } :
          BoundedSearch).Mirrors origin :=
        strays.mirrors.repainted marks touches rfl (fun _ => id) isPocket enters.colour
      have defers := (findCycle_spec look).1.defers
      have straysPassed : (passed.completed frame.state).Strays origin (frame :: frames) :=
        { mirrors := (mirrorsEntered.plain_defers defers).plain_completed frame.state
          boundary := (findCycle_same look).trans strays.boundary
          pockets := strays.pockets
          moved := strays.moved }
      have onTop : passed.search.stack = frame :: frames ++ origin.search.stack := by
        rw [defers.stack, List.cons_append, ← stack]
        rfl
      rw [onTop] at outcome
      exact outcome.1.retreat_away invariant.faithful.history.wellFormed walkingOrigin straysPassed
        onTop outcome.2 walkPruned

end Turn

end BoundedSearch

end OnTheFly
