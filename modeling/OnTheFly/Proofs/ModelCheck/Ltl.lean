import OnTheFly.ModelCheck.Ltl
import OnTheFly.Proofs.Exploration.Driven
import OnTheFly.Proofs.ModelCheck.Lasso

/-!
Contract: the plain search, step by step.

Owns: what one step of the plain search can do, and what the search knows of
the states that it has left: all their transitions have been followed, and no
infinite sequence of covered transitions leaves them.
-/

set_option autoImplicit false

namespace OnTheFly

/-! ## Choices -/

namespace Chooser

variable {G : Type} [Chooser G] {Candidate : Type}

theorem mem_of_chooseAfter {seen : Nat} {chosen : Option Candidate} {candidates : List Candidate}
    {chooser : G} {candidate : Candidate}
    (choice : (chooseAfter seen chosen candidates chooser).1 = some candidate) :
    candidate ∈ candidates ∨ chosen = some candidate := by
  induction candidates generalizing seen chosen chooser with
  | nil => exact .inr choice
  | cons first rest inductionHypothesis =>
      rcases inductionHypothesis choice with later | before
      · exact .inl (List.mem_cons_of_mem first later)
      · split at before
        · cases before
          exact .inl List.mem_cons_self
        · exact .inr before

theorem chooseAfter_isSome (seen : Nat) (chosen : Option Candidate) (candidates : List Candidate)
    (chooser : G) (some_ : chosen.isSome = true) :
    (chooseAfter seen chosen candidates chooser).1.isSome = true := by
  induction candidates generalizing seen chosen chooser with
  | nil => exact some_
  | cons first rest inductionHypothesis =>
      apply inductionHypothesis
      split
      · rfl
      · exact some_

theorem mem_of_choose {candidates : List Candidate} {chooser : G} {candidate : Candidate}
    (choice : (choose candidates chooser).1 = some candidate) : candidate ∈ candidates := by
  rcases mem_of_chooseAfter choice with member | none_
  · exact member
  · cases none_

/-- There is a choice unless there is nothing to choose from: the first
candidate is taken for the time being, whatever the number below one is. -/
theorem eq_nil_of_choose {candidates : List Candidate} {chooser : G}
    (choice : (choose candidates chooser).1 = none) : candidates = [] := by
  cases candidates with
  | nil => rfl
  | cons first rest =>
      have zero : (below (0 + 1) chooser).1 = 0 := by
        have bound := below_lt (0 + 1) chooser (by omega)
        omega
      have taken := chooseAfter_isSome (0 + 1)
        (if (below (0 + 1) chooser).1 = 0 then some first else none) rest
        (below (0 + 1) chooser).2 (by simp [zero])
      unfold choose chooseAfter at choice
      rw [choice] at taken
      cases taken

end Chooser

/-- The chooser that takes the last candidate, whatever the seed. -/
structure LastChoice where

instance : Chooser LastChoice where
  seeded _ := {}
  below _ chooser := (0, chooser)
  below_lt _ _ positive := positive

namespace LtlSearch

variable {R : RuleSystem} {G A : Type} [Chooser G] [Acceptor R A]

/-! ## Walking back -/

theorem mem_candidates {search : Search} {state : ProductStateId} {transition : ProductTransition} :
    transition ∈ candidates search state ↔
      (∃ handle, (handle, transition) ∈ search.product.outgoing state) ∧
        search.round.isExplored (search.product.colour transition.target) = false := by
  simp [candidates]

/-- What a search without counterexample knows between two moves. -/
structure Searching (search : Search) (automaton : Automaton) (initial : ProductStateId)
    (space : StateSpace R) : Prop where
  coherent : search.Coherent automaton initial space
  examined : search.Examined automaton space [] fun _ => False
  unreported : search.counterExample = none
  /-- There is one round only. -/
  once {state : ProductStateId} : search.product.colour state ≠ .unpainted →
    search.round.isExplored (search.product.colour state) = true

section Retreat

variable {automaton : Automaton} {initial : ProductStateId} {space : StateSpace R}

/-- Once all its successors are explored, the top frame is left. -/
theorem Searching.left {search after : Search}
    (searching : Searching search automaton initial space)
    (wellFormed : space.WellFormed) (touches : search.Touches after) {top : Frame}
    (stack : search.stack = top :: after.stack) (next : after.next = none)
    (unreported : after.counterExample = search.counterExample)
    (colour : ∀ state, after.product.colour state =
      if state = top.state then search.round.blue else search.product.colour state)
    (nothing : candidates search top.state = []) :
    Searching after automaton initial space where
  coherent := searching.coherent.left touches stack (by simp : Paint.blue ≠ .cyan) colour next
  examined := by
    refine searching.examined.left searching.coherent wellFormed touches stack colour ?_
      (fun _ => False.elim) (fun _ => False.elim)
    rintro _ _ ⟨handle, transition, member, rfl⟩
    left
    by_contra unexplored
    have candidate : transition ∈ candidates search top.state :=
      mem_candidates.2 ⟨⟨handle, member⟩, by simpa using unexplored⟩
    simp [nothing] at candidate
  unreported := unreported.trans searching.unreported
  once := by
    intro state painted
    rw [colour] at painted
    rw [touches.round, colour]
    split
    · exact Round.isExplored_iff.2 ⟨.blue, rfl⟩
    · rename_i other
      rw [if_neg other] at painted
      exact searching.once painted

/-- Walking back leaves frames, and ends at a state to enter or at an empty
stack. -/
theorem retreat_searching (stack : List Frame) (ltl : LtlSearch G)
    (wellFormed : space.WellFormed)
    (searching : Searching { ltl.search with stack := stack, next := none } automaton initial
      space) :
    Searching (retreat stack ltl).search automaton initial space ∧
      ltl.search.Touches (retreat stack ltl).search ∧
      ((retreat stack ltl).search.next = none → (retreat stack ltl).search.stack = []) ∧
      ∀ state, ltl.search.round.isExplored (ltl.search.product.colour state) = true →
        ltl.search.round.isExplored ((retreat stack ltl).search.product.colour state) = true := by
  induction stack generalizing ltl with
  | nil => exact ⟨searching, ⟨rfl, rfl, rfl, .refl _⟩, fun _ => rfl, fun _ => id⟩
  | cons top rest inductionHypothesis =>
      unfold retreat
      split
      · rename_i transition chooser choice
        obtain ⟨⟨handle, member⟩, unexplored⟩ :=
          mem_candidates.1 (Chooser.mem_of_choose (congrArg Prod.fst choice))
        have chosen := searching.coherent.chosen searching.unreported
          { state := transition.target, via := transition.via } rfl
          ⟨handle, transition, member, rfl⟩ unexplored
        refine ⟨⟨chosen, ?_, searching.unreported, searching.once⟩, ⟨rfl, rfl, rfl, .refl _⟩, ?_,
          fun _ => id⟩
        · exact searching.examined.marked ⟨rfl, rfl, rfl, .refl _⟩ rfl rfl fun _ => id
        · intro stopped
          cases stopped
      · rename_i chooser choice
        have nothing : candidates ltl.search top.state = [] :=
          Chooser.eq_nil_of_choose (congrArg Prod.fst choice)
        have painted := searching.coherent.painted_of_mem List.mem_cons_self
        obtain ⟨entry, present⟩ := Product.present_of_colour painted
        obtain ⟨product, closes, shape, colour, _⟩ :=
          Product.close_spec present ltl.search.round.blue
        rw [closes]
        have left : Searching { ltl.search with product := product, stack := rest, next := none }
            automaton initial space :=
          searching.left wellFormed ⟨rfl, rfl, rfl, shape⟩ rfl rfl rfl colour nothing
        obtain ⟨after, touches, stops, explored⟩ :=
          inductionHypothesis ⟨{ ltl.search with product := product }, chooser⟩ left
        refine ⟨after, ⟨touches.automaton, touches.initial, touches.round,
          shape.trans touches.shape⟩, stops, fun state before => explored state ?_⟩
        change ltl.search.round.isExplored (product.colour state) = true
        rw [colour]
        split
        · exact Round.isExplored_iff.2 ⟨.blue, rfl⟩
        · exact before

end Retreat

/-! ## One step -/

/-- What a step can do, breaches apart. -/
inductive Move (automaton : Automaton) (ltl : LtlSearch G) (run : Exploration R A) :
    Except Failure StateId → LtlSearch G → Exploration R A → Prop where
  | rest (stopped : ltl.search.next = none) : Move automaton ltl run (.ok run.start) ltl run
  | refuse {frame : Frame} {failure : Failure} {closing : Exploration R A}
      (next : ltl.search.next = some frame)
      (closed : run.closeState (ltl.search.product.systemState frame.state) =
        (.error failure, closing)) :
      Move automaton ltl run (.error failure) ltl closing
  | visit {frame : Frame} {applied : List Applied} {closing : Exploration R A}
      {location : Location} {opened : Search} {after : LtlSearch G} {later : Exploration R A}
      (next : ltl.search.next = some frame)
      (closed : run.closeState (ltl.search.product.systemState frame.state) =
        (.ok applied, closing))
      (here : automaton.location? (ltl.search.product.location frame.state) = some location)
      (opens : opened = ltl.search.opened closing.space frame location)
      (explores : explore { ltl with search := opened }
        (closing.track ({ · with stackDepth := opened.stack.length })) frame.state =
          (after, later)) :
      Move automaton ltl run (.ok (ltl.search.product.systemState frame.state)) after later

section Step

variable {automaton : Automaton} {initial : ProductStateId} {root : ProductPoint}
  {ltl after : LtlSearch G} {run later : Exploration R A} {result : Except Failure StateId}

theorem doNext_move (coherent : ltl.search.Coherent automaton initial run.space)
    (step : ltl.doNext run = (result, after, later))
    (unbroken : ∀ breach, result ≠ .error (.breach breach)) :
    Move automaton ltl run result after later := by
  unfold doNext at step
  split at step
  · rename_i stopped
    cases step
    exact .rest stopped
  · rename_i frame next
    rw [coherent.enter_eq next] at step
    simp only at step
    split at step
    · rename_i failure closing closed
      cases step
      exact .refuse next closed
    · rename_i applied closing closed
      split at step
      · rename_i breach _
        cases step
        exact absurd rfl (unbroken breach)
      · rename_i opened expand
        obtain ⟨location, here, opens⟩ := (Search.expand_entered coherent.installed).1 expand
        have stack : (ltl.search.entered frame).stack = opened.stack := by
          rw [opens]
          rfl
        rw [stack, Prod.mk.injEq] at step
        obtain ⟨rfl, explores⟩ := step
        exact .visit next closed here opens explores

/-- The invariant of the plain search in a run from `root`. -/
structure Invariant (ltl : LtlSearch G) (run : Exploration R A) (automaton : Automaton)
    (initial : ProductStateId) (root : ProductPoint) : Prop where
  faithful : ltl.search.Faithful run automaton initial root
  searching : ltl.search.counterExample = none →
    Searching ltl.search automaton initial run.space
  begun : ltl.search.counterExample = none →
    ltl.search.round.isExplored (ltl.search.product.colour initial) = true ∨
      ∃ frame, ltl.search.next = some frame ∧ frame.state = initial
  resting : ltl.search.counterExample = none → ltl.search.next = none → ltl.search.stack = []

omit [Chooser G] in
theorem Searching.evolves {search : Search} {space later : StateSpace R}
    (searching : Searching search automaton initial space) (wellFormed : space.WellFormed)
    (evolved : space.Evolves later) : Searching search automaton initial later :=
  { searching with
    coherent := searching.coherent.evolves wellFormed (evolved.continues wellFormed).kept
    examined := searching.examined.evolves evolved }

/-- An entered frame is reported or examined, after which the search walks
back. -/
theorem explore_invariant {search opened : Search} {frame : Frame}
    (searching : Searching search automaton initial run.space)
    (enters : Search.Enters frame search opened)
    (faithful : opened.Faithful run automaton initial root)
    (begun : search.round.isExplored (search.product.colour initial) = true ∨
      frame.state = initial)
    {chooser : G} (explores : explore ⟨opened, chooser⟩ run frame.state = (after, later)) :
    after.Invariant later automaton initial root ∧ later.space = run.space ∧
      opened.Touches after.search ∧
      ∀ state, opened.round.isExplored (opened.product.colour state) = true →
        opened.round.isExplored (after.search.product.colour state) = true := by
  have coherent := faithful.coherent
  have unreported : opened.counterExample = none :=
    enters.counterExample.trans searching.unreported
  unfold explore at explores
  split at explores
  · rename_i found
    cases explores
    obtain ⟨handle, memberOut, closes⟩ := List.any_eq_true.1 found
    obtain ⟨entry, present, memberEntry⟩ := Product.mem_out.1 memberOut
    obtain ⟨transition, foundTransition, _⟩ := coherent.arena.out_valid present memberEntry
    have loop := coherent.closesLoop enters.stack
      (Product.mem_outgoing.2 ⟨memberOut, foundTransition⟩) closes
    refine ⟨⟨faithful.report loop, ?_, ?_, ?_⟩, rfl, ⟨rfl, rfl, rfl, .refl _⟩, fun _ => id⟩
    · intro none_
      cases none_
    · intro none_
      cases none_
    · intro none_
      cases none_
  · rename_i notFound
    cases explores
    have passed : ∀ handle transition, (handle, transition) ∈ opened.product.outgoing frame.state →
        handle ∈ ([] : List ProductTransitionId) ∨ opened.closesCycle handle = false := by
      intro handle transition member
      right
      by_contra closes
      exact notFound (List.any_eq_true.2
        ⟨handle, (Product.mem_outgoing.1 member).1, by simpa using closes⟩)
    have searchingOpened : Searching { opened with stack := opened.stack, next := none } automaton
        initial run.space := by
      have resting : { opened with stack := opened.stack, next := none } = opened := by
        rw [← enters.next]
      rw [resting]
      refine ⟨coherent, ?_, unreported, ?_⟩
      · exact searching.examined.entered searching.coherent enters coherent (fun _ => id) passed
      · intro state painted
        by_cases isFrame : state = frame.state
        · exact enters.isExplored (.inr isFrame)
        · rw [enters.colour, if_neg isFrame] at painted
          exact enters.isExplored (.inl (searching.once painted))
    obtain ⟨searchingAfter, touches, stops, explored⟩ :=
      retreat_searching opened.stack ⟨opened, chooser⟩ faithful.history.wellFormed searchingOpened
    refine ⟨⟨?_, fun _ => searchingAfter, fun _ => .inl ?_, fun _ => stops⟩, rfl, touches,
      explored⟩
    · exact faithful.reshaped touches.shape searchingAfter.coherent searchingAfter.unreported
    · rw [touches.round]
      exact explored initial (enters.isExplored (begun.imp_right Eq.symm))

omit [Chooser G] in
/-- There is one round only, so what is entered next has never been painted. -/
theorem Invariant.unpainted_next (invariant : ltl.Invariant run automaton initial root)
    {frame : Frame} (next : ltl.search.next = some frame) :
    ltl.search.product.colour frame.state = .unpainted := by
  obtain ⟨_, unexplored, _, unreported⟩ := invariant.faithful.coherent.pending next
  by_contra painted
  rw [(invariant.searching unreported).once painted] at unexplored
  cases unexplored

/-- What a visit does to the search, whether or not it ends with a report. -/
theorem Invariant.visit {frame : Frame} {applied : List Applied} {closing : Exploration R A}
    {location : Location} {opened : Search}
    (invariant : ltl.Invariant run automaton initial root)
    (next : ltl.search.next = some frame)
    (closed : run.closeState (ltl.search.product.systemState frame.state) = (.ok applied, closing))
    (here : automaton.location? (ltl.search.product.location frame.state) = some location)
    (opens : opened = ltl.search.opened closing.space frame location)
    (explores : explore { ltl with search := opened }
      (closing.track ({ · with stackDepth := opened.stack.length })) frame.state =
        (after, later)) :
    after.Invariant later automaton initial root ∧ run.space.Evolves later.space ∧
      R.After run.space.engine later.space.engine ∧ Search.Enters frame ltl.search opened ∧
      opened.Touches after.search ∧
      ∀ state, opened.round.isExplored (opened.product.colour state) = true →
        opened.round.isExplored (after.search.product.colour state) = true := by
  obtain ⟨_, _, _, unreported⟩ := invariant.faithful.coherent.pending next
  have history := invariant.faithful.history
  have contained := invariant.faithful.coherent.contains_next next
  -- The system state is closed by now, and what was known of the search still holds.
  have advanced := Exploration.advances_closeState run
    (ltl.search.product.systemState frame.state)
  have systemClosed := (Exploration.closeState_closes history contained).1 applied
  rw [closed] at advanced systemClosed
  let visiting := closing.track ({ · with stackDepth := opened.stack.length })
  have faithful : ltl.search.Faithful visiting automaton initial root :=
    invariant.faithful.advances (advanced.trans (Exploration.advances_track closing _)) unreported
  have searching : Searching ltl.search automaton initial visiting.space :=
    (invariant.searching unreported).evolves history.wellFormed advanced.space
  have fresh := invariant.unpainted_next next
  have wellFormed := faithful.history.wellFormed
  have enters : Search.Enters frame ltl.search opened :=
    opens ▸ searching.coherent.enters_opened next fresh location
  have coherent : opened.Coherent automaton initial visiting.space :=
    opens ▸ searching.coherent.opened wellFormed next (systemClosed rfl) fresh here
  have begun := (invariant.begun unreported).imp_right fun ⟨first, isNext, isInitial⟩ => by
    rw [next] at isNext
    cases isNext
    exact isInitial
  obtain ⟨invariantAfter, sameSpace, touches, explored⟩ := explore_invariant searching enters
    (faithful.entered enters coherent unreported) begun explores
  rw [sameSpace]
  exact ⟨invariantAfter, advanced.space, advanced.engine, enters, touches, explored⟩

theorem Move.invariant (move : Move automaton ltl run result after later)
    (invariant : ltl.Invariant run automaton initial root) :
    after.Invariant later automaton initial root := by
  cases move with
  | rest => exact invariant
  | @refuse frame failure closing next closed =>
      obtain ⟨_, _, _, unreported⟩ := invariant.faithful.coherent.pending next
      have advanced := Exploration.advances_closeState run
        (ltl.search.product.systemState frame.state)
      rw [closed] at advanced
      refine ⟨invariant.faithful.advances advanced unreported, fun _ => ?_, invariant.begun,
        invariant.resting⟩
      exact (invariant.searching unreported).evolves invariant.faithful.history.wellFormed
        advanced.space
  | visit next closed here opens explores =>
      exact (invariant.visit next closed here opens explores).1

/-- A prepared search keeps the invariant. -/
theorem prepare_invariant {ready : LtlSearch G} (history : run.space.HasHistory)
    (contained : run.space.contains run.start = true)
    (installed : ltl.search.automaton = some automaton) (prepare : ltl.prepare run = .ok ready) :
    ∃ initial, ready.search.Pristine initial ∧
      ready.Invariant run automaton initial (run.start, automaton.initial) := by
  obtain ⟨search, initial, reset, pristine, coherent, rooted⟩ :=
    Search.reset_eq_ok installed contained
  unfold LtlSearch.prepare at prepare
  rw [reset] at prepare
  cases prepare
  obtain ⟨known, _⟩ := coherent.pending pristine.next
  refine ⟨initial, pristine, ⟨history, coherent, known, rooted, ?_⟩, fun _ => ?_, fun _ => ?_,
    fun _ _ => ?_⟩
  · intro states reported
    rw [pristine.counterExample] at reported
    cases reported
  · refine ⟨coherent, ⟨?_, ?_, ?_⟩, pristine.counterExample, ?_⟩
    · rw [Search.onStack_eq_nil pristine.stack]
      trivial
    · intro state target _ finished
      exact absurd (pristine.colour state) (Search.painted_of_isExplored finished.1)
    · intro state _ finished
      exact absurd (pristine.colour state) (Search.painted_of_isExplored finished.1)
    · intro state painted
      exact absurd (pristine.colour state) painted
  · exact .inr ⟨_, pristine.next, rfl⟩
  · exact pristine.stack

end Step

/-! ## Whole runs -/

section Run

variable {automaton : Automaton} {initial : ProductStateId} {root : ProductPoint}
  {ltl after : LtlSearch G} {run later : Exploration R A}

theorem strategy_prepare {ready : LtlSearch G} {opened : Exploration R A} :
    Strategy.prepare ltl run = (.ok (), ready, opened) ↔
      ltl.prepare run = .ok ready ∧ run = opened := by
  cases prepared : ltl.prepare run <;> simp [Strategy.prepare, prepared]

/-- A search with an automaton can be prepared for any run. -/
theorem prepare_of_installed (installed : ltl.search.automaton = some automaton)
    (run : Exploration R A) :
    ∃ ready, ltl.prepare run = .ok ready ∧
      Strategy.prepare ltl run = (.ok (), ready, run) := by
  have prepared : ∃ ready, ltl.prepare run = .ok ready := by
    unfold LtlSearch.prepare Search.reset
    rw [installed]
    exact ⟨_, rfl⟩
  obtain ⟨ready, ok⟩ := prepared
  exact ⟨ready, ok, strategy_prepare.2 ⟨ok, rfl⟩⟩

theorem driven_invariant (history : run.space.HasHistory)
    (contained : run.space.contains run.start = true)
    (installed : ltl.search.automaton = some automaton) (driven : Driven ltl run after later) :
    ∃ initial, after.Invariant later automaton initial (run.start, automaton.initial) := by
  induction driven with
  | prepared prepare =>
      obtain ⟨ok, rfl⟩ := strategy_prepare.1 prepare
      obtain ⟨initial, _, invariant⟩ := prepare_invariant history contained installed ok
      exact ⟨initial, invariant⟩
  | stepped _ step unbroken inductionHypothesis =>
      obtain ⟨initial, invariant⟩ := inductionHypothesis
      exact ⟨initial, (doNext_move invariant.faithful.coherent step unbroken).invariant invariant⟩
  | observed progress stopRequested _ inductionHypothesis =>
      obtain ⟨initial, invariant⟩ := inductionHypothesis
      exact ⟨initial, { invariant with faithful := { invariant.faithful with } }⟩

omit [Chooser G] in
/-- A search that has come to its end without a report has no covered cycle to
find, however the state space evolves. -/
theorem Invariant.no_covered_cycle (invariant : ltl.Invariant run automaton initial root)
    (stopped : ltl.search.next = none) (unreported : ltl.search.counterExample = none)
    {evolved : StateSpace R} (evolves : run.space.Evolves evolved) :
    ¬ HasCoveredCycle evolved automaton root := by
  have wellFormed := invariant.faithful.history.wellFormed
  have searching := invariant.searching unreported
  have stack := invariant.resting unreported stopped
  have empty := Search.onStack_eq_nil stack
  have first := Search.finished_of_begun stopped stack (invariant.begun unreported)
  rintro ⟨point, reached, cycle⟩
  rw [← invariant.faithful.rooted] at reached
  obtain ⟨state, finished, rfl⟩ := invariant.faithful.coherent.covers wellFormed
    (evolves.continues wellFormed).kept first
    (fun state finished => Search.painted_of_isExplored finished.1)
    (fun state target finished linked =>
      ⟨(searching.examined.followed rfl finished linked).resolve_right id, by simp [empty]⟩)
    reached
  exact (searching.examined.settled rfl finished evolved evolves).no_cycle cycle

end Run

end LtlSearch

end OnTheFly
