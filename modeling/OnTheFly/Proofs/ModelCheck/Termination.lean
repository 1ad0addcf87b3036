import Mathlib.Data.Set.Card
import Mathlib.Data.Set.Card.Arithmetic
import OnTheFly.Proofs.Automaton.Draft
import OnTheFly.Proofs.Exploration.Steps
import OnTheFly.Proofs.ModelCheck.Ltl

/-!
Contract: the plain search comes to an end.

Owns: that a step of the plain search succeeds if every application of a rule
does, that it explores one more pair of a graph and a location, and hence that
a run over finitely many graphs has at most as many steps as there are pairs.
-/

set_option autoImplicit false

namespace OnTheFly

variable {R : RuleSystem}

theorem Synchronous.target_location {space : StateSpace R} {automaton : Automaton}
    {source target : ProductPoint} {via : Option TransitionId} (located : automaton.Located)
    (step : Synchronous space automaton source via target) :
    ∃ location, automaton.location? target.2 = some location := by
  cases step with
  | move here leaves => exact located.target here leaves
  | stay here leaves => exact located.target here leaves

/-- Whether the locations of all product states exist. -/
def Search.Placed (search : Search) (automaton : Automaton) : Prop :=
  ∀ state entry, search.product.state? state = some entry →
    ∃ location, automaton.location? entry.location = some location

theorem Search.Placed.location {search : Search} {automaton : Automaton}
    (placed : search.Placed automaton) {state : ProductStateId} {entry : ProductState}
    (present : search.product.state? state = some entry) :
    ∃ location, automaton.location? (search.product.location state) = some location := by
  have found := placed state entry present
  simpa [Product.location, present] using found

theorem Search.Placed.opened {search : Search} {automaton : Automaton}
    (placed : search.Placed automaton) (located : automaton.Located) {space : StateSpace R}
    {frame : Frame} {location : Location}
    (here : automaton.location? (search.product.location frame.state) = some location) :
    (search.opened space frame location).Placed automaton := by
  intro state entry present
  rcases Product.addSteps_pair present with ⟨middle, foundMiddle, _, samePlace⟩ |
    ⟨step, member, _, samePlace⟩
  · obtain ⟨before, foundBefore, _, samePlaceBefore, _⟩ :=
      (search.sameShape_entered frame).symm.state? foundMiddle
    rw [← samePlace, ← samePlaceBefore]
    exact placed state before foundBefore
  · rw [← samePlace]
    exact ((mem_productSteps_iff here step).1 member).target_location located

theorem Search.Placed.reshaped {search after : Search} {automaton : Automaton}
    (placed : search.Placed automaton)
    (shape : search.product.SameShape after.product) : after.Placed automaton := by
  intro state entry present
  obtain ⟨before, foundBefore, _, samePlace, _⟩ := shape.symm.state? present
  rw [← samePlace]
  exact placed state before foundBefore

theorem Search.Pristine.placed {search : Search} {automaton : Automaton} {initial : ProductStateId}
    {start : StateId} (pristine : search.Pristine initial) (located : automaton.Located)
    (rooted : search.product.point initial = (start, automaton.initial)) :
    search.Placed automaton := by
  intro state entry present
  have isInitial := pristine.alone present
  subst isInitial
  rw [Product.point_of_state? present, Prod.mk.injEq] at rooted
  rw [rooted.2]
  exact located.initial

namespace LtlSearch

/-- The pairs of a graph and a location that a search has explored. -/
def visited (search : Search) (space : StateSpace R) : Set (R.Graph × LocationId) :=
  { pair | ∃ state, search.round.isExplored (search.product.colour state) = true ∧
    space.graph? (search.product.systemState state) = some pair.1 ∧
    search.product.location state = pair.2 }

/-- All pairs that there are. -/
def possible (R : RuleSystem) (automaton : Automaton) : Set (R.Graph × LocationId) :=
  { graph | R.Reachable graph } ×ˢ
    { place | ∃ location, automaton.location? place = some location }

section

variable {automaton : Automaton}

theorem locations_eq_image :
    { place | ∃ location, automaton.location? place = some location } =
      LocationId.mk '' (Finset.range automaton.size : Set Nat) := by
  ext ⟨index⟩
  simp [Automaton.location?, Automaton.size, Array.getElem?_eq_some_iff]

theorem finite_possible (finite : { graph | R.Reachable graph }.Finite) :
    (possible R automaton).Finite := by
  refine finite.prod ?_
  rw [locations_eq_image]
  exact (Finset.finite_toSet _).image _

theorem ncard_possible : (possible R automaton).ncard =
    { graph | R.Reachable graph }.ncard * automaton.size := by
  have injective : Function.Injective LocationId.mk := fun _ _ same => by cases same; rfl
  rw [possible, Set.ncard_prod, locations_eq_image, Set.ncard_image_of_injective _ injective,
    Set.ncard_coe_finset, Finset.card_range]

end

section Step

variable {G A : Type} [Chooser G] [Acceptor R A] {automaton : Automaton}
  {initial : ProductStateId} {root : ProductPoint} {ltl : LtlSearch G} {run : Exploration R A}

omit [Chooser G] in
theorem visited_subset (invariant : ltl.Invariant run automaton initial root)
    (placed : ltl.search.Placed automaton) :
    visited ltl.search run.space ⊆ possible R automaton := by
  rintro ⟨graph, place⟩ ⟨state, explored, stored, here⟩
  obtain ⟨entry, present⟩ :=
    Product.present_of_colour (Search.painted_of_isExplored explored)
  refine ⟨invariant.faithful.history.wellFormed.reachable stored, ?_⟩
  rw [← here]
  exact placed.location present

/-- What a visit adds to the explored pairs is new, since no other product
state stands for the same graph and location. -/
theorem visited_grows {search opened after : Search} {space later : StateSpace R}
    {frame : Frame} (wellFormed : space.WellFormed) (kept : space.Extends later)
    (coherent : search.Coherent automaton initial space)
    (next : search.next = some frame) (enters : Search.Enters frame search opened)
    (touches : opened.Touches after)
    (explored : ∀ state, opened.round.isExplored (opened.product.colour state) = true →
      opened.round.isExplored (after.product.colour state) = true) :
    visited search space ⊆ visited after later ∧
      ∃ pair ∈ visited after later, pair ∉ visited search space := by
  obtain ⟨⟨entry, present⟩, unexplored, _⟩ := coherent.pending next
  have exploredAfter : ∀ {state},
      search.round.isExplored (search.product.colour state) = true ∨ state = frame.state →
      after.round.isExplored (after.product.colour state) = true := by
    intro state known
    rw [touches.round]
    exact explored state (enters.isExplored known)
  have point : ∀ {state entry}, search.product.state? state = some entry →
      after.product.point state = search.product.point state := by
    intro state entry present
    rw [touches.shape.point, enters.point present]
  obtain ⟨info, storedInfo⟩ := StateSpace.contains_iff.1 (coherent.contained present)
  have graph : space.graph? (search.product.systemState frame.state) = some info.graph := by
    refine StateSpace.graph?_eq_some.2 ⟨info, ?_, rfl⟩
    simpa [Product.systemState, present] using storedInfo
  refine ⟨?_, (info.graph, search.product.location frame.state), ?_, ?_⟩
  · rintro pair ⟨state, known, stored, here⟩
    obtain ⟨entry, present⟩ := Product.present_of_colour (Search.painted_of_isExplored known)
    have same := point present
    simp only [Product.point, Prod.mk.injEq] at same
    exact ⟨state, exploredAfter (.inl known), by rw [same.1]; exact kept.graph stored,
      same.2.trans here⟩
  · have same := point present
    simp only [Product.point, Prod.mk.injEq] at same
    exact ⟨frame.state, exploredAfter (.inr rfl), by rw [same.1]; exact kept.graph graph, same.2⟩
  · rintro ⟨state, known, stored, here⟩
    obtain ⟨other, presentOther⟩ :=
      Product.present_of_colour (Search.painted_of_isExplored known)
    have sameState : search.product.systemState state =
        search.product.systemState frame.state := wellFormed.stored_once stored graph
    have isFrame : state = frame.state :=
      coherent.arena.point_injective presentOther present (Prod.ext sameState here)
    rw [isFrame, unexplored] at known
    cases known

/-- Where all locations exist, a step meets no breach. -/
theorem doNext_unbroken (invariant : ltl.Invariant run automaton initial root)
    (placed : ltl.search.Placed automaton) (breach : Breach) :
    (ltl.doNext run).1 ≠ .error (.breach breach) := by
  have coherent := invariant.faithful.coherent
  unfold doNext
  split
  · simp
  · rename_i frame next
    obtain ⟨⟨entry, present⟩, _⟩ := coherent.pending next
    obtain ⟨location, here⟩ := placed.location present
    have unbroken : (run.closeState (ltl.search.product.systemState frame.state)).1 ≠
        .error (.breach breach) := Exploration.closeState_unbroken invariant.faithful.history breach
    simp only [coherent.enter_eq next]
    split
    · rename_i failure closing closed
      rw [closed] at unbroken
      simpa using unbroken
    · rename_i applied closing closed
      have expand : (ltl.search.entered frame).expand closing.space frame.state =
          .ok (ltl.search.opened closing.space frame location) :=
        (Search.expand_entered coherent.installed).2 ⟨location, here, rfl⟩
      simp [Exploration.track, expand]

/-- If every application succeeds, so does a step that has something to do, and
it explores one more pair. -/
theorem doNext_visits (located : automaton.Located) (succeeds : R.Succeeds run.space.engine)
    (invariant : ltl.Invariant run automaton initial root)
    (placed : ltl.search.Placed automaton) {frame : Frame}
    (next : ltl.search.next = some frame) :
    ∃ state after later, ltl.doNext run = (.ok state, after, later) ∧
      after.Invariant later automaton initial root ∧ after.search.Placed automaton ∧
      R.Succeeds later.space.engine ∧
      visited ltl.search run.space ⊆ visited after.search later.space ∧
      ∃ pair ∈ visited after.search later.space, pair ∉ visited ltl.search run.space := by
  have coherent := invariant.faithful.coherent
  have wellFormed := invariant.faithful.history.wellFormed
  obtain ⟨applied, ok⟩ := (Exploration.closeState_closes invariant.faithful.history
    (coherent.contains_next next)).2 succeeds
  have unbroken := doNext_unbroken invariant placed
  cases step : ltl.doNext run with
  | mk result rest =>
      obtain ⟨after, later⟩ := rest
      rw [step] at unbroken
      cases doNext_move coherent step unbroken with
      | rest stopped =>
          rw [next] at stopped
          cases stopped
      | refuse other closed =>
          rw [next] at other
          cases other
          rw [closed] at ok
          cases ok
      | visit other closed here opens explores =>
          rw [next] at other
          cases other
          obtain ⟨invariantAfter, evolves, engine, enters, touches, explored⟩ :=
            invariant.visit next closed here opens explores
          refine ⟨_, after, later, rfl, invariantAfter, ?_, succeeds.after engine, ?_⟩
          · subst opens
            exact (placed.opened located here).reshaped touches.shape
          · exact visited_grows wellFormed (evolves.continues wellFormed).kept coherent next
              enters touches explored

omit [Chooser G] in
/-- There are no more explored pairs than pairs. -/
theorem ncard_visited_le (finite : { graph | R.Reachable graph }.Finite)
    (invariant : ltl.Invariant run automaton initial root)
    (placed : ltl.search.Placed automaton) :
    (visited ltl.search run.space).ncard ≤
      { graph | R.Reachable graph }.ncard * automaton.size := by
  rw [← ncard_possible]
  exact Set.ncard_le_ncard (visited_subset invariant placed) (finite_possible finite)

theorem doNext_config (ltl : LtlSearch G) (run : Exploration R A) :
    (ltl.doNext run).2.2.config = run.config := by
  unfold doNext
  split
  · rfl
  · rename_i frame _
    have config := (Exploration.advances_closeState run
      (ltl.search.product.systemState frame.state)).config
    simp only
    split <;> rename_i closed <;> rw [closed] at config
    · exact config
    split
    · exact config
    split
    · exact config
    · unfold explore
      split <;> exact config

end Step

/-! ## Whole runs -/

section Run

variable {G A : Type} [Chooser G] [Acceptor R A] {automaton : Automaton} {ltl after : LtlSearch G}
  {run now : Exploration R A} {trail : List (LtlSearch G × StateId)}

/-- What is known of a plain search after the steps of a trail. Each of them
has explored another pair. -/
structure Underway (trail : List (LtlSearch G × StateId)) (ltl : LtlSearch G)
    (run : Exploration R A) (automaton : Automaton) (initial : ProductStateId)
    (root : ProductPoint) : Prop where
  invariant : ltl.Invariant run automaton initial root
  placed : ltl.search.Placed automaton
  succeeds : R.Succeeds run.space.engine
  explored : trail.length ≤ (visited ltl.search run.space).ncard

/-- A step with something to do succeeds. -/
theorem Underway.doNext {initial : ProductStateId} {root : ProductPoint}
    (underway : Underway trail ltl run automaton initial root) (located : automaton.Located)
    (finite : { graph | R.Reachable graph }.Finite) {frame : Frame}
    (next : ltl.search.next = some frame) :
    ∃ state after later, ltl.doNext run = (.ok state, after, later) ∧
      Underway (trail ++ [(ltl, state)]) after later automaton initial root := by
  obtain ⟨state, after, later, step, invariant, placed, succeeds, kept, pair, isNew, wasNot⟩ :=
    doNext_visits located underway.succeeds underway.invariant underway.placed next
  have fewer : (visited ltl.search run.space).ncard < (visited after.search later.space).ncard :=
    Set.ncard_lt_ncard (Set.ssubset_iff_exists.2 ⟨kept, pair, isNew, wasNot⟩)
      ((finite_possible finite).subset (visited_subset invariant placed))
  refine ⟨state, after, later, step, invariant, placed, succeeds, ?_⟩
  rw [List.length_append]
  exact Nat.lt_of_le_of_lt underway.explored fewer

theorem made_underway (located : automaton.Located) (succeeds : R.Succeeds run.space.engine)
    (finite : { graph | R.Reachable graph }.Finite) (history : run.space.HasHistory)
    (contained : run.space.contains run.start = true)
    (installed : ltl.search.automaton = some automaton) (made : Made ltl run trail after now) :
    now.config = run.config ∧
      ∃ initial, Underway trail after now automaton initial (run.start, automaton.initial) := by
  induction made with
  | prepared prepare =>
      obtain ⟨ok, rfl⟩ := strategy_prepare.1 prepare
      obtain ⟨initial, pristine, invariant⟩ := prepare_invariant history contained installed ok
      exact ⟨rfl, initial, invariant, pristine.placed located invariant.faithful.rooted, succeeds,
        Nat.zero_le _⟩
  | @stepped _ current _ now _ _ _ more step inductionHypothesis =>
      obtain ⟨config, initial, underway⟩ := inductionHypothesis
      obtain ⟨frame, next⟩ := Option.isSome_iff_exists.1 more
      obtain ⟨_, _, _, answer, underwayAfter⟩ := underway.doNext located finite next
      have sameConfig := current.doNext_config now
      cases answer.symm.trans step
      rw [answer] at sameConfig
      exact ⟨sameConfig.trans config, initial, underwayAfter⟩
  | observed change _ inductionHypothesis =>
      obtain ⟨config, initial, underway⟩ := inductionHypothesis
      exact ⟨config, initial, { underway with
        invariant := { underway.invariant with
          faithful := { underway.invariant.faithful with } } }⟩

end Run

end LtlSearch

end OnTheFly
