import OnTheFly.Proofs.ModelCheck.Soundness

/-!
Contract: what a bounded search that has run dry has covered.

Owns: that with nothing deferred the arena holds all of the product that can be
reached, each state with its transitions and its colour, and that no covered
cycle is left.
-/

set_option autoImplicit false

namespace OnTheFly

variable {R : RuleSystem} {A : Type} [Acceptor R A]

/-- What a search with nothing left to do holds of a point of the product. -/
structure Covered (bounded : BoundedSearch) (run : Exploration R A) (automaton : Automaton)
    (later : StateSpace R) (point : ProductPoint) (state : ProductStateId) : Prop where
  found : bounded.search.product.find? point.1 point.2 = some state
  closed : bounded.search.product.isClosed state = true
  systemClosed : run.space.isClosed point.1 = true
  complete : ∃ location, automaton.location? point.2 = some location ∧
    bounded.search.product.steps state = productSteps later point.1 location
  transitions (via : Option TransitionId) (target : ProductPoint) :
    Synchronous later automaton point via target ↔
      ∃ handle transition, (handle, transition) ∈ bounded.search.product.outgoing state ∧
        transition.via = via ∧ bounded.search.product.point transition.target = target
  colour : bounded.pocket = false → bounded.search.product.colour state =
    if automaton.isAccepting point.2 then bounded.search.round.red else bounded.search.round.blue

/-- The colour of a finished state says whether it accepts. -/
theorem BoundedSearch.Knows.colour_of_finished {bounded : BoundedSearch} {automaton : Automaton}
    {initial : ProductStateId} {space : StateSpace R}
    (knows : bounded.Knows automaton initial space) {state : ProductStateId}
    (finished : bounded.search.Finished state) :
    bounded.search.product.colour state =
      if automaton.isAccepting (bounded.search.product.location state) then
        bounded.search.round.red
      else bounded.search.round.blue := by
  obtain ⟨paint, painted⟩ := Round.isExplored_iff.1 finished.1
  have notCyan : paint ≠ .cyan := by
    rintro rfl
    exact finished.2 (knows.coherent.cyan_iff.1 painted)
  rw [painted, knows.accepts painted notCyan]
  split <;> rfl

/-- A search that has been at a painted state holds all that the product has
there, now and later. -/
theorem BoundedSearch.Invariant.covered {bounded : BoundedSearch} {run : Exploration R A}
    {automaton : Automaton} {initial : ProductStateId} {root : ProductPoint}
    {later : StateSpace R} (invariant : bounded.Invariant run automaton initial root)
    (unreported : bounded.search.counterExample = none) (evolves : run.space.Evolves later)
    {state : ProductStateId}
    (known : bounded.search.Finished state ∨ bounded.search.product.isPocket state = true) :
    Covered bounded run automaton later (bounded.search.product.point state) state := by
  have knows := invariant.knows unreported
  have wellFormed := invariant.faithful.history.wellFormed
  have kept := (evolves.continues wellFormed).kept
  have painted : bounded.search.product.colour state ≠ .unpainted := by
    rcases known with finished | isPocket
    · exact Search.painted_of_isExplored finished.1
    · exact knows.pockets.painted isPocket
  obtain ⟨entry, present⟩ := Product.present_of_colour painted
  obtain ⟨systemClosed, location, here, complete⟩ := knows.coherent.expanded painted
  constructor
  · rw [Product.point_of_state? present]
    exact knows.coherent.arena.find_iff.2 ⟨entry, present, rfl, rfl⟩
  · exact (invariant.closed unreported state).2 painted
  · exact systemClosed
  · refine ⟨location, here, ?_⟩
    rw [complete]
    exact (wellFormed.productSteps_of_closed kept systemClosed location).symm
  · intro via target
    rw [wellFormed.synchronous_of_closed kept systemClosed]
    exact knows.coherent.synchronous_iff painted
  · intro unpruned
    rcases known with finished | isPocket
    · exact knows.colour_of_finished finished
    · rw [knows.pockets.enabled isPocket] at unpruned
      cases unpruned

/-- When a bounded search has no next state, has reported nothing and has
nothing deferred, then every point of the product that can be reached from the
start state and the initial location is covered, and no covered cycle can be
reached. This holds with and without pocket pruning, for any boundary, and for
every way to make the steps. -/
theorem dry_search_covers_product {space : StateSpace R} {acceptor : A} {config : Config}
    {progress : Option Progress} {stopRequested : Bool} {start : StateId}
    {begun ended : Exploration R A} {bounded after : BoundedSearch} {automaton : Automaton}
    {later : StateSpace R} (history : space.HasHistory)
    (begins : Exploration.begin space acceptor config progress stopRequested start = .ok begun)
    (installed : bounded.search.automaton = some automaton)
    (driven : Driven bounded begun after ended)
    (dry : Strategy.hasNext R after = false)
    (unreported : after.search.counterExample = none) (nothing : after.deferred = [])
    (evolves : ended.space.Evolves later) :
    (∀ point, Reaches later automaton (start, automaton.initial) point →
        ∃ state, Covered after ended automaton later point state) ∧
      ¬ HasCoveredCycle later automaton (start, automaton.initial) := by
  obtain ⟨drained, contained, started⟩ := Exploration.begin_eq_ok begins
  have historyBegun : begun.space.HasHistory := drained ▸ history.evolves (.single (.drain space))
  obtain ⟨initial, invariant⟩ :=
    BoundedSearch.driven_invariant historyBegun contained installed driven
  rw [started] at invariant
  have stopped : after.search.next = none := by simpa [Strategy.hasNext] using dry
  have knows := invariant.knows unreported
  constructor
  · intro point reached
    obtain ⟨state, known, rfl⟩ :=
      invariant.reached stopped unreported nothing evolves reached
    exact ⟨state, invariant.covered unreported evolves known⟩
  · rintro ⟨point, reached, cycle⟩
    obtain ⟨state, known, rfl⟩ :=
      invariant.reached stopped unreported nothing evolves reached
    rcases known with finished | isPocket
    · exact (knows.examined.settled nothing finished later evolves).no_cycle cycle
    · exact (knows.pockets.settled isPocket later evolves).no_cycle cycle

/-- Accepts once, after it may have been possible to return. -/
def onceAutomaton : Automaton :=
  { locations := #[
      ⟨"wait", false, [⟨.always, ⟨0⟩⟩, ⟨Guard.always.require "return", ⟨1⟩⟩]⟩,
      ⟨"seen", true, [⟨.always, ⟨2⟩⟩]⟩,
      ⟨"done", false, [⟨.always, ⟨2⟩⟩]⟩]
    initial := ⟨0⟩ }

def forkDry (pocket : Bool) : Stretch forkSystem.rules BoundedSearch CounterExamples :=
  playRun 30 (BoundedSearch.create onceAutomaton (Boundary.ruleSet ["leave"]) pocket) forkRun

theorem forkDry_exhausted (pocket : Bool) :
    (forkDry pocket).ending = .ended .exhausted (if pocket then 16 else 21) ∧
      (forkDry pocket).strategy.iteration = 4 ∧
      (forkDry pocket).strategy.search.counterExample = none ∧
      (forkDry pocket).strategy.deferred = [] := by
  cases pocket <;> decide +kernel

/-- Every way back crosses the boundary, so the search takes four iterations to
come round the hub with every location. With pruning it is at the leaf only
once for each. -/
theorem forkSystem_covered :
    (StateSpace.create forkSystem.rules {}).HasHistory ∧
      ((∀ point, Reaches (forkDry true).run.space onceAutomaton (StateSpace.startState, ⟨0⟩) point →
          ∃ state, Covered (forkDry true).strategy (forkDry true).run onceAutomaton
            (forkDry true).run.space point state) ∧
        ¬ HasCoveredCycle (forkDry true).run.space onceAutomaton (StateSpace.startState, ⟨0⟩)) ∧
      (∀ point, Reaches (forkDry false).run.space onceAutomaton (StateSpace.startState, ⟨0⟩) point →
          ∃ state, Covered (forkDry false).strategy (forkDry false).run onceAutomaton
            (forkDry false).run.space point state) ∧
        ¬ HasCoveredCycle (forkDry false).run.space onceAutomaton
          (StateSpace.startState, ⟨0⟩) := by
  have history : (StateSpace.create forkSystem.rules {}).HasHistory := ⟨{}, .refl⟩
  obtain ⟨pocketEnding, _, pocketUnreported, pocketNothing⟩ := forkDry_exhausted true
  obtain ⟨pocketDriven, pocketStops⟩ := playRun_driven_of_ended ⟨_, _, rfl⟩ pocketEnding
  obtain ⟨plainEnding, _, plainUnreported, plainNothing⟩ := forkDry_exhausted false
  obtain ⟨plainDriven, plainStops⟩ := playRun_driven_of_ended ⟨_, _, rfl⟩ plainEnding
  exact ⟨history,
    dry_search_covers_product history forkRun_begins rfl pocketDriven (pocketStops rfl)
      pocketUnreported pocketNothing .refl,
    dry_search_covers_product history forkRun_begins rfl plainDriven (plainStops rfl)
      plainUnreported plainNothing .refl⟩

end OnTheFly
