import OnTheFly.Proofs.Automaton.Builder
import OnTheFly.Proofs.ModelCheck.Bounded.Crossings
import OnTheFly.Proofs.ModelCheck.Colours

/-!
Contract: automata that are built call by call, and searches with them.

Owns: which calls are accepted, what automaton they make, and that a search
with an accepted automaton finds every location that it looks up.

A search looks up the locations of its product states. They come from the
initial location and from targets of transitions, so they are found if those
are, and this is what the checks on a draft make sure of.
-/

set_option autoImplicit false

namespace OnTheFly

variable {R : RuleSystem} {A : Type} [Acceptor R A]

theorem LtlSearch.driven_placed {G : Type} [Chooser G] {begun run : Exploration R A}
    {ltl after : LtlSearch G} {automaton : Automaton} (history : begun.space.HasHistory)
    (contained : begun.space.contains begun.start = true)
    (installed : ltl.search.automaton = some automaton) (located : automaton.Located)
    (driven : Driven ltl begun after run) :
    ∃ initial, after.Invariant run automaton initial (begun.start, automaton.initial) ∧
      after.search.Placed automaton := by
  induction driven with
  | prepared prepare =>
      obtain ⟨prepared, rfl⟩ := strategy_prepare.1 prepare
      obtain ⟨initial, pristine, invariant⟩ :=
        prepare_invariant history contained installed prepared
      exact ⟨initial, invariant, pristine.placed located invariant.faithful.rooted⟩
  | stepped _ step _ inductionHypothesis =>
      obtain ⟨initial, invariant, placed⟩ := inductionHypothesis
      obtain ⟨_, invariantAfter, placedAfter, _⟩ :=
        doNext_recolours located invariant placed step
      exact ⟨initial, invariantAfter, placedAfter⟩
  | observed progress stopRequested _ inductionHypothesis =>
      obtain ⟨initial, invariant, placed⟩ := inductionHypothesis
      exact ⟨initial, { invariant with faithful := { invariant.faithful with } }, placed⟩

/-- Whether no search with an automaton fails to find a location, whatever the
rules, the history of the state space, the start state, the choices and the
boundary: all product states have a location of the automaton, and the next
step does not miss one. -/
structure Automaton.Searchable (automaton : Automaton) : Prop where
  plain {R : RuleSystem} {A G : Type} [Acceptor R A] [Chooser G] {begun run : Exploration R A}
    {ltl after : LtlSearch G} : begun.space.HasHistory →
    begun.space.contains begun.start = true → ltl.search.automaton = some automaton →
    Driven ltl begun after run →
      after.search.Placed automaton ∧
        (Strategy.doNext after run).1 ≠ .error (.breach .missingLocation)
  bounded {R : RuleSystem} {A : Type} [Acceptor R A] {begun run : Exploration R A}
    {bounded after : BoundedSearch} : begun.space.HasHistory →
    begun.space.contains begun.start = true → bounded.search.automaton = some automaton →
    Driven bounded begun after run →
      after.search.Placed automaton ∧
        (Strategy.doNext after run).1 ≠ .error (.breach .missingLocation)

theorem Automaton.Located.searchable {automaton : Automaton} (located : automaton.Located) :
    automaton.Searchable where
  plain := by
    intro R A G _ _ begun run ltl after history contained installed driven
    obtain ⟨initial, invariant, placed⟩ :=
      LtlSearch.driven_placed history contained installed located driven
    obtain ⟨unbroken, _⟩ := LtlSearch.doNext_recolours located invariant placed rfl
    exact ⟨placed, unbroken .missingLocation⟩
  bounded := by
    intro R A _ begun run bounded after history contained installed driven
    obtain ⟨initial, measured⟩ :=
      BoundedSearch.driven_measured history contained installed located driven
    refine ⟨measured.steady.placed, fun missing => ?_⟩
    obtain ⟨isOverflow, _⟩ := (measured.accounts located).unbroken .missingLocation missing
    cases isOverflow

/-- Calls build an automaton exactly if nothing is wrong with what they say
together. It is then the one that they describe, and no search with it fails to
find a location. -/
theorem build_accepts_well_formed (calls : List Draft.Call) :
    ((∃ automaton, (Draft.ofCalls calls).build = .ok automaton) ↔
        (Draft.recorded calls).Acceptable) ∧
      ∀ automaton, (Draft.ofCalls calls).build = .ok automaton →
        (Draft.recorded calls).Describes automaton ∧ automaton.Searchable := by
  rw [Draft.ofCalls_eq_recorded]
  refine ⟨Draft.exists_build_iff, fun automaton built => ?_⟩
  have describes := Draft.describes_of_build built
  exact ⟨describes, describes.toLocated.searchable⟩

/-- Calls in an order in which names are given before they are declared. -/
def returnCalls : List Draft.Call :=
  [.initial "seen", .transition "wait" .always "wait", .location "wait" false,
    .transition "wait" (Guard.always.require "return") "seen", .location "seen" true,
    .transition "seen" .always "seen", .initial "wait"]

/-- The bounded search of the fork finds all locations up to the end. -/
theorem returnCalls_well_formed :
    (Draft.ofCalls returnCalls).build = .ok returnAutomaton ∧
      (Draft.recorded returnCalls).Acceptable ∧
      (Draft.recorded returnCalls).Describes returnAutomaton ∧
      forkPocket.strategy.search.path.map forkPocket.strategy.search.product.location =
        [⟨0⟩, ⟨0⟩, ⟨1⟩, ⟨1⟩] ∧
      forkPocket.strategy.search.Placed returnAutomaton := by
  have built : (Draft.ofCalls returnCalls).build = .ok returnAutomaton := by decide +kernel
  obtain ⟨accepts, makes⟩ := build_accepts_well_formed returnCalls
  obtain ⟨describes, searchable⟩ := makes returnAutomaton built
  have ended : forkPocket.ending = .ended .accepted 6 := by decide +kernel
  have driven : Driven (BoundedSearch.create returnAutomaton (Boundary.ruleSet ["leave"]) true)
      forkRun forkPocket.strategy forkPocket.run :=
    (playRun_driven_of_ended ⟨_, _, rfl⟩ ended).1
  have history : forkRun.space.HasHistory := ⟨{}, .single (.drain _)⟩
  exact ⟨built, accepts.1 ⟨_, built⟩, describes, by decide +kernel,
    (searchable.bounded history (by decide +kernel) rfl driven).1⟩

end OnTheFly
