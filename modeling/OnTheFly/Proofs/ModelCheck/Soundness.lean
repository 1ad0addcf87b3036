import OnTheFly.Acceptor.CounterExamples
import OnTheFly.Proofs.ModelCheck.Bounded.Run
import OnTheFly.Proofs.ModelCheck.Ltl
import OnTheFly.RuleSystem.Labelled
import OnTheFly.StateSpace.Start

/-!
Contract: a counterexample is a run that the automaton accepts.

Owns: the statement of soundness, for the plain and the bounded search and for
every way to make their steps.
-/

set_option autoImplicit false

namespace OnTheFly

open Search

variable {R : RuleSystem} {A : Type} [Acceptor R A]

/-- What a search has to show for the path that it reports. The points behind
the path are a lasso of the product from the start state and the initial
location. Their system states are closed, so that they are a lasso of every
later state space too. Going round it for ever, from position `back` on, is a
run of the product that visits accepting locations infinitely often. The
acceptor was told of this path. -/
structure Justified (run : Exploration R A) (automaton : Automaton) (start : StateId)
    (points : List ProductPoint) (path : List StateId) : Prop where
  states : path = points.map Prod.fst
  closed : ∀ state ∈ path, run.space.isClosed state = true
  lasso : ∃ back,
    (∀ later, run.space.Evolves later →
      IsLasso later automaton (start, automaton.initial) points back) ∧
    ∃ visit : Nat → ProductPoint,
      (∀ steps, points[turn points.length back steps]? = some (visit steps)) ∧
        visit 0 = (start, automaton.initial) ∧
        (∀ steps, Successor run.space automaton (visit steps) (visit (steps + 1))) ∧
        ∀ steps, ∃ later, steps ≤ later ∧ automaton.isAccepting (visit later).2 = true
  told : ∃ before, run.acceptor = Acceptor.addCounterExample (R := R) path before

theorem Search.Faithful.justified {search : Search} {run : Exploration R A}
    {automaton : Automaton} {initial : ProductStateId} {start : StateId} {path : List StateId}
    (faithful : search.Faithful run automaton initial (start, automaton.initial))
    (reported : search.counterExample = some path) :
    Justified run automaton start (search.path.map search.product.point) path where
  states := by
    rw [(faithful.reported reported).1, List.map_map]
    rfl
  closed := by
    rw [(faithful.reported reported).1]
    exact fun _ => faithful.coherent.closed_of_path
  lasso := by
    obtain ⟨back, lasso⟩ := faithful.isLasso reported
    exact ⟨back, lasso, (lasso run.space .refl).infinite_run⟩
  told := (faithful.reported reported).2.2

/-- Whatever the rules, the history of the state space, the automaton, the
boundary and the choices: a path that a search reports is justified by the
product states on its stack. -/
theorem counterExample_justified {space : StateSpace R} {acceptor : A} {config : Config}
    {progress : Option Progress} {stopRequested : Bool} {start : StateId}
    {begun : Exploration R A} (history : space.HasHistory)
    (begins : Exploration.begin space acceptor config progress stopRequested start = .ok begun)
    (automaton : Automaton) :
    (∀ (G : Type) [Chooser G] (ltl after : LtlSearch G) (run : Exploration R A)
        (path : List StateId), ltl.search.automaton = some automaton → Driven ltl begun after run →
      after.search.counterExample = some path →
      Justified run automaton start (after.search.path.map after.search.product.point) path) ∧
    (∀ (bounded after : BoundedSearch) (run : Exploration R A) (path : List StateId),
      bounded.search.automaton = some automaton → Driven bounded begun after run →
      after.search.counterExample = some path →
      Justified run automaton start (after.search.path.map after.search.product.point) path) := by
  obtain ⟨drained, contained, started⟩ := Exploration.begin_eq_ok begins
  have historyBegun : begun.space.HasHistory := drained ▸ history.evolves (.single (.drain space))
  constructor
  · intro G _ ltl after run path installed driven reported
    obtain ⟨initial, invariant⟩ :=
      LtlSearch.driven_invariant historyBegun contained installed driven
    rw [started] at invariant
    exact invariant.faithful.justified reported
  · intro bounded after run path installed driven reported
    obtain ⟨initial, invariant⟩ :=
      BoundedSearch.driven_invariant historyBegun contained installed driven
    rw [started] at invariant
    exact invariant.faithful.justified reported

/-- A hub from which one way ends at a leaf and another comes back. -/
def forkSystem : LabelledSystem :=
  { nodes := #[{ name := "hub" }, { name := "leaf" }, { name := "side" }]
    edges := #[⟨⟨0⟩, "drop", ⟨1⟩⟩, ⟨⟨0⟩, "leave", ⟨2⟩⟩, ⟨⟨2⟩, "return", ⟨0⟩⟩] }

/-- A run that begins with the hub as its only state. -/
def forkRun : Exploration forkSystem.rules CounterExamples where
  space := (StateSpace.create forkSystem.rules {}).drainEvents.2
  acceptor := {}
  config := {}
  start := StateSpace.startState
  known := #[true]
  progress := none
  stopRequested := false

theorem forkRun_begins : Exploration.begin (StateSpace.create forkSystem.rules {})
    ({} : CounterExamples) {} none false StateSpace.startState = .ok forkRun := rfl

/-- Accepts from the time on at which it may have been possible to return. -/
def returnAutomaton : Automaton :=
  { locations := #[
      ⟨"wait", false, [⟨.always, ⟨0⟩⟩, ⟨Guard.always.require "return", ⟨1⟩⟩]⟩,
      ⟨"seen", true, [⟨.always, ⟨1⟩⟩]⟩]
    initial := ⟨0⟩ }

def forkLtl : Stretch forkSystem.rules (LtlSearch LastChoice) CounterExamples :=
  playRun 20 (LtlSearch.create (some returnAutomaton)) forkRun

def forkPocket : Stretch forkSystem.rules BoundedSearch CounterExamples :=
  playRun 20 (BoundedSearch.create returnAutomaton (Boundary.ruleSet ["leave"]) true) forkRun

/-- The plain search goes round between the hub and the side. The bounded one
comes in its second iteration to the leaf and stays there. -/
theorem forkSystem_counterExamples_justified :
    (StateSpace.create forkSystem.rules {}).HasHistory ∧
      (forkLtl.strategy.search.counterExample = some [⟨0⟩, ⟨2⟩, ⟨0⟩, ⟨2⟩] ∧
        Justified forkLtl.run returnAutomaton StateSpace.startState
          [(⟨0⟩, ⟨0⟩), (⟨2⟩, ⟨0⟩), (⟨0⟩, ⟨1⟩), (⟨2⟩, ⟨1⟩)] [⟨0⟩, ⟨2⟩, ⟨0⟩, ⟨2⟩]) ∧
      forkPocket.strategy.iteration = 2 ∧
      forkPocket.strategy.search.counterExample = some [⟨0⟩, ⟨2⟩, ⟨0⟩, ⟨1⟩] ∧
      Justified forkPocket.run returnAutomaton StateSpace.startState
        [(⟨0⟩, ⟨0⟩), (⟨2⟩, ⟨0⟩), (⟨0⟩, ⟨1⟩), (⟨1⟩, ⟨1⟩)] [⟨0⟩, ⟨2⟩, ⟨0⟩, ⟨1⟩] := by
  have history : (StateSpace.create forkSystem.rules {}).HasHistory := ⟨{}, .refl⟩
  obtain ⟨plain, bounded⟩ := counterExample_justified history forkRun_begins returnAutomaton
  have ltlEnding : forkLtl.ending = .ended .accepted 4 := by decide +kernel
  have ltlReported : forkLtl.strategy.search.counterExample = some [⟨0⟩, ⟨2⟩, ⟨0⟩, ⟨2⟩] := by
    decide +kernel
  have ltlPoints : forkLtl.strategy.search.path.map forkLtl.strategy.search.product.point =
      [(⟨0⟩, ⟨0⟩), (⟨2⟩, ⟨0⟩), (⟨0⟩, ⟨1⟩), (⟨2⟩, ⟨1⟩)] := by decide +kernel
  have ltlDriven : Driven (LtlSearch.create (some returnAutomaton)) forkRun forkLtl.strategy
      forkLtl.run := (playRun_driven_of_ended ⟨_, _, rfl⟩ ltlEnding).1
  have pocketEnding : forkPocket.ending = .ended .accepted 6 := by decide +kernel
  have pocketReported : forkPocket.strategy.search.counterExample =
      some [⟨0⟩, ⟨2⟩, ⟨0⟩, ⟨1⟩] := by decide +kernel
  have pocketPoints :
      forkPocket.strategy.search.path.map forkPocket.strategy.search.product.point =
        [(⟨0⟩, ⟨0⟩), (⟨2⟩, ⟨0⟩), (⟨0⟩, ⟨1⟩), (⟨1⟩, ⟨1⟩)] := by decide +kernel
  have pocketDriven : Driven (BoundedSearch.create returnAutomaton (Boundary.ruleSet ["leave"])
      true) forkRun forkPocket.strategy forkPocket.run :=
    (playRun_driven_of_ended ⟨_, _, rfl⟩ pocketEnding).1
  refine ⟨history, ⟨ltlReported, ?_⟩, by decide +kernel, pocketReported, ?_⟩
  · rw [← ltlPoints]
    exact plain LastChoice _ _ _ _ rfl ltlDriven ltlReported
  · rw [← pocketPoints]
    exact bounded _ _ _ _ rfl pocketDriven pocketReported

end OnTheFly
