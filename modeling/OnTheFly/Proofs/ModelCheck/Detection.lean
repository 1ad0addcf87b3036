import OnTheFly.Proofs.Exploration.Observation
import OnTheFly.Proofs.ModelCheck.Soundness
import OnTheFly.Proofs.ModelCheck.Termination
import OnTheFly.Proofs.RuleSystem.Labelled

/-!
Contract: which accepting cycles the plain search finds.

Owns: that a play which ends without a counterexample has no covered cycle left
to find, that it may still leave a gapped one, that every play over finitely
many graphs ends, and that nothing but a request to stop can keep one that
collects counterexamples from reporting a covered cycle.

The search tests a transition for a cycle by its two ends. So it finds every
cycle whose transitions all have an accepting end, but it may miss a cycle
that also takes a transition without one.
-/

set_option autoImplicit false

namespace OnTheFly

variable {R : RuleSystem} {G A : Type} [Chooser G] [Acceptor R A]

/-- A play with an outcome leaves a search that keeps its invariant, and if it
is exhausted, one that has nothing left to do. -/
theorem LtlSearch.play_invariant {explorer : Explorer} {allowance : Nat} {ltl : LtlSearch G}
    {space : StateSpace R} {start : Option StateId} {acceptor : A} {automaton : Automaton}
    {outcome : Outcome} (history : space.HasHistory)
    (installed : ltl.search.automaton = some automaton)
    (ended : (explorer.play allowance ltl space start acceptor).outcome = some (.ok outcome)) :
    ∃ (initial : ProductStateId) (run : Exploration R A),
      run.space = (explorer.play allowance ltl space start acceptor).space ∧
      (explorer.play allowance ltl space start acceptor).strategy.Invariant run automaton initial
        (start.getD StateSpace.startState, automaton.initial) ∧
      (outcome.termination = .exhausted →
        (explorer.play allowance ltl space start acceptor).strategy.search.next = none) := by
  obtain ⟨begun, begins, sameOutcome, sameStrategy, sameSpace⟩ :=
    Explorer.play_of_contains explorer allowance ltl acceptor (Explorer.contains_of_play ended)
  obtain ⟨drained, contained, started⟩ := Exploration.begin_eq_ok begins
  obtain ⟨ready, _, prepare⟩ := LtlSearch.prepare_of_installed installed begun
  rw [sameOutcome] at ended
  have historyBegun : begun.space.HasHistory := drained ▸ history.evolves (.single (.drain space))
  obtain ⟨driven, stops⟩ :=
    playRun_driven_of_ended ⟨ready, begun, prepare⟩ (Stretch.ending_of_outcome ended)
  obtain ⟨initial, invariant⟩ :=
    LtlSearch.driven_invariant historyBegun contained installed driven
  rw [started] at invariant
  refine ⟨initial, _, sameSpace.symm, sameStrategy ▸ invariant, fun exhausted => ?_⟩
  have noNext := stops exhausted
  rw [sameStrategy]
  simpa [Strategy.hasNext] using noNext

/-! ## What an exhausted play has ruled out -/

/-- An exhausted play without counterexample has ruled out all covered cycles
of the product. So there is an accepting cycle exactly if there is a gapped
one, and none if no component of the automaton is mixed. -/
theorem exhausted_play_leaves_only_gapped_cycles (explorer : Explorer) (allowance : Nat)
    (ltl : LtlSearch G) (space : StateSpace R) (start : Option StateId) (acceptor : A)
    (automaton : Automaton) {outcome : Outcome} {later : StateSpace R}
    (history : space.HasHistory) (installed : ltl.search.automaton = some automaton)
    (ended : (explorer.play allowance ltl space start acceptor).outcome = some (.ok outcome))
    (exhausted : outcome.termination = .exhausted)
    (unreported :
      (explorer.play allowance ltl space start acceptor).strategy.search.counterExample = none)
    (evolves : (explorer.play allowance ltl space start acceptor).space.Evolves later) :
    let root := (start.getD StateSpace.startState, automaton.initial)
    ¬ HasCoveredCycle later automaton root ∧
      (HasAcceptingCycle later automaton root ↔ HasGappedCycle later automaton root) ∧
      (automaton.Uniform → ¬ HasAcceptingCycle later automaton root) := by
  obtain ⟨initial, run, sameSpace, invariant, stops⟩ :=
    LtlSearch.play_invariant history installed ended
  have uncovered := invariant.no_covered_cycle (stops exhausted) unreported (sameSpace ▸ evolves)
  have gapped : HasAcceptingCycle later automaton
      (start.getD StateSpace.startState, automaton.initial) → HasGappedCycle later automaton
      (start.getD StateSpace.startState, automaton.initial) :=
    fun cycle => cycle.covered_or_gapped.resolve_left uncovered
  exact ⟨uncovered, ⟨gapped, HasGappedCycle.accepting⟩,
    fun uniform cycle => uniform.not_gapped (gapped cycle)⟩

/-- One node that never moves. -/
def stillSystem : LabelledSystem :=
  { nodes := #[{ name := "still" }] }

/-- Three locations in a circle, of which the second is accepting. -/
def circleAutomaton : Automaton :=
  { locations := #[⟨"before", false, [⟨.always, ⟨1⟩⟩]⟩, ⟨"at", true, [⟨.always, ⟨2⟩⟩]⟩,
      ⟨"after", false, [⟨.always, ⟨0⟩⟩]⟩]
    initial := ⟨0⟩ }

/-- A play of the circle over the node that never moves. -/
def circlePlay : Played stillSystem.rules (LtlSearch LastChoice) CounterExamples :=
  ({} : Explorer).play 4 (LtlSearch.create (some circleAutomaton))
    (StateSpace.create stillSystem.rules {}) none {}

theorem circlePlay_exhausted :
    circlePlay.outcome = some (.ok ⟨.exhausted, 3, 1, "no counterexample found"⟩) ∧
      circlePlay.strategy.search.counterExample = none := by
  decide +kernel

theorem circlePlay_step {place next : LocationId} {name : String} {accepting : Bool}
    (here : circleAutomaton.location? place = some ⟨name, accepting, [⟨.always, next⟩]⟩) :
    Successor circlePlay.space circleAutomaton (StateSpace.startState, place)
      (StateSpace.startState, next) := by
  have silent : circlePlay.space.outgoing StateSpace.startState = [] := by decide +kernel
  exact ⟨none, .stay here List.mem_cons_self rfl (by simp [silent])⟩

/-- Once round the circle the search is at an end. The transition that closes
the circle leads from the third location to the first, and neither accepts. -/
theorem exhausted_play_misses_the_circle :
    circlePlay.outcome = some (.ok ⟨.exhausted, 3, 1, "no counterexample found"⟩) ∧
      circlePlay.strategy.search.counterExample = none ∧
      HasAcceptingCycle circlePlay.space circleAutomaton
        (StateSpace.startState, circleAutomaton.initial) := by
  refine ⟨circlePlay_exhausted.1, circlePlay_exhausted.2, ?_⟩
  have first : Successor circlePlay.space circleAutomaton (StateSpace.startState, ⟨0⟩)
      (StateSpace.startState, ⟨1⟩) := circlePlay_step rfl
  have second : Successor circlePlay.space circleAutomaton (StateSpace.startState, ⟨1⟩)
      (StateSpace.startState, ⟨2⟩) := circlePlay_step rfl
  have third : Successor circlePlay.space circleAutomaton (StateSpace.startState, ⟨2⟩)
      (StateSpace.startState, ⟨0⟩) := circlePlay_step rfl
  exact ⟨_, .single first, rfl, ((Relation.TransGen.single second).tail third).tail first⟩

/-- For the circle, the cycle that is left has a gap. -/
theorem circlePlay_leaves_only_gapped_cycles :
    (StateSpace.create stillSystem.rules {}).HasHistory ∧
      circlePlay.outcome = some (.ok ⟨.exhausted, 3, 1, "no counterexample found"⟩) ∧
      circlePlay.strategy.search.counterExample = none ∧
      ¬ HasCoveredCycle circlePlay.space circleAutomaton
        (StateSpace.startState, circleAutomaton.initial) ∧
      (HasAcceptingCycle circlePlay.space circleAutomaton
          (StateSpace.startState, circleAutomaton.initial) ↔
        HasGappedCycle circlePlay.space circleAutomaton
          (StateSpace.startState, circleAutomaton.initial)) := by
  have history : (StateSpace.create stillSystem.rules {}).HasHistory := ⟨{}, .refl⟩
  obtain ⟨ended, unreported⟩ := circlePlay_exhausted
  obtain ⟨uncovered, gapped, _⟩ := exhausted_play_leaves_only_gapped_cycles ({} : Explorer) 4
    (LtlSearch.create (some circleAutomaton) : LtlSearch LastChoice)
    (StateSpace.create stillSystem.rules {}) none ({} : CounterExamples) circleAutomaton history
    rfl ended rfl unreported .refl
  exact ⟨history, ended, unreported, uncovered, gapped⟩

/-! ## What every play of finitely many graphs finds -/

/-- Over finitely many graphs whose matches can all be applied, a play makes the
steps of a run, and only because the acceptor has enough or the run has to stop
does it end before all of them are made. -/
theorem LtlSearch.play_made {explorer : Explorer} {allowance : Nat} {ltl : LtlSearch G}
    {space : StateSpace R} {start : Option StateId} {acceptor : A} {begun : Exploration R A}
    {automaton : Automaton} (begins : explorer.Begins space start acceptor begun)
    (located : automaton.Located) (installed : ltl.search.automaton = some automaton)
    (finite : { graph | R.Reachable graph }.Finite) (succeeds : R.Succeeds begun.space.engine)
    (history : begun.space.HasHistory)
    (enough : { graph | R.Reachable graph }.ncard * automaton.size < allowance) :
    let played := explorer.play allowance ltl space start acceptor
    ∃ outcome trail final, played.outcome = some (.ok outcome) ∧
      Made ltl begun trail played.strategy final ∧ final.space = played.space ∧
      final.acceptor = played.acceptor ∧
      (Acceptor.done (R := R) played.acceptor = false →
        (played.explorer.config.heedsStop && played.explorer.stopRequested) = false →
        outcome.termination = .exhausted) := by
  intro played
  obtain ⟨_, _, config, contained, _⟩ := begins.spec
  obtain ⟨_, _, prepare⟩ := LtlSearch.prepare_of_installed installed begun
  have underway := fun trail last final (made : Made ltl begun trail last final) =>
    LtlSearch.made_underway located succeeds finite history contained installed made
  have few : ∀ trail last final, Made ltl begun trail last final → trail.length < allowance := by
    intro trail last final made
    obtain ⟨_, _, known⟩ := underway trail last final made
    calc trail.length
        ≤ (LtlSearch.visited last.search final.space).ncard := known.explored
      _ ≤ { graph | R.Reachable graph }.ncard * automaton.size :=
          LtlSearch.ncard_visited_le finite known.invariant known.placed
      _ < allowance := enough
  have unfailing : ∀ trail last final, Made ltl begun trail last final →
      Strategy.hasNext R last = true → ∃ state, (Strategy.doNext last final).1 = .ok state := by
    intro trail last final made more
    obtain ⟨_, _, known⟩ := underway trail last final made
    obtain ⟨frame, next⟩ := Option.isSome_iff_exists.1 more
    obtain ⟨state, _, _, step, _⟩ := known.doNext located finite next
    exact ⟨state, congrArg Prod.fst step⟩
  obtain ⟨outcome, trail, final, ended, made, sameSpace, sameAcceptor, _, stops⟩ :=
    begins.play_ends allowance ltl prepare few unfailing
  have sameConfig : final.config = played.explorer.config :=
    (underway trail _ final made).1.trans (config.trans Explorer.config_play.symm)
  rw [sameConfig] at stops
  exact ⟨outcome, trail, final, ended, made, sameSpace, sameAcceptor, stops⟩

/-- Over finitely many graphs whose matches can all be applied, a play comes to
an end, which is the end of its search unless the acceptor has enough or the
play has to stop. The acceptor is told of what the search reports. Unless the
play was kept from the end of its search before there was anything to report,
the search reports a counterexample if there is a covered cycle. If no component
of the automaton is mixed, it then reports one exactly if there is an accepting
cycle. -/
theorem finite_play_detects_covered_cycles (explorer : Explorer) (allowance : Nat)
    (ltl : LtlSearch G) (space : StateSpace R) (start : Option StateId) (acceptor : A)
    (automaton : Automaton) (draft : Draft) (built : draft.build = .ok automaton)
    (installed : ltl.search.automaton = some automaton)
    (finite : { graph | R.Reachable graph }.Finite) (succeeds : R.Succeeds space.engine)
    (history : space.HasHistory)
    (contained : space.contains (start.getD StateSpace.startState) = true)
    (enough : { graph | R.Reachable graph }.ncard * automaton.size < allowance) :
    let played := explorer.play allowance ltl space start acceptor
    let root := (start.getD StateSpace.startState, automaton.initial)
    ∃ outcome, played.outcome = some (.ok outcome) ∧
      (Acceptor.done (R := R) played.acceptor = false →
        (played.explorer.config.heedsStop && played.explorer.stopRequested) = false →
        outcome.termination = .exhausted) ∧
      (∀ path, played.strategy.search.counterExample = some path →
        ∃ before, played.acceptor = Acceptor.addCounterExample (R := R) path before) ∧
      (outcome.termination = .exhausted ∨
          played.UnhinderedUntil played.strategy.search.counterExample.isSome →
        (∀ later, played.space.Evolves later → HasCoveredCycle later automaton root →
          played.strategy.search.counterExample.isSome = true) ∧
        (automaton.Uniform →
          (played.strategy.search.counterExample.isSome = true ↔
            ∃ later, played.space.Evolves later ∧ HasAcceptingCycle later automaton root))) := by
  intro played root
  obtain ⟨begun, begins⟩ := explorer.begins_of_contains acceptor contained
  obtain ⟨drained, started, _, containedBegun, _⟩ := begins.spec
  have historyBegun : begun.space.HasHistory := drained ▸ history.evolves (.single (.drain space))
  obtain ⟨outcome, trail, final, ended, made, sameSpace, sameAcceptor, stops⟩ :=
    LtlSearch.play_made begins (Draft.located_of_build built) installed finite
      (drained ▸ succeeds) historyBegun enough
  obtain ⟨initial, invariant⟩ :=
    LtlSearch.driven_invariant historyBegun containedBegun installed made.driven
  rw [started] at invariant
  refine ⟨outcome, ended, stops, ?_, fun unhindered => ?_⟩
  · intro path reported
    rw [← sameAcceptor]
    exact (invariant.faithful.reported reported).2.2
  · have detects : ∀ later, played.space.Evolves later → HasCoveredCycle later automaton root →
        played.strategy.search.counterExample.isSome = true := by
      intro later evolves cycle
      by_contra missed
      have unreported := Option.not_isSome_iff_eq_none.1 missed
      have exhausted : outcome.termination = .exhausted := by
        rcases unhindered with exhausted | ⟨heeded, unstopped⟩
        · exact exhausted
        · exact stops (Bool.eq_false_iff.2 (mt heeded missed)) unstopped
      obtain ⟨_, _, _, _, _, _, _, finished⟩ := Explorer.play_made ended exhausted
      have stopped : played.strategy.search.next = none := by
        simpa [Strategy.hasNext] using finished
      exact invariant.no_covered_cycle stopped unreported (sameSpace ▸ evolves) cycle
    refine ⟨detects, fun uniform => ⟨fun reported => ?_, ?_⟩⟩
    · obtain ⟨states, isReported⟩ := Option.isSome_iff_exists.1 reported
      obtain ⟨back, lasso⟩ := invariant.faithful.isLasso isReported
      exact ⟨_, .refl, sameSpace ▸ (lasso _ .refl).hasAcceptingCycle⟩
    · rintro ⟨later, evolves, cycle⟩
      exact detects later evolves (uniform.covered_iff_accepting.2 cycle)

/-! ## Plays that collect counterexamples -/

/-- Until there is something to report, an acceptor that ignores changes is left
as it is. -/
theorem LtlSearch.acceptor_of_unreported {ltl after : LtlSearch G} {run later : Exploration R A}
    {automaton : Automaton} (ignores : Acceptor.IgnoresChanges R A)
    (history : run.space.HasHistory) (contained : run.space.contains run.start = true)
    (installed : ltl.search.automaton = some automaton) (driven : Driven ltl run after later)
    (unreported : after.search.counterExample = none) : later.acceptor = run.acceptor := by
  induction driven with
  | prepared prepare => rw [(strategy_prepare.1 prepare).2]
  | observed _ _ _ inductionHypothesis => exact inductionHypothesis unreported
  | @stepped current _ now later _ before step unbroken inductionHypothesis =>
      obtain ⟨initial, invariant⟩ := driven_invariant history contained installed before
      have coherent := invariant.faithful.coherent
      have closing := fun state => (Exploration.closeState_explores invariant.faithful.history
        state).acceptor_of_ignores ignores
      cases doNext_move coherent step unbroken with
      | rest => exact inductionHypothesis unreported
      | @refuse frame _ _ _ closed =>
          have same := closing (current.search.product.systemState frame.state)
          rw [closed] at same
          exact same.trans (inductionHypothesis unreported)
      | @visit frame _ _ _ _ _ _ next closed _ _ explores =>
          have same := closing (current.search.product.systemState frame.state)
          rw [closed] at same
          unfold explore at explores
          split at explores
          · cases explores
            cases unreported
          · cases explores
            exact same.trans (inductionHypothesis (coherent.pending next).2.2.2)

theorem CounterExamples.ignoresChanges : Acceptor.IgnoresChanges R CounterExamples := by
  intro space acceptor event
  cases event <;> rfl

/-- With an acceptor that collects counterexamples, a play can only be kept from
the end of its search by a request to stop. -/
theorem LtlSearch.unhindered_of_unstopped {explorer : Explorer} {allowance : Nat}
    {ltl : LtlSearch G} {space : StateSpace R} {start : Option StateId}
    {acceptor : CounterExamples} {automaton : Automaton} {outcome : Outcome}
    (history : space.HasHistory) (installed : ltl.search.automaton = some automaton)
    (ended : (explorer.play allowance ltl space start acceptor).outcome = some (.ok outcome))
    (unstopped : ((explorer.play allowance ltl space start acceptor).explorer.config.heedsStop &&
      (explorer.play allowance ltl space start acceptor).explorer.stopRequested) = false) :
    (explorer.play allowance ltl space start acceptor).UnhinderedUntil
      (explorer.play allowance ltl space start acceptor).strategy.search.counterExample.isSome := by
  refine ⟨fun done => ?_, unstopped⟩
  obtain ⟨begun, begins⟩ := explorer.begins_of_contains acceptor (Explorer.contains_of_play ended)
  obtain ⟨drained, _, _, contained, _⟩ := begins.spec
  obtain ⟨sameOutcome, sameStrategy, _, sameAcceptor, _⟩ := begins.play allowance ltl
  obtain ⟨ready, _, prepare⟩ := LtlSearch.prepare_of_installed installed begun
  rw [sameOutcome] at ended
  obtain ⟨driven, _⟩ :=
    playRun_driven_of_ended ⟨ready, begun, prepare⟩ (Stretch.ending_of_outcome ended)
  rw [sameStrategy, Option.isSome_iff_ne_none]
  intro unreported
  have same := LtlSearch.acceptor_of_unreported CounterExamples.ignoresChanges
    (drained ▸ history.evolves (.single (.drain space))) contained installed driven unreported
  rw [sameAcceptor, same, begins.acceptor_eq] at done
  simp [Acceptor.done, Acceptor.prepare, CounterExamples.isDone] at done
  omega

def returnDraft : Draft :=
  { locations := [⟨"wait", false⟩, ⟨"seen", true⟩]
    initial := some "wait"
    edges := [⟨"wait", .always, "wait"⟩, ⟨"wait", Guard.always.require "return", "seen"⟩,
      ⟨"seen", .always, "seen"⟩] }

/-- A play of the fork whose acceptor has enough with the first counterexample. -/
def forkPlay : Played forkSystem.rules (LtlSearch LastChoice) CounterExamples :=
  ({} : Explorer).play 20 (LtlSearch.create (some returnAutomaton))
    (StateSpace.create forkSystem.rules {}) none {}

theorem forkPlay_accepted : forkPlay.outcome =
    some (.ok ⟨.accepted, 4, 3, "counterexample of length 4 (1 found)"⟩) := by
  decide +kernel

theorem forkPlay_step {state : StateId} {place : LocationId} {location : Location}
    (here : returnAutomaton.location? place = some location) (step : ProductStep)
    (listed : step ∈ productSteps forkPlay.space state location) :
    Successor forkPlay.space returnAutomaton (state, place) (step.state, step.location) :=
  ⟨step.via, (mem_productSteps_iff here step).1 listed⟩

/-- Between the hub and the side, at the accepting location. -/
theorem forkPlay_hasCoveredCycle : HasCoveredCycle forkPlay.space returnAutomaton
    (StateSpace.startState, returnAutomaton.initial) := by
  have leave : Successor forkPlay.space returnAutomaton (⟨0⟩, ⟨0⟩) (⟨2⟩, ⟨0⟩) :=
    forkPlay_step rfl ⟨some ⟨1⟩, ⟨2⟩, ⟨0⟩⟩ (by decide +kernel)
  have accept : Successor forkPlay.space returnAutomaton (⟨2⟩, ⟨0⟩) (⟨0⟩, ⟨1⟩) :=
    forkPlay_step rfl ⟨some ⟨2⟩, ⟨0⟩, ⟨1⟩⟩ (by decide +kernel)
  have leaveAgain : CoveredStep forkPlay.space returnAutomaton (⟨0⟩, ⟨1⟩) (⟨2⟩, ⟨1⟩) :=
    ⟨forkPlay_step rfl ⟨some ⟨1⟩, ⟨2⟩, ⟨1⟩⟩ (by decide +kernel), .inl rfl⟩
  have returnAgain : CoveredStep forkPlay.space returnAutomaton (⟨2⟩, ⟨1⟩) (⟨0⟩, ⟨1⟩) :=
    ⟨forkPlay_step rfl ⟨some ⟨2⟩, ⟨0⟩, ⟨1⟩⟩ (by decide +kernel), .inl rfl⟩
  exact ⟨(⟨0⟩, ⟨1⟩), .tail (.single leave) accept, .tail (.single leaveAgain) returnAgain⟩

theorem returnAutomaton_uniform : returnAutomaton.Uniform := by
  apply Automaton.uniform_of_kept
  rintro ⟨source⟩ target ⟨location, edge, here, leaves, rfl⟩ accepting
  match source with
  | 0 => cases accepting
  | 1 =>
      cases here
      cases List.mem_singleton.1 leaves
      rfl
  | _ + 2 => cases here

/-- The play of the fork finds the covered cycle, with which its acceptor has
enough. -/
theorem forkPlay_detects_covered_cycle :
    returnDraft.build = .ok returnAutomaton ∧
      { graph | forkSystem.rules.Reachable graph }.Finite ∧ forkSystem.rules.Succeeds {} ∧
      (StateSpace.create forkSystem.rules {}).HasHistory ∧
      { graph | forkSystem.rules.Reachable graph }.ncard * returnAutomaton.size < 20 ∧
      forkPlay.outcome = some (.ok ⟨.accepted, 4, 3, "counterexample of length 4 (1 found)"⟩) ∧
      forkPlay.UnhinderedUntil forkPlay.strategy.search.counterExample.isSome ∧
      HasCoveredCycle forkPlay.space returnAutomaton
        (StateSpace.startState, returnAutomaton.initial) ∧
      returnAutomaton.Uniform ∧ forkPlay.strategy.search.counterExample.isSome = true ∧
      (∃ path before, forkPlay.strategy.search.counterExample = some path ∧
        forkPlay.acceptor = Acceptor.addCounterExample (R := forkSystem.rules) path before) ∧
      ∃ later, forkPlay.space.Evolves later ∧ HasAcceptingCycle later returnAutomaton
        (StateSpace.startState, returnAutomaton.initial) := by
  have built : returnDraft.build = .ok returnAutomaton := by decide +kernel
  have history : (StateSpace.create forkSystem.rules {}).HasHistory := ⟨{}, .refl⟩
  have succeeds : forkSystem.rules.Succeeds {} :=
    LabelledSystem.succeeds_of_calm fun rule => by rfl
  have enough : { graph | forkSystem.rules.Reachable graph }.ncard * returnAutomaton.size < 20 :=
    calc { graph | forkSystem.rules.Reachable graph }.ncard * returnAutomaton.size
        ≤ 4 * 2 := Nat.mul_le_mul_right 2 LabelledSystem.ncard_reachable_le
      _ < 20 := by decide
  have unhindered : forkPlay.UnhinderedUntil forkPlay.strategy.search.counterExample.isSome :=
    LtlSearch.unhindered_of_unstopped history rfl forkPlay_accepted rfl
  obtain ⟨outcome, ended, _, told, finds⟩ := finite_play_detects_covered_cycles ({} : Explorer) 20
    (LtlSearch.create (some returnAutomaton) : LtlSearch LastChoice)
    (StateSpace.create forkSystem.rules {}) none ({} : CounterExamples) returnAutomaton returnDraft
    built rfl LabelledSystem.finite_reachable succeeds history (by decide +kernel) enough
  obtain ⟨detects, decides⟩ := finds (.inr unhindered)
  have reported : forkPlay.strategy.search.counterExample.isSome = true :=
    detects forkPlay.space .refl forkPlay_hasCoveredCycle
  obtain ⟨path, isReported⟩ := Option.isSome_iff_exists.1 reported
  obtain ⟨before, isTold⟩ := told path isReported
  exact ⟨built, LabelledSystem.finite_reachable, succeeds, history, enough, forkPlay_accepted,
    unhindered, forkPlay_hasCoveredCycle, returnAutomaton_uniform, reported,
    ⟨path, before, isReported, isTold⟩, (decides returnAutomaton_uniform).1 reported⟩

end OnTheFly
