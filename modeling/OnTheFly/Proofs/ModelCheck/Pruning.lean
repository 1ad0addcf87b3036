import OnTheFly.Proofs.ModelCheck.Bounded.Excursions
import OnTheFly.Proofs.ModelCheck.Bounded.Termination
import OnTheFly.Proofs.ModelCheck.Coverage

/-!
Contract: what pocket pruning does to the verdict of a bounded search.

Owns: that a search without pruning goes beside one with pruning over whole
runs, that only the search with pruning can miss a cycle that the other reports,
and that the product then has a gapped cycle.
Does not own: what a gapped cycle is and which automata have none.
-/

set_option autoImplicit false

namespace OnTheFly

variable {R : RuleSystem} {A B : Type}

namespace BoundedSearch

/-- Two searches that begin alike, of which the first does not prune. -/
structure Alike (plain pruned : BoundedSearch) (automaton : Automaton) (begun : Exploration R A)
    (begunPruned : Exploration R B) : Prop where
  installed : plain.search.automaton = some automaton
  installedPruned : pruned.search.automaton = some automaton
  prototype : plain.prototype = pruned.prototype
  unpruned : plain.pocket = false
  space : begunPruned.space = begun.space
  start : begunPruned.start = begun.start
  config : begunPruned.config = begun.config
  unlimited : begun.config.maxIterations = 0
  history : begun.space.HasHistory
  contained : begun.space.contains begun.start = true
  quiet : begun.space.events = []

namespace Alike

variable {plain pruned plainNow prunedLast : BoundedSearch} {automaton : Automaton}
  {begun now : Exploration R A} {begunPruned final : Exploration R B}
  {trail whole : List (BoundedSearch × StateId)}

theorem quietPruned (alike : plain.Alike pruned automaton begun begunPruned) :
    begunPruned.space.events = [] :=
  alike.space ▸ alike.quiet

/-- They are prepared alike. -/
theorem prepared (alike : plain.Alike pruned automaton begun begunPruned)
    {plainReady prunedReady : BoundedSearch} {opened : Exploration R A}
    {openedPruned : Exploration R B} (prepare : plain.prepare begun = .ok (plainReady, opened))
    (preparePruned : pruned.prepare begunPruned = .ok (prunedReady, openedPruned))
    (initialPruned : ProductStateId) (space : StateSpace R) (config : Config) :
    openedPruned.space = opened.space ∧
      Beside automaton initialPruned space config plainReady prunedReady := by
  have sameReset : plain.search.reset begun.start = pruned.search.reset begunPruned.start := by
    unfold Search.reset
    rw [alike.installed, alike.installedPruned, alike.start]
    rfl
  obtain ⟨search, initial, reset, pristine, _⟩ :=
    Search.reset_eq_ok alike.installed alike.contained
  unfold BoundedSearch.prepare at prepare preparePruned
  rw [← sameReset] at preparePruned
  rw [reset] at prepare preparePruned
  cases prepare
  cases preparePruned
  have mirrors : ({ plain with
      search := search
      boundary := some plain.prototype.instantiate
      deferred := [] } : BoundedSearch).Mirrors { pruned with
      search := search
      boundary := some pruned.prototype.instantiate
      deferred := [] } :=
    ⟨.refl _, rfl, rfl, rfl, alike.unpruned, .rfl, id, .inl, id⟩
  exact ⟨alike.space, .level mirrors (by simp only [alike.prototype]) rfl rfl
    pristine.counterExample⟩

theorem invariant [Acceptor R A] (alike : plain.Alike pruned automaton begun begunPruned)
    (made : Made plain begun trail plainNow now) :
    ∃ initial, plainNow.Invariant now automaton initial (begun.start, automaton.initial) :=
  driven_invariant alike.history alike.contained alike.installed made.driven

theorem invariantPruned [Acceptor R B] (alike : plain.Alike pruned automaton begun begunPruned)
    (made : Made pruned begunPruned whole prunedLast final) :
    ∃ initial, prunedLast.Invariant final automaton initial (begun.start, automaton.initial) := by
  rw [← alike.start]
  refine driven_invariant (alike.space ▸ alike.history) ?_ alike.installedPruned made.driven
  rw [alike.space, alike.start]
  exact alike.contained

/-- At its end the search with pruning has nothing deferred, unless it has
reported a counterexample. -/
theorem nothing [Acceptor R B] (alike : plain.Alike pruned automaton begun begunPruned)
    (ended : Made pruned begunPruned whole prunedLast final)
    (dry : prunedLast.search.next = none) (unreported : prunedLast.search.counterExample = none) :
    prunedLast.deferred = [] := by
  have unlimited : begunPruned.config.maxIterations = 0 := alike.config ▸ alike.unlimited
  exact deferred_of_made unlimited alike.quietPruned ended dry unreported

variable [Acceptor R A] [Acceptor R B]

/-- When the search with pruning has come to its end, all that the other still
enters is closed. -/
theorem closed_of_alone (alike : plain.Alike pruned automaton begun begunPruned)
    (made : Made plain begun trail plainNow now) {frame : Frame}
    (next : plainNow.search.next = some frame)
    (ended : Made pruned begunPruned whole prunedLast final) (same : final.space = now.space)
    (dry : prunedLast.search.next = none) (unreported : prunedLast.search.counterExample = none) :
    now.space.isClosed (plainNow.search.product.systemState frame.state) = true := by
  obtain ⟨_, invariant⟩ := alike.invariant made
  obtain ⟨_, invariantPruned⟩ := alike.invariantPruned ended
  have nothing := alike.nothing ended dry unreported
  have reached := invariant.faithful.coherent.reaches_next invariant.faithful.history.wellFormed
    next
  rw [invariant.faithful.rooted, ← same] at reached
  obtain ⟨state, known, samePoint⟩ :=
    invariantPruned.reached dry unreported nothing .refl reached
  have closed := (invariantPruned.covered unreported .refl known).systemClosed
  rw [samePoint, same] at closed
  exact closed

/-- Whether the search with pruning comes to be beside a search without. -/
def Accompanied (pruned : BoundedSearch) (begunPruned : Exploration R B) (automaton : Automaton)
    (config : Config) (plainNow : BoundedSearch) (space : StateSpace R) : Prop :=
  ∃ trail prunedNow now initial, Made pruned begunPruned trail prunedNow now ∧
    now.space = space ∧ Beside automaton initial space config plainNow prunedNow

/-- From the same frame both make a step. -/
theorem steps_level (alike : plain.Alike pruned automaton begun begunPruned)
    (ended : Made pruned begunPruned whole prunedLast final)
    (dry : prunedLast.search.next = none) (made : Made plain begun trail plainNow now)
    {frame : Frame} (next : plainNow.search.next = some frame) {state : StateId}
    {plainNext : BoundedSearch} {later : Exploration R A}
    (step : plainNow.doNext now = (.ok state, plainNext, later))
    {trailPruned : List (BoundedSearch × StateId)} {prunedNow : BoundedSearch}
    {nowPruned : Exploration R B}
    (madePruned : Made pruned begunPruned trailPruned prunedNow nowPruned)
    (same : nowPruned.space = now.space) (mirrors : plainNow.Mirrors prunedNow)
    (boundary : plainNow.boundary = prunedNow.boundary)
    (stack : plainNow.search.stack = prunedNow.search.stack)
    (nextPruned : prunedNow.search.next = some frame) :
    Accompanied pruned begunPruned automaton begun.config plainNext later.space := by
  obtain ⟨initial, invariant⟩ := alike.invariant made
  obtain ⟨first, invariantPruned⟩ := alike.invariantPruned madePruned
  obtain ⟨_, _, _, unreported⟩ := invariant.faithful.coherent.pending next
  obtain ⟨_, _, _, unreportedPruned⟩ := invariantPruned.faithful.coherent.pending nextPruned
  obtain ⟨_, prunedNext, laterPruned, stepPruned⟩ :=
    doNext_of_ended alike.quietPruned madePruned ended dry nextPruned
  obtain ⟨⟨applied, closes⟩, space, _, turns⟩ := doNext_turns next step
  obtain ⟨_, spacePruned, _, turnsPruned⟩ := doNext_turns nextPruned stepPruned
  have closesAlike := (Exploration.closeState_agrees same
    (plainNow.search.product.systemState frame.state)).2
  rw [← mirrors.shape.systemState] at spacePruned
  have sameLater : laterPruned.space = later.space :=
    spacePruned.trans (closesAlike.trans space.symm)
  have systemClosed := (Exploration.closeState_closes invariant.faithful.history
    (invariant.faithful.coherent.contains_next next)).1 applied closes
  refine ⟨_, prunedNext, laterPruned, first,
    madePruned.stepped (strategy_hasNext.2 ⟨frame, nextPruned⟩) stepPruned, sameLater, ?_⟩
  rw [(made_settings alike.quiet made).1, space] at turns
  rw [sameLater, (made_settings alike.quietPruned madePruned).1, alike.config, space]
    at turnsPruned
  rw [space]
  exact mirrors.turned boundary stack
    (invariant.advances (Exploration.advances_closeState _ _) unreported)
    (invariantPruned.advances (Exploration.advances_closeState _ _) unreportedPruned)
    closesAlike next nextPruned systemClosed turns turnsPruned

/-- Every run of the search without pruning is accompanied by one of the search
with pruning, as far as that comes. -/
theorem accompanied (alike : plain.Alike pruned automaton begun begunPruned)
    (ended : Made pruned begunPruned whole prunedLast final)
    (dry : prunedLast.search.next = none) (made : Made plain begun trail plainNow now) :
    Accompanied pruned begunPruned automaton begun.config plainNow now.space := by
  induction made with
  | prepared prepare =>
      obtain ⟨_, _, preparePruned⟩ := prepare_of_made ended
      have madePruned : Made pruned begunPruned [] _ _ :=
        .prepared (strategy_prepare.2 preparePruned)
      obtain ⟨initial, _⟩ := alike.invariantPruned madePruned
      exact ⟨_, _, _, initial, madePruned,
        alike.prepared (strategy_prepare.1 prepare) preparePruned _ _ _⟩
  | @stepped _ current next now later _ before more step inductionHypothesis =>
      obtain ⟨_, prunedNow, nowPruned, initialPruned, madePruned, same, beside⟩ :=
        inductionHypothesis
      obtain ⟨frame, isNext⟩ := strategy_hasNext.1 more
      obtain ⟨_, invariant⟩ := alike.invariant before
      obtain ⟨config, quiet⟩ := made_settings alike.quiet before
      obtain ⟨_, space, _, turns⟩ := doNext_turns isNext step
      rw [config] at turns
      -- A step at a closed state leaves the state space as it is.
      have still : now.space.isClosed (current.search.product.systemState frame.state) = true →
          later.space = now.space := by
        intro closed
        rw [space]
        exact (Exploration.closeState_of_isClosed invariant.faithful.history.wellFormed quiet
          closed).2
      cases beside with
      | level mirrors boundary stack sameNext _ =>
          exact alike.steps_level ended dry before isNext step madePruned same mirrors boundary
            stack (sameNext ▸ isNext)
      | away walking walk strays stack isNextAway =>
          rw [isNext] at isNextAway
          cases isNextAway
          have painted := strays.painted walking List.mem_cons_self
          have sameSpace := still (invariant.faithful.coherent.expanded painted).1
          rw [sameSpace] at turns ⊢
          exact ⟨_, prunedNow, nowPruned, initialPruned, madePruned, same,
            strays.turned invariant walking walk stack isNext turns⟩
      | alone stopped unreported =>
          have sameSpace := still
            (alike.closed_of_alone before isNext madePruned same stopped unreported)
          exact ⟨_, prunedNow, nowPruned, initialPruned, madePruned, same.trans sameSpace.symm,
            .alone stopped unreported⟩
      | reported found =>
          rw [(invariant.faithful.coherent.pending isNext).2.2.2] at found
          cases found
  | observed _ _ inductionHypothesis => exact inductionHypothesis

variable {plainLast : BoundedSearch} {finalPlain : Exploration R A}

/-- What the search with pruning reports, the other reports too. -/
theorem reports (alike : plain.Alike pruned automaton begun begunPruned)
    (madePlain : Made plain begun trail plainLast finalPlain)
    (dryPlain : plainLast.search.next = none)
    (ended : Made pruned begunPruned whole prunedLast final)
    (dry : prunedLast.search.next = none)
    (found : prunedLast.search.counterExample.isSome = true) :
    plainLast.search.counterExample.isSome = true := by
  obtain ⟨_, prunedNow, _, _, madePruned, _, beside⟩ := alike.accompanied ended dry madePlain
  have unreported : prunedNow.search.next = none → prunedNow.search.counterExample = none →
      plainLast.search.counterExample.isSome = true := by
    intro stopped unreported
    rw [← ended_unique alike.quietPruned madePruned stopped ended dry, unreported] at found
    cases found
  cases beside with
  | level _ _ _ sameNext unfound => exact unreported (sameNext ▸ dryPlain) unfound
  | away _ _ _ _ next =>
      rw [dryPlain] at next
      cases next
  | alone stopped unfound => exact unreported stopped unfound
  | reported found => exact found

/-- If the search with pruning misses what the other reports, then there is a
gapped cycle. -/
theorem misses (alike : plain.Alike pruned automaton begun begunPruned)
    (madePlain : Made plain begun trail plainLast finalPlain)
    (ended : Made pruned begunPruned whole prunedLast final)
    (dry : prunedLast.search.next = none) {states : List StateId}
    (found : plainLast.search.counterExample = some states)
    (unreported : prunedLast.search.counterExample = none) :
    HasGappedCycle final.space automaton (begun.start, automaton.initial) := by
  obtain ⟨initial, invariant⟩ := alike.invariant madePlain
  obtain ⟨_, invariantPruned⟩ := alike.invariantPruned ended
  obtain ⟨_, _, _, _, madePruned, same, _⟩ := alike.accompanied ended dry madePlain
  have evolves : finalPlain.space.Evolves final.space := by
    rw [← same]
    exact evolves_of_goes (ahead_of_ended alike.quietPruned madePruned ended dry)
  obtain ⟨back, lasso⟩ := invariant.faithful.isLasso found
  have cycle := (lasso final.space evolves).hasAcceptingCycle
  have nothing := alike.nothing ended dry unreported
  rcases cycle.covered_or_gapped with covered | gapped
  · exact absurd covered (invariantPruned.not_covered dry unreported nothing)
  · exact gapped

/-- Plays from the same beginning begin alike, with and without pruning. -/
theorem of_begins {explorer : Explorer} {space : StateSpace R} {start : Option StateId}
    {acceptor : A} {acceptorPruned : B} (history : space.HasHistory)
    (unlimited : explorer.config.maxIterations = 0)
    (begins : explorer.Begins space start acceptor begun)
    (beginsPruned : explorer.Begins space start acceptorPruned begunPruned)
    (automaton : Automaton) (prototype : Boundary) :
    (create automaton prototype false).Alike (create automaton prototype true) automaton begun
      begunPruned := by
  obtain ⟨drained, started, config, contained, _⟩ := begins.spec
  obtain ⟨drainedPruned, startedPruned, configPruned, _⟩ := beginsPruned.spec
  exact
    { installed := rfl
      installedPruned := rfl
      prototype := rfl
      unpruned := rfl
      space := drainedPruned.trans drained.symm
      start := startedPruned.trans started.symm
      config := configPruned.trans config.symm
      unlimited := config.symm ▸ unlimited
      history := drained ▸ history.evolves (.single (.drain space))
      contained := contained
      quiet := by rw [drained]; rfl }

end Alike

end BoundedSearch

/-! ## Plays -/

namespace Played

/-- Whether a play has come to the end of its search. -/
def Complete (played : Played R BoundedSearch A) : Prop :=
  (∃ outcome, played.outcome = some (.ok outcome)) ∧ played.strategy.search.next = none

def reports (played : Played R BoundedSearch A) : Bool :=
  played.strategy.search.counterExample.isSome

/-- Whether a play went on until its search was at an end or its acceptor was
told of a counterexample. -/
def Unhindered [Acceptor R A] (played : Played R BoundedSearch A) : Prop :=
  played.UnhinderedUntil played.reports

end Played

section Play

variable [Acceptor R A] {explorer : Explorer} {allowance : Nat} {bounded : BoundedSearch}
  {space : StateSpace R} {start : Option StateId} {acceptor : A} {automaton : Automaton}

/-- Over a finite product an unhindered play comes to the end of its search. -/
theorem Played.Unhindered.complete {graph : R.Graph}
    (unhindered : (explorer.play allowance bounded space start acceptor).Unhindered)
    (history : space.HasHistory)
    (stored : space.graph? (start.getD StateSpace.startState) = some graph)
    (installed : bounded.search.automaton = some automaton) (located : automaton.Located)
    (succeeds : R.Succeeds space.engine)
    (finite : (reachablePoints R automaton (graph, automaton.initial)).Finite)
    (fits : bounded.prototype.limit.Fits
      (reachablePoints R automaton (graph, automaton.initial)).ncard)
    (enough : (reachablePoints R automaton (graph, automaton.initial)).ncard *
      ((reachablePoints R automaton (graph, automaton.initial)).ncard + 1) < allowance) :
    (explorer.play allowance bounded space start acceptor).Complete := by
  obtain ⟨heeded, notStopped⟩ := unhindered
  rw [Explorer.config_play] at notStopped
  obtain ⟨begun, begins, historyBegun, storedBegun, succeedsBegun⟩ :=
    BoundedSearch.begins_of_stored explorer acceptor history stored succeeds
  obtain ⟨_, _, _, contained, _⟩ := begins.spec
  obtain ⟨outcome, trail, final, ended, made, _, stops⟩ := BoundedSearch.play_made begins
    historyBegun storedBegun installed located succeedsBegun finite fits enough
  refine ⟨⟨outcome, ended⟩, ?_⟩
  cases done : Acceptor.done (R := R)
      (explorer.play allowance bounded space start acceptor).acceptor with
  | true =>
      -- After a report there is nothing next.
      obtain ⟨_, invariant⟩ :=
        BoundedSearch.driven_invariant historyBegun contained installed made.driven
      have reported := heeded done
      rw [Option.eq_none_iff_forall_ne_some]
      intro frame next
      rw [Played.reports, (invariant.faithful.coherent.pending next).2.2.2] at reported
      cases reported
  | false =>
      obtain ⟨_, _, _, _, _, _, _, finished⟩ := Explorer.play_made ended (stops done notStopped)
      simpa [Strategy.hasNext] using finished

end Play

/-- Pocket pruning can only miss counterexamples, and misses none unless the
product has a gapped cycle. Played from the same beginning to the end, without
a limit on the iterations, a bounded search reports a counterexample if the one
with pruning does. If it reports one and the search with pruning does not, then
a gapped cycle can be reached, so that for a uniform automaton the verdicts are
the same. Over a finite product in which every application succeeds both plays
come to the end, with a limit on the nodes that can be relaxed once for each
point. -/
theorem pruning_misses_only_gapped_cycles [Acceptor R A] [Acceptor R B] (explorer : Explorer)
    (allowance : Nat) (automaton : Automaton) (prototype : Boundary) (space : StateSpace R)
    (start : Option StateId) (acceptor : A) (acceptorPruned : B) (history : space.HasHistory)
    (unlimited : explorer.config.maxIterations = 0) :
    let plain := explorer.play allowance (BoundedSearch.create automaton prototype false) space
      start acceptor
    let pruned := explorer.play allowance (BoundedSearch.create automaton prototype true) space
      start acceptorPruned
    (plain.Complete → pruned.Complete →
      (pruned.reports = true → plain.reports = true) ∧
      (plain.reports = true → pruned.reports = true ∨ HasGappedCycle pruned.space automaton
        (start.getD StateSpace.startState, automaton.initial)) ∧
      (automaton.Uniform → (pruned.reports = true ↔ plain.reports = true))) ∧
    (∀ (draft : Draft) (graph : R.Graph), draft.build = .ok automaton →
      space.graph? (start.getD StateSpace.startState) = some graph → R.Succeeds space.engine →
      (reachablePoints R automaton (graph, automaton.initial)).Finite →
      prototype.limit.Fits (reachablePoints R automaton (graph, automaton.initial)).ncard →
      (reachablePoints R automaton (graph, automaton.initial)).ncard *
        ((reachablePoints R automaton (graph, automaton.initial)).ncard + 1) < allowance →
      (plain.Unhindered → plain.Complete) ∧ (pruned.Unhindered → pruned.Complete)) := by
  intro plain pruned
  constructor
  · rintro ⟨⟨outcome, endedPlain⟩, dryPlain⟩ ⟨⟨_, endedPruned⟩, dry⟩
    have contained := Explorer.contains_of_play endedPlain
    obtain ⟨begun, begins⟩ := explorer.begins_of_contains acceptor contained
    obtain ⟨begunPruned, beginsPruned⟩ := explorer.begins_of_contains acceptorPruned contained
    have alike := BoundedSearch.Alike.of_begins history unlimited begins beginsPruned automaton
      prototype
    obtain ⟨_, _, madePlain, _⟩ := BoundedSearch.play_made_of_dry rfl endedPlain dryPlain begins
    obtain ⟨_, final, madePruned, sameSpace⟩ :=
      BoundedSearch.play_made_of_dry rfl endedPruned dry beginsPruned
    have reports := alike.reports madePlain dryPlain madePruned dry
    have misses : plain.reports = true → pruned.reports = true ∨ HasGappedCycle pruned.space
        automaton (start.getD StateSpace.startState, automaton.initial) := by
      intro found
      obtain ⟨states, isFound⟩ := Option.isSome_iff_exists.1 found
      cases missed : pruned.strategy.search.counterExample with
      | some _ => exact .inl (congrArg Option.isSome missed)
      | none =>
          have gapped := alike.misses madePlain madePruned dry isFound missed
          rw [begins.spec.2.1, sameSpace] at gapped
          exact .inr gapped
    exact ⟨reports, misses, fun uniform =>
      ⟨reports, fun found => (misses found).resolve_right uniform.not_gapped⟩⟩
  · intro draft graph built stored succeeds finite fits enough
    have located := Draft.located_of_build built
    exact ⟨fun unhindered =>
        unhindered.complete history stored rfl located succeeds finite fits enough,
      fun unhindered =>
        unhindered.complete history stored rfl located succeeds finite fits enough⟩

/-- Two ways from home down to the valley, of which the one over the ridge
takes longer. -/
def ridgeSystem : LabelledSystem :=
  { nodes := #[{ name := "home" }, { name := "ridge" }, { name := "valley" }]
    edges := #[⟨⟨0⟩, "far", ⟨1⟩⟩, ⟨⟨0⟩, "near", ⟨2⟩⟩, ⟨⟨1⟩, "on", ⟨2⟩⟩] }

/-- Three locations in a circle, of which the second is accepting, and one that
leads to the first. -/
def lateDraft : Draft :=
  { locations := [⟨"start", false⟩, ⟨"before", false⟩, ⟨"at", true⟩, ⟨"after", false⟩]
    initial := some "start"
    edges := [⟨"start", .always, "before"⟩, ⟨"before", .always, "at"⟩, ⟨"at", .always, "after"⟩,
      ⟨"after", .always, "before"⟩] }

def lateAutomaton : Automaton :=
  { locations := #[⟨"start", false, [⟨.always, ⟨1⟩⟩]⟩, ⟨"before", false, [⟨.always, ⟨2⟩⟩]⟩,
      ⟨"at", true, [⟨.always, ⟨3⟩⟩]⟩, ⟨"after", false, [⟨.always, ⟨1⟩⟩]⟩]
    initial := ⟨0⟩ }

/-- A play in which the way over the ridge is left for the second iteration. -/
def ridgePlay (pocket : Bool) : Played ridgeSystem.rules BoundedSearch CounterExamples :=
  ({} : Explorer).play 280 (BoundedSearch.create lateAutomaton (Boundary.ruleSet ["far"]) pocket)
    (StateSpace.create ridgeSystem.rules {}) none {}

theorem ridgePlay_outcome :
    (ridgePlay false).outcome =
        some (.ok ⟨.accepted, 9, 3, "counterexample of length 5 (1 found)"⟩) ∧
      (ridgePlay false).strategy.search.counterExample = some [⟨0⟩, ⟨1⟩, ⟨2⟩, ⟨2⟩, ⟨2⟩] ∧
      (ridgePlay true).outcome = some (.ok ⟨.exhausted, 6, 3, "no counterexample found"⟩) ∧
      (ridgePlay true).strategy.search.counterExample = none := by
  decide +kernel

/-- By the near way the circle is entered before the accepting location, and is
not reported. It is marked as a pocket all the same, so that over the ridge only
the search without pruning enters it again, at the accepting location. -/
theorem pruning_misses_the_late_circle :
    ridgeSystem.rules.Succeeds {} ∧ { node | ridgeSystem.rules.Reachable node }.Finite ∧
      lateDraft.build = .ok lateAutomaton ∧ (ridgePlay false).Complete ∧
      (ridgePlay true).Complete ∧ (ridgePlay false).reports = true ∧
      (ridgePlay true).reports = false := by
  obtain ⟨ended, found, endedPruned, missed⟩ := ridgePlay_outcome
  exact ⟨LabelledSystem.succeeds_of_calm fun _ => rfl, LabelledSystem.finite_reachable,
    by decide +kernel, ⟨⟨_, ended⟩, by decide +kernel⟩, ⟨⟨_, endedPruned⟩, by decide +kernel⟩,
    congrArg Option.isSome found, congrArg Option.isSome missed⟩

/-- Both plays come to the end, and so the circle that only one of them reports
has a gap. -/
theorem ridgePlay_misses_gapped_cycle :
    (StateSpace.create ridgeSystem.rules {}).HasHistory ∧ ridgeSystem.rules.Succeeds {} ∧
      lateDraft.build = .ok lateAutomaton ∧ (ridgePlay false).Unhindered ∧
      (ridgePlay true).Unhindered ∧ (ridgePlay false).Complete ∧ (ridgePlay true).Complete ∧
      (ridgePlay false).reports = true ∧ (ridgePlay true).reports = false ∧
      HasGappedCycle (ridgePlay true).space lateAutomaton
        (StateSpace.startState, lateAutomaton.initial) := by
  have history : (StateSpace.create ridgeSystem.rules {}).HasHistory := ⟨{}, .refl⟩
  have succeeds : ridgeSystem.rules.Succeeds {} := LabelledSystem.succeeds_of_calm fun _ => rfl
  have built : lateDraft.build = .ok lateAutomaton := by decide +kernel
  have unhindered : ∀ pocket, (ridgePlay pocket).Unhindered := by
    intro pocket
    refine ⟨?_, ?_⟩ <;> cases pocket <;> decide +kernel
  obtain ⟨_, found, _, missed⟩ := ridgePlay_outcome
  have reports : (ridgePlay false).reports = true := congrArg Option.isSome found
  have silent : (ridgePlay true).reports = false := congrArg Option.isSome missed
  obtain ⟨finite, few⟩ : (reachablePoints ridgeSystem.rules lateAutomaton
        (⟨0⟩, lateAutomaton.initial)).Finite ∧
      (reachablePoints ridgeSystem.rules lateAutomaton
        (⟨0⟩, lateAutomaton.initial)).ncard ≤ 4 * 4 :=
    LabelledSystem.reachablePoints_bounded (Draft.located_of_build built) .start
  have enough := Nat.lt_of_le_of_lt (Nat.mul_le_mul few (Nat.succ_le_succ few))
    (show 16 * 17 < 280 by decide)
  obtain ⟨verdicts, ends⟩ := pruning_misses_only_gapped_cycles ({} : Explorer) 280 lateAutomaton
    (Boundary.ruleSet ["far"]) (StateSpace.create ridgeSystem.rules {}) none
    ({} : CounterExamples) ({} : CounterExamples) history rfl
  obtain ⟨completes, completesPruned⟩ :=
    ends lateDraft ⟨0⟩ built rfl succeeds finite trivial enough
  have complete := completes (unhindered false)
  have completePruned := completesPruned (unhindered true)
  have gapped := ((verdicts complete completePruned).2.1 reports).resolve_left (by
    change ¬ (ridgePlay true).reports = true
    rw [silent]
    decide)
  exact ⟨history, succeeds, built, unhindered false, unhindered true, complete, completePruned,
    reports, silent, gapped⟩

end OnTheFly
