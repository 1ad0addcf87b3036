import OnTheFly.Proofs.Exploration.Steps
import OnTheFly.Proofs.ModelCheck.Bounded.Termination
import OnTheFly.Proofs.ModelCheck.Colours
import OnTheFly.Proofs.Strategy.Closing
import OnTheFly.Strategy.Any

/-!
Contract: what every strategy keeps to, whatever its steps answer.

Owns: the invariant of a strategy of any kind, that the only breach it can meet
is a limit that cannot be relaxed, and the three colours of every search.

A strategy counts the matches of a state before it applies any of them, so no
position is out of range, even if the state is not stored.
-/

set_option autoImplicit false

namespace OnTheFly

/-! ## Exhaustive exploration -/

namespace Closing

variable {R : RuleSystem} {A : Type}

theorem run_claimAll (states : List StateId) (closing : Closing) (run : Exploration R A) :
    ∃ known, (closing.claimAll run states).2 = { run with known := known } := by
  obtain ⟨_, known, claims, _⟩ := claimAll_eq_enqueueAll states closing run
  exact ⟨known, by rw [claims]⟩

variable [Acceptor R A]

/-- Queueing does not change what is applied. -/
theorem applyAndQueue_eq (state : StateId) (count : Nat) (closing : Closing)
    (run : Exploration R A) :
    (applyAndQueue state count closing run).1 =
        (Exploration.applyFirst state count run).1.map (fun _ => ()) ∧
      (applyAndQueue state count closing run).2.2 =
        (Exploration.applyFirst state count run).2 := by
  induction count generalizing closing run with
  | zero => exact ⟨rfl, rfl⟩
  | succ count inductionHypothesis =>
      unfold applyAndQueue Exploration.applyFirst
      cases first : run.applyMatch state 0 with
      | mk result next =>
          cases result with
          | error failure => exact ⟨rfl, rfl⟩
          | ok applied =>
              obtain ⟨sameResult, sameRun⟩ := inductionHypothesis
                (if applied.fresh then closing.enqueue next.space applied.target else closing) next
              simp only
              rw [sameResult, sameRun]
              cases rest : Exploration.applyFirst state count next with
              | mk restResult final => cases restResult <;> exact ⟨rfl, rfl⟩

/-- A step answers as the closing of its state does. -/
theorem doNext_eq {closing : Closing} {state : StateId} (next : closing.next = some state)
    (run : Exploration R A) :
    ∃ known, (closing.doNext run).1 =
        (({ run with known := known } : Exploration R A).closeState state).1.map (fun _ => state) ∧
      (closing.doNext run).2.2 =
        (({ run with known := known } : Exploration R A).closeState state).2 := by
  obtain ⟨known, same⟩ :=
    run_claimAll ((run.space.outgoing state).map (·.2.target)) closing run
  refine ⟨known, ?_⟩
  unfold doNext Exploration.closeState
  simp only [next, same]
  generalize (closing.claimAll run ((run.space.outgoing state).map (·.2.target))).1 = claimed
  cases counted : ({ run with known := known } : Exploration R A).pendingCount state with
  | mk count now =>
      obtain ⟨sameResult, sameRun⟩ := applyAndQueue_eq state count claimed now
      simp only
      rw [← sameRun]
      cases closes : (now.applyFirst state count).1 with
      | error failure =>
          rw [closes] at sameResult
          cases applied : applyAndQueue state count claimed now with
          | mk result rest =>
              rw [applied] at sameResult
              cases sameResult
              exact ⟨rfl, rfl⟩
      | ok all =>
          rw [closes] at sameResult
          cases applied : applyAndQueue state count claimed now with
          | mk result rest =>
              rw [applied] at sameResult
              cases sameResult
              exact ⟨rfl, rfl⟩

theorem doNext_unbroken (closing : Closing) {run : Exploration R A}
    (history : run.space.HasHistory) :
    (closing.doNext run).2.2.space.HasHistory ∧
      ∀ breach, (closing.doNext run).1 ≠ .error (.breach breach) := by
  cases next : closing.next with
  | none =>
      unfold doNext
      rw [next]
      exact ⟨history, by simp⟩
  | some state =>
      obtain ⟨known, sameResult, sameRun⟩ := doNext_eq next run
      let claimed : Exploration R A := { run with known := known }
      have unbroken : ∀ breach, (claimed.closeState state).1 ≠ .error (.breach breach) :=
        Exploration.closeState_unbroken history
      rw [sameRun, sameResult]
      refine ⟨history.evolves (Exploration.advances_closeState claimed state).space, ?_⟩
      intro breach broken
      refine unbroken breach ?_
      change Except.map _ (claimed.closeState state).1 = _ at broken
      cases closes : (claimed.closeState state).1 with
      | error failure =>
          rw [closes] at broken
          cases broken
          rfl
      | ok all =>
          rw [closes] at broken
          cases broken

end Closing

/-! ## Exploration along one path -/

namespace Linear

variable {R : RuleSystem} {G A : Type} [Chooser G] [Acceptor R A]

omit [Acceptor R A] in
theorem position_lt (linear : Linear G) {count : Nat} (some_ : count ≠ 0) :
    (linear.position count).1 < count := by
  unfold position
  split
  · exact Chooser.below_lt count linear.chooser (Nat.pos_of_ne_zero some_)
  · exact Nat.pos_of_ne_zero some_

/-- The match that is chosen is a pending one. -/
theorem position_inRange (linear : Linear G) {run : Exploration R A}
    (history : run.space.HasHistory) {state : StateId} (some_ : (run.pendingCount state).1 ≠ 0) :
    (linear.position (run.pendingCount state).1).1 <
      (((run.pendingCount state).2.space.ensureMatches state).pending state).length := by
  obtain ⟨asked, waiting⟩ :=
    Exploration.pendingCount_asked history (Exploration.contains_of_pendingCount some_)
  rw [asked.ensureMatches, waiting]
  exact linear.position_lt some_

theorem advances_doNext (linear : Linear G) (run : Exploration R A) :
    run.Advances (linear.doNext run).2.2 := by
  unfold doNext
  cases linear.next with
  | none => exact .refl run
  | some state =>
      have counted := Exploration.advances_pendingCount run state
      simp only
      split
      · exact counted
      · have applied := Exploration.advances_applyMatch (run.pendingCount state).2 state
          (linear.position (run.pendingCount state).1).1
        split <;> rename_i outcome <;> rw [outcome] at applied <;> exact counted.trans applied

theorem doNext_unbroken (linear : Linear G) {run : Exploration R A}
    (history : run.space.HasHistory) :
    (linear.doNext run).2.2.space.HasHistory ∧
      ∀ breach, (linear.doNext run).1 ≠ .error (.breach breach) := by
  refine ⟨history.evolves (linear.advances_doNext run).space, ?_⟩
  unfold doNext
  split
  · simp
  · simp only
    split
    · simp
    · rename_i some_
      have unbroken := Exploration.applyMatch_unbroken (linear.position_inRange history some_)
      split
      · rename_i outcome
        rw [outcome] at unbroken
        simpa using unbroken
      · simp

end Linear

/-! ## Any strategy -/

namespace AnyStrategy

variable {R : RuleSystem} {G A : Type}

/-- The search of a strategy that searches for cycles. -/
def search? : AnyStrategy G → Option Search
  | .closing _ => none
  | .linear _ => none
  | .ltl held => some held.search
  | .bounded held => some held.search

/-- Whether the automaton of a search was built from a draft. -/
def Built (strategy : AnyStrategy G) : Prop :=
  ∀ search automaton, strategy.search? = some search → search.automaton = some automaton →
    ∃ draft : Draft, draft.build = .ok automaton

section

variable [Acceptor R A]

/-- What a strategy of each kind keeps to. -/
def Keeps (run : Exploration R A) : AnyStrategy G → Prop
  | .closing _ => True
  | .linear _ => True
  | .ltl held => ∃ automaton initial root, automaton.Located ∧
      held.Invariant run automaton initial root ∧ held.search.Placed automaton
  | .bounded held => ∃ automaton initial root, automaton.Located ∧
      held.Lasting run automaton initial root

/-- The invariant of a strategy of any kind. -/
structure Sound (strategy : AnyStrategy G) (run : Exploration R A) : Prop where
  history : run.space.HasHistory
  keeps : strategy.Keeps run
  numbered (search : Search) : strategy.search? = some search → search.Numbered

variable {strategy after : AnyStrategy G} {run later : Exploration R A}

theorem Sound.coherent (sound : strategy.Sound run) {search : Search}
    (isSearch : strategy.search? = some search) :
    ∃ automaton initial, search.Coherent automaton initial run.space := by
  have keeps := sound.keeps
  cases strategy with
  | closing held => cases isSearch
  | linear held => cases isSearch
  | ltl held =>
      cases isSearch
      obtain ⟨automaton, initial, root, _, invariant, _⟩ := keeps
      exact ⟨automaton, initial, invariant.faithful.coherent⟩
  | bounded held =>
      cases isSearch
      obtain ⟨automaton, initial, root, _, lasting⟩ := keeps
      exact ⟨automaton, initial, lasting.coherent⟩

theorem Sound.observed (sound : strategy.Sound run) (progress : Option Progress)
    (stopRequested : Bool) :
    strategy.Sound { run with progress := progress, stopRequested := stopRequested } := by
  refine ⟨sound.history, ?_, sound.numbered⟩
  have keeps := sound.keeps
  cases strategy with
  | closing held => trivial
  | linear held => trivial
  | ltl held =>
      obtain ⟨automaton, initial, root, located, invariant, placed⟩ := keeps
      exact ⟨automaton, initial, root, located,
        { invariant with faithful := { invariant.faithful with } }, placed⟩
  | bounded held =>
      obtain ⟨automaton, initial, root, located, lasting⟩ := keeps
      exact ⟨automaton, initial, root, located, lasting.observed progress stopRequested⟩

variable [Chooser G]

theorem prepare_sound {ready : AnyStrategy G} (built : strategy.Built)
    (history : run.space.HasHistory) (contained : run.space.contains run.start = true)
    (prepare : Strategy.prepare strategy run = (.ok (), ready, later)) : ready.Sound later := by
  cases strategy with
  | closing held =>
      cases prepare
      exact ⟨history, trivial, fun _ isSearch => by cases isSearch⟩
  | linear held =>
      cases prepare
      exact ⟨history, trivial, fun _ isSearch => by cases isSearch⟩
  | ltl held =>
      change wrap .ltl (Strategy.prepare held run) = _ at prepare
      cases prepared : held.prepare run with
      | error error => simp [Strategy.prepare, prepared, wrap] at prepare
      | ok readied =>
          rw [LtlSearch.strategy_prepare.2 ⟨prepared, rfl⟩] at prepare
          cases prepare
          cases installed : held.search.automaton with
          | none => simp [LtlSearch.prepare, Search.reset, installed] at prepared
          | some automaton =>
              obtain ⟨draft, build⟩ := built _ automaton rfl installed
              have located := Draft.located_of_build build
              obtain ⟨initial, pristine, invariant⟩ :=
                LtlSearch.prepare_invariant history contained installed prepared
              refine ⟨history, ⟨automaton, initial, _, located, invariant, ?_⟩, ?_⟩
              · exact pristine.placed located invariant.faithful.rooted
              · intro search isSearch
                cases isSearch
                exact pristine.numbered
  | bounded held =>
      change wrap .bounded (Strategy.prepare held run) = _ at prepare
      cases prepared : held.prepare run with
      | error error => simp [Strategy.prepare, prepared, wrap] at prepare
      | ok rest =>
          obtain ⟨readied, opened⟩ := rest
          rw [BoundedSearch.strategy_prepare.2 prepared] at prepare
          cases prepare
          cases installed : held.search.automaton with
          | none => simp [BoundedSearch.prepare, Search.reset, installed] at prepared
          | some automaton =>
              obtain ⟨draft, build⟩ := built _ automaton rfl installed
              have located := Draft.located_of_build build
              obtain ⟨initial, pristine, steady⟩ :=
                BoundedSearch.prepare_steady history contained installed located prepared
              refine ⟨steady.invariant.faithful.history,
                ⟨automaton, initial, _, located, .steady steady⟩, ?_⟩
              intro search isSearch
              cases isSearch
              exact pristine.numbered

/-- What one step of any strategy does. -/
theorem Sound.doNext {result : Except Failure StateId} (sound : strategy.Sound run)
    (step : Strategy.doNext strategy run = (result, after, later)) :
    (∀ breach, result = .error (.breach breach) → breach = .overflow) ∧ after.Sound later ∧
      ∀ search, strategy.search? = some search →
        ∃ searchAfter, after.search? = some searchAfter ∧ search.Recolours searchAfter := by
  have keeps := sound.keeps
  have history := sound.history
  cases strategy with
  | closing held =>
      obtain ⟨historyAfter, unbroken⟩ := held.doNext_unbroken history
      cases step
      exact ⟨fun breach broken => absurd broken (unbroken breach),
        ⟨historyAfter, trivial, fun _ isSearch => by cases isSearch⟩,
        fun _ isSearch => by cases isSearch⟩
  | linear held =>
      obtain ⟨historyAfter, unbroken⟩ := held.doNext_unbroken history
      cases step
      exact ⟨fun breach broken => absurd broken (unbroken breach),
        ⟨historyAfter, trivial, fun _ isSearch => by cases isSearch⟩,
        fun _ isSearch => by cases isSearch⟩
  | ltl held =>
      obtain ⟨automaton, initial, root, located, invariant, placed⟩ := keeps
      change wrap .ltl (held.doNext run) = _ at step
      cases inner : held.doNext run with
      | mk answer rest =>
          rw [inner] at step
          cases step
          obtain ⟨unbroken, invariantAfter, placedAfter, recolours⟩ :=
            LtlSearch.doNext_recolours located invariant placed inner
          refine ⟨fun breach broken => absurd broken (unbroken breach),
            ⟨invariantAfter.faithful.history, ⟨automaton, initial, root, located, invariantAfter,
              placedAfter⟩, ?_⟩, ?_⟩
          · intro search isSearch
            cases isSearch
            exact recolours.numbered (sound.numbered _ rfl)
          · intro search isSearch
            cases isSearch
            exact ⟨_, rfl, recolours⟩
  | bounded held =>
      obtain ⟨automaton, initial, root, located, lasting⟩ := keeps
      change wrap .bounded (held.doNext run) = _ at step
      cases inner : held.doNext run with
      | mk answer rest =>
          rw [inner] at step
          cases step
          obtain ⟨steps, lastingAfter⟩ := lasting.doNext located inner
          have historyAfter := history.evolves steps.advances.space
          have recolours := steps.recolours historyAfter.wellFormed
          refine ⟨fun breach broken => ?_,
            ⟨historyAfter, ⟨automaton, initial, root, located, lastingAfter⟩, ?_⟩, ?_⟩
          · change answer = _ at broken
            rw [broken] at steps
            exact steps.breach
          · intro search isSearch
            cases isSearch
            exact recolours.numbered (sound.numbered _ rfl)
          · intro search isSearch
            cases isSearch
            exact ⟨_, rfl, recolours⟩

/-- What was left behind keeps its colour until the round is over. -/
theorem Sound.calls (sound : strategy.Sound run) (calls : Calls strategy run after later) :
    after.Sound later ∧ ∀ search, strategy.search? = some search →
      ∃ searchAfter, after.search? = some searchAfter ∧
        search.round.iteration ≤ searchAfter.round.iteration ∧
        (searchAfter.round = search.round → ∀ state,
          search.product.colour state ∈ [search.round.blue, search.round.red] →
          searchAfter.product.colour state = search.product.colour state) := by
  induction calls with
  | none => exact ⟨sound, fun search isSearch => ⟨search, isSearch, Nat.le_refl _, fun _ _ _ => rfl⟩⟩
  | observed progress stopRequested _ inductionHypothesis =>
      exact ⟨inductionHypothesis.1.observed progress stopRequested, inductionHypothesis.2⟩
  | called _ step inductionHypothesis =>
      obtain ⟨soundNow, keeps⟩ := inductionHypothesis
      obtain ⟨_, soundAfter, recolours⟩ := soundNow.doNext step
      refine ⟨soundAfter, fun search isSearch => ?_⟩
      obtain ⟨searchNow, isSearchNow, ordered, kept⟩ := keeps search isSearch
      obtain ⟨searchAfter, isSearchAfter, recolour⟩ := recolours searchNow isSearchNow
      refine ⟨searchAfter, isSearchAfter, Nat.le_trans ordered recolour.round, ?_⟩
      intro sameRound state left
      -- Rounds only ever go up, so it was the same round all the time.
      have sameRoundNow : searchNow.round = search.round := by
        have bound := recolour.round
        rw [sameRound] at bound
        exact congrArg Round.mk (Nat.le_antisymm bound ordered)
      have sameColour := kept sameRoundNow state left
      obtain ⟨automaton, initial, coherent⟩ := soundNow.coherent isSearchNow
      rw [← sameColour]
      refine recolour.left_behind coherent ?_
      rw [sameColour, sameRoundNow]
      exact left

end

/-! ## The three colours -/

section

variable [Chooser G] [Acceptor R A]

/-- What holds between two steps of a strategy. The three colours tell the
states on the stack from the others. A state that was left is not painted, on
the stack or next again in its round. The next step meets no breach but a limit
that cannot be relaxed. -/
structure KeepsColours (strategy : AnyStrategy G) (run : Exploration R A) : Prop where
  coloured (search : Search) : strategy.search? = some search → search.ThreeColoured
  left_behind (search searchAfter : Search) (after : AnyStrategy G) (later : Exploration R A)
    (state : ProductStateId) :
    strategy.search? = some search → Calls strategy run after later →
    after.search? = some searchAfter → searchAfter.round = search.round →
    search.product.colour state ∈ [search.round.blue, search.round.red] →
      searchAfter.product.colour state = search.product.colour state ∧
        state ∉ searchAfter.path ∧ ∀ frame, searchAfter.next = some frame → frame.state ≠ state
  unbroken (breach : Breach) :
    (Strategy.doNext strategy run).1 = .error (.breach breach) → breach = .overflow

theorem Sound.keepsColours {strategy : AnyStrategy G} {run : Exploration R A}
    (sound : strategy.Sound run) : strategy.KeepsColours run where
  coloured := by
    intro search isSearch
    obtain ⟨automaton, initial, coherent⟩ := sound.coherent isSearch
    exact coherent.threeColoured (sound.numbered search isSearch)
  left_behind := by
    intro search searchAfter after later state isSearch calls isSearchAfter sameRound left
    obtain ⟨soundAfter, keeps⟩ := sound.calls calls
    obtain ⟨same, isSame, _, kept⟩ := keeps search isSearch
    obtain rfl : searchAfter = same := Option.some.inj (isSearchAfter.symm.trans isSame)
    have sameColour := kept sameRound state left
    obtain ⟨automaton, initial, coherent⟩ := soundAfter.coherent isSearchAfter
    have leftAfter : searchAfter.product.colour state ∈
        [searchAfter.round.blue, searchAfter.round.red] := by
      rw [sameColour, sameRound]
      exact left
    obtain ⟨notOn, notNext⟩ := coherent.left_behind leftAfter
    refine ⟨sameColour, ?_, notNext⟩
    rw [Search.path_eq_reverse, List.mem_reverse]
    exact notOn
  unbroken breach := (sound.doNext rfl).1 breach

end

end AnyStrategy

/-- Whatever the rules, the state space, the automaton, the boundary and the
choices: after a strategy is prepared, and however its steps are called and
whatever they answer, a search keeps its three colours, and no play ends with a
breach other than a limit that cannot be relaxed. -/
theorem three_colours_kept {R : RuleSystem} {G A : Type} [Chooser G] [Acceptor R A]
    (strategy : AnyStrategy G) (built : strategy.Built) :
    (∀ (run opened : Exploration R A) (ready : AnyStrategy G), run.space.HasHistory →
      run.space.contains run.start = true →
      Strategy.prepare strategy run = (.ok (), ready, opened) →
      ∀ current now, Calls ready opened current now → current.KeepsColours now) ∧
    ∀ (explorer : Explorer) (allowance : Nat) (space : StateSpace R) (start : Option StateId)
      (acceptor : A) (breach : Breach), space.HasHistory →
      (explorer.play allowance strategy space start acceptor).outcome =
        some (.error (.breach breach)) → breach = .overflow := by
  constructor
  · intro run opened ready history contained prepare current now calls
    have prepared := AnyStrategy.prepare_sound built history contained prepare
    exact (prepared.calls calls).1.keepsColours
  · intro explorer allowance space start acceptor breach history broken
    obtain ⟨begun, last, final, begins, driven, breaks⟩ := Explorer.play_breach broken
    obtain ⟨drained, _, _, contained, _⟩ := begins.spec
    have historyBegun : begun.space.HasHistory :=
      drained ▸ history.evolves (.single (.drain space))
    obtain ⟨ready, opened, prepare, calls⟩ := driven.calls
    have prepared := AnyStrategy.prepare_sound built historyBegun contained prepare
    exact (prepared.calls calls).1.keepsColours.unbroken breach breaks

/-- A bounded search of the fork as any strategy. -/
def forkSearch : AnyStrategy LastChoice :=
  .bounded (BoundedSearch.create onceAutomaton (Boundary.ruleSet ["leave"]) false)

/-- The search of the fork after so many steps. -/
def forkAfter (steps : Nat) : Stretch forkSystem.rules (AnyStrategy LastChoice) CounterExamples :=
  playRun steps forkSearch forkRun

/-- The search of the fork after one more step. -/
def forkNext (steps : Nat) :
    Except Failure StateId × AnyStrategy LastChoice × Exploration forkSystem.rules CounterExamples :=
  Strategy.doNext (forkAfter steps).strategy (forkAfter steps).run

/-- In its second round the search has left the leaf and is about to leave the
hub for the side. It does not come back to the leaf in this round. -/
theorem forkSearch_three_coloured :
    forkSearch.Built ∧ forkRun.space.HasHistory ∧
      ∃ search searchAfter, (forkAfter 4).strategy.search? = some search ∧
        search.round = ⟨2⟩ ∧ search.path = [⟨0⟩] ∧ search.next.map (·.state) = some ⟨2⟩ ∧
        search.product.colour ⟨1⟩ = search.round.blue ∧ search.ThreeColoured ∧
        (forkNext 4).2.1.search? = some searchAfter ∧ searchAfter.round = search.round ∧
        searchAfter.path = [⟨0⟩, ⟨2⟩] ∧ searchAfter.product.colour ⟨1⟩ = search.round.blue ∧
        ⟨1⟩ ∉ searchAfter.path := by
  have built : forkSearch.Built := by
    intro search automaton isSearch installed
    cases isSearch
    cases installed
    exact ⟨onceDraft, by decide +kernel⟩
  have history : forkRun.space.HasHistory := ⟨{}, .single (.drain _)⟩
  have unfinished : (forkAfter 4).ending = .unfinished := by decide +kernel
  have driven : Driven forkSearch forkRun (forkAfter 4).strategy (forkAfter 4).run :=
    (playRun_driven 4 rfl fun breach broken => by cases unfinished.symm.trans broken).1
  obtain ⟨ready, opened, prepare, calls⟩ := driven.calls
  have keeps := (three_colours_kept forkSearch built).1 forkRun opened ready history rfl prepare
    (forkAfter 4).strategy (forkAfter 4).run calls
  have here : (forkAfter 4).strategy.search?.map (fun search => (search.round, search.path,
      search.next.map (·.state), search.product.colour ⟨1⟩)) =
        some (⟨2⟩, [⟨0⟩], some ⟨2⟩, .painted 2 .blue) := by decide +kernel
  have there : (forkNext 4).2.1.search?.map (fun search => (search.round, search.path)) =
      some (⟨2⟩, [⟨0⟩, ⟨2⟩]) := by decide +kernel
  obtain ⟨search, isSearch, facts⟩ := Option.map_eq_some_iff.1 here
  obtain ⟨searchAfter, isSearchAfter, factsAfter⟩ := Option.map_eq_some_iff.1 there
  simp only [Prod.mk.injEq] at facts factsAfter
  obtain ⟨round, path, next, blue⟩ := facts
  obtain ⟨roundAfter, pathAfter⟩ := factsAfter
  have isBlue : search.product.colour ⟨1⟩ = search.round.blue := by rw [blue, round]; rfl
  obtain ⟨same, notOn, _⟩ := keeps.left_behind search searchAfter _ _ ⟨1⟩ isSearch
    (Calls.none.called rfl) isSearchAfter (roundAfter.trans round.symm) (by simp [isBlue])
  exact ⟨built, history, search, searchAfter, isSearch, round, path, next, isBlue,
    keeps.coloured search isSearch, isSearchAfter, roundAfter.trans round.symm, pathAfter,
    same.trans isBlue, notOn⟩

end OnTheFly
