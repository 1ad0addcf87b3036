import OnTheFly.Proofs.Exploration.Collecting
import OnTheFly.Proofs.Strategy.Any
import OnTheFly.Proofs.Strategy.EventLog

/-!
Contract: what acceptors answer after a play.

Owns: that a strategy which does not search for cycles only explores; and that
after a play under such a strategy, however it ends, the answers are exactly the
final states, or exactly the states that satisfy the predicate.
-/

set_option autoImplicit false

namespace OnTheFly

open Exploration

variable {R : RuleSystem}

/-! ## Strategies that explore -/

namespace AnyStrategy

variable {G A : Type} [Chooser G] [Acceptor R A] {strategy : AnyStrategy G}
  {run : Exploration R A}

theorem prepare_plain (plain : strategy.search? = none) (run : Exploration R A) :
    ∃ ready opened, Strategy.prepare strategy run = (.ok (), ready, opened) ∧
      ready.search? = none ∧ run.Explores opened := by
  cases strategy with
  | closing held => exact ⟨_, _, rfl, rfl, .aside .none rfl rfl⟩
  | linear held => exact ⟨_, _, rfl, rfl, .none⟩
  | ltl held => cases plain
  | bounded held => cases plain

theorem doNext_plain (plain : strategy.search? = none) (history : run.space.HasHistory) :
    (Strategy.doNext strategy run).2.1.search? = none ∧
      run.Explores (Strategy.doNext strategy run).2.2 := by
  cases strategy with
  | closing held => exact ⟨rfl, held.doNext_explores history⟩
  | linear held => exact ⟨rfl, held.doNext_explores history⟩
  | ltl held => cases plain
  | bounded held => cases plain

theorem attempts_plain (plain : strategy.search? = none) (history : run.space.HasHistory)
    {trail : List (AnyStrategy G × Except Failure StateId)} {current : AnyStrategy G}
    {now : Exploration R A} (attempts : Attempts strategy run trail current now) :
    current.search? = none ∧ run.Explores now := by
  induction attempts with
  | prepared prepare =>
      obtain ⟨ready, opened, prepared, readyPlain, explores⟩ := prepare_plain plain run
      cases prepare.symm.trans prepared
      exact ⟨readyPlain, explores⟩
  | attempted _ step inductionHypothesis =>
      obtain ⟨currentPlain, explores⟩ := inductionHypothesis
      have next := doNext_plain currentPlain (history.evolves explores.operates.evolves)
      rw [step] at next
      exact ⟨next.1, explores.trans next.2⟩
  | observed _ _ _ inductionHypothesis =>
      exact ⟨inductionHypothesis.1, .aside inductionHypothesis.2 rfl rfl⟩

theorem playRun_plain (plain : strategy.search? = none) (history : run.space.HasHistory)
    (allowance : Nat) : run.Explores (playRun allowance strategy run).run := by
  obtain ⟨_, _, prepare, _⟩ := prepare_plain plain run
  obtain ⟨_, attempts⟩ := playRun_attempts allowance prepare
  exact (attempts_plain plain history attempts).2

end AnyStrategy

/-! ## Answers of a play -/

section

variable {G A : Type} [Chooser G] [Acceptor R A] {check : StateSpace R → A → StateId → A}
  {subject? : Event → Option StateId} {wanted : A → StateSpace R → StateId → Bool}
  {space : StateSpace R}

/-- A play begins with the wanted states of the space, however stale the answers
of the acceptor were. -/
theorem Explorer.Begins.collected {explorer : Explorer} {start : Option StateId} {acceptor : A}
    {begun : Exploration R A} (collects : Acceptor.Collects R check subject? wanted)
    (history : space.HasHistory) (begins : explorer.Begins space start acceptor begun) :
    Collected wanted (wanted acceptor) begun := by
  obtain ⟨same, exactly⟩ := collects.prepared space acceptor
  have drained : space.drainEvents.2.HasHistory := history.evolves (.single (.drain space))
  -- Draining the events changes nothing that an acceptor could want.
  have forth : space.Continues space.drainEvents.2 :=
    history.wellFormed.continues_of_same_entries rfl rfl rfl
  have back : space.drainEvents.2.Continues space :=
    drained.wellFormed.continues_of_same_entries rfl rfl rfl
  unfold Explorer.Begins Exploration.begin at begins
  split at begins
  · cases begins
    exact ⟨drained, rfl, same, exactly.congr fun state =>
      ⟨collects.lasting forth.kept, collects.lasting back.kept⟩⟩
  · cases begins

theorem Explorer.play_areExactly (collects : Acceptor.Collects R check subject? wanted)
    (history : space.HasHistory) {strategy : AnyStrategy G} (plain : strategy.search? = none)
    (explorer : Explorer) (allowance : Nat) (start : Option StateId) (acceptor : A) :
    (Acceptor.answers (R := R)
      (explorer.play allowance strategy space start acceptor).acceptor).AreExactly
        fun state => wanted acceptor (explorer.play allowance strategy space start acceptor).space
          state = true := by
  cases contained : space.contains (start.getD StateSpace.startState) with
  | false =>
      unfold Explorer.play Exploration.begin
      simp only [contained, Bool.false_eq_true, if_false]
      exact (collects.prepared space acceptor).2
  | true =>
      obtain ⟨begun, begins⟩ := explorer.begins_of_contains acceptor contained
      obtain ⟨_, _, sameSpace, sameAcceptor, _⟩ := begins.play allowance strategy
      have collected := begins.collected collects history
      rw [sameSpace, sameAcceptor]
      exact (collected.explores collects
        (AnyStrategy.playRun_plain plain collected.history allowance)).exactly

end

/-- After a play under a strategy that does not search for cycles, from any
state of any space with a history and however the play ends, the answers of the
acceptor of final states are the closed states without outgoing transitions, and
those of an acceptor with a predicate are the states whose graph satisfies it,
each of them once. What the acceptor held before the play does not count. -/
theorem plain_play_answers_exactly {G : Type} [Chooser G] {space : StateSpace R}
    (history : space.HasHistory) {strategy : AnyStrategy G} (plain : strategy.search? = none)
    (explorer : Explorer) (allowance : Nat) (start : Option StateId) :
    (∀ acceptor : FinalStates,
      (explorer.play allowance strategy space start acceptor).acceptor.answers.AreExactly
        fun state =>
          (explorer.play allowance strategy space start acceptor).space.isClosed state = true ∧
            (explorer.play allowance strategy space start acceptor).space.out state = []) ∧
      ∀ acceptor : MatchingStates R,
        (explorer.play allowance strategy space start acceptor).acceptor.answers.AreExactly
          fun state => ∃ graph,
            (explorer.play allowance strategy space start acceptor).space.graph? state =
              some graph ∧ acceptor.predicate graph = true := by
  constructor
  · intro acceptor
    refine (explorer.play_areExactly FinalStates.collects history plain allowance start
      acceptor).congr fun state => ?_
    rw [FinalStates.isFinal, Bool.and_eq_true, List.isEmpty_iff]
  · intro acceptor
    exact (explorer.play_areExactly MatchingStates.collects history plain allowance start
      acceptor).congr fun state => Option.any_eq_true _ _

/-- A yard whose barn has a way down that is interrupted once. -/
def yardSystem : LabelledSystem :=
  { nodes := #[{ name := "gate" }, { name := "shed" }, { name := "barn" }, { name := "well" }]
    edges := #[⟨⟨0⟩, "enter", ⟨1⟩⟩, ⟨⟨0⟩, "cross", ⟨2⟩⟩, ⟨⟨2⟩, "descend", ⟨3⟩⟩]
    interruptions := ⟨[("descend", 1)]⟩ }

def yardSpace : StateSpace yardSystem.rules :=
  StateSpace.create yardSystem.rules yardSystem.interruptions

/-- Answers that earlier runs could have left. -/
def staleAnswers : Answers :=
  { states := [⟨0⟩, ⟨7⟩], bound := 5 }

def yardFinal : Played yardSystem.rules (AnyStrategy StreamChooser) FinalStates :=
  ({} : Explorer).play 9 (.closing .breadthFirst) yardSpace none ⟨staleAnswers⟩

def yardInside : Played yardSystem.rules (AnyStrategy StreamChooser)
    (MatchingStates yardSystem.rules) :=
  ({} : Explorer).play 9 (.closing .breadthFirst) yardSpace none
    ⟨fun (node : NodeId) => 0 < node.index, staleAnswers⟩

theorem yard_answered_exactly :
    yardSpace.HasHistory ∧
      yardFinal.outcome = some (.ok ⟨.interrupted, 2, 3, "1 final state"⟩) ∧
      yardFinal.acceptor.answers.states = [⟨1⟩] ∧
      yardFinal.acceptor.answers.AreExactly (fun state =>
        yardFinal.space.isClosed state = true ∧ yardFinal.space.out state = []) ∧
      yardInside.acceptor.answers.states = [⟨1⟩, ⟨2⟩] ∧
      yardInside.acceptor.answers.AreExactly fun state => ∃ graph,
        yardInside.space.graph? state = some graph ∧ 0 < graph.index := by
  have history : yardSpace.HasHistory := ⟨yardSystem.interruptions, .refl⟩
  have plain : (.closing .breadthFirst : AnyStrategy StreamChooser).search? = none := rfl
  obtain ⟨final, matching⟩ := plain_play_answers_exactly history plain {} 9 none
  refine ⟨history, by decide +kernel, by decide +kernel, final ⟨staleAnswers⟩,
    by decide +kernel, (matching ⟨_, staleAnswers⟩).congr fun state => ?_⟩
  simp only [decide_eq_true_eq]
  rfl

end OnTheFly
