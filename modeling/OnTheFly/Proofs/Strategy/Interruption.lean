import OnTheFly.Proofs.Exploration.Steps
import OnTheFly.Proofs.RuleSystem.Labelled
import OnTheFly.Proofs.Strategy.Closing
import OnTheFly.Proofs.Strategy.Resumption

/-!
Contract: interruptions leave no trace once the interrupted steps are made again.

Owns: steps that are made again until they are no longer interrupted, that there
are such steps for any number of interruptions, and that they answer, change and
tell what the same steps do without interruptions.
-/

set_option autoImplicit false

namespace OnTheFly

/-! ## Steps that are made again -/

section Repeated

variable {R : RuleSystem} {S A : Type} [Strategy R S] [Acceptor R A]

/-- A step that is made again as long as it is interrupted. -/
inductive Persists :
    S → Exploration R A → Except Failure StateId → S → Exploration R A → Prop where
  | made {strategy next : S} {run later : Exploration R A} {result : Except Failure StateId}
      (step : Strategy.doNext strategy run = (result, next, later))
      (through : result ≠ .error .interrupted) : Persists strategy run result next later
  | again {strategy halted next : S} {run between later : Exploration R A}
      {result : Except Failure StateId}
      (step : Strategy.doNext strategy run = (.error .interrupted, halted, between))
      (rest : Persists halted between result next later) : Persists strategy run result next later

/-- Steps one after the other with what they answer, each made again as long as
it is interrupted. -/
inductive Performs :
    S → Exploration R A → List (Except Failure StateId) → S → Exploration R A → Prop where
  | nothing {strategy : S} {run : Exploration R A} : Performs strategy run [] strategy run
  | step {strategy next last : S} {run later final : Exploration R A}
      {result : Except Failure StateId} {results : List (Except Failure StateId)}
      (first : Persists strategy run result next later)
      (rest : Performs next later results last final) :
      Performs strategy run (result :: results) last final

/-- Steps one after the other with what they answer, each made once. -/
def performed : Nat → S → Exploration R A →
    List (Except Failure StateId) × S × Exploration R A
  | 0, strategy, run => ([], strategy, run)
  | count + 1, strategy, run =>
      let (result, next, later) := Strategy.doNext strategy run
      let (results, last, final) := performed count next later
      (result :: results, last, final)

end Repeated

/-! ## Strategies that can go on -/

namespace AnyStrategy

variable {R : RuleSystem} {G A : Type}

/-- The strategies that can go on after an interruption in a run over this state
space. An interrupted step of exhaustive exploration has already claimed states
from before the run, so there may be none but the start. -/
def Retriable (space : StateSpace R) : AnyStrategy G → Prop
  | .closing _ => space.size = 1
  | .linear _ => False
  | .ltl _ => True
  | .bounded _ => True

/-- What such a strategy keeps to once it is prepared. -/
def Resumable (run : Exploration R A) : AnyStrategy G → Prop
  | .closing _ => ∀ state, run.isKnown state = false
  | .linear _ => False
  | .ltl _ => True
  | .bounded _ => True

variable [Chooser G] [Acceptor R A] {strategy next : AnyStrategy G} {run later : Exploration R A}

theorem Resumable.doNext {result : Except Failure StateId} (resumable : strategy.Resumable run)
    (step : Strategy.doNext strategy run = (result, next, later)) : next.Resumable later := by
  cases strategy with
  | closing held =>
      have known := (held.advances_doNext resumable).known
      cases step
      intro state
      change (held.doNext run).2.2.isKnown state = false
      rw [Exploration.isKnown, known]
      exact resumable state
  | linear held => exact resumable.elim
  | ltl held =>
      cases step
      trivial
  | bounded held =>
      cases step
      trivial

variable [Acceptor.Unaware R A] {budget : R.Engine → Nat} {calm : R.Engine}

omit [Acceptor.Unaware R A] in
theorem bears_of_wrapped {S : Type} [Strategy R S] {held : S} (back : S → AnyStrategy G)
    (wrapped : ∀ (inner : S) (now : Exploration R A),
      Strategy.doNext (back inner) now = wrap back (Strategy.doNext inner now))
    (bears : Bears budget calm held run) : Bears budget calm (back held) run := by
  constructor
  · intro next later step
    rw [wrapped] at step
    cases answer : Strategy.doNext held run with
    | mk result rest =>
        rw [answer] at step
        cases step
        obtain ⟨less, same⟩ := bears.resumed answer
        exact ⟨less, by rw [wrapped, wrapped, same]⟩
  · intro result next later step through
    rw [wrapped] at step ⊢
    cases answer : Strategy.doNext held run with
    | mk result rest =>
        rw [answer] at step
        cases step
        rw [bears.made answer through]
        rfl
  · rw [wrapped]
    exact bears.evolves

theorem Resumable.bears (resumable : strategy.Resumable run) (calms : R.Calms budget calm)
    (history : run.space.HasHistory) : Bears budget calm strategy run := by
  cases strategy with
  | closing held =>
      exact bears_of_wrapped .closing (fun _ _ => rfl) (held.bears calms history resumable)
  | linear held => exact resumable.elim
  | ltl held => exact bears_of_wrapped .ltl (fun _ _ => rfl) (held.bears calms history)
  | bounded held => exact bears_of_wrapped .bounded (fun _ _ => rfl) (held.bears calms history)

/-! ## Repeated steps and calm ones -/

/-- A repeated step does what the calm one does. -/
theorem Resumable.persists {result : Except Failure StateId} (calms : R.Calms budget calm)
    (persists : Persists strategy run result next later) (resumable : strategy.Resumable run)
    (history : run.space.HasHistory) :
    Strategy.doNext strategy (run.withEngine calm) = (result, next, later.withEngine calm) ∧
      next.Resumable later ∧ later.space.HasHistory := by
  induction persists with
  | made step through =>
      have bears := resumable.bears calms history
      have evolves := bears.evolves
      rw [step] at evolves
      exact ⟨bears.made step through, resumable.doNext step, history.evolves evolves⟩
  | again step _ inductionHypothesis =>
      have bears := resumable.bears calms history
      have evolves := bears.evolves
      rw [step] at evolves
      obtain ⟨same, kept⟩ := inductionHypothesis (resumable.doNext step) (history.evolves evolves)
      exact ⟨(bears.resumed step).2.symm.trans same, kept⟩

/-- A step is interrupted only so often. -/
theorem Resumable.exists_persists (calms : R.Calms budget calm)
    (resumable : strategy.Resumable run) (history : run.space.HasHistory) :
    ∃ result next later, Persists strategy run result next later := by
  -- The engine of the state space can interrupt less with every attempt.
  induction left : budget run.space.engine using Nat.strong_induction_on
    generalizing strategy run with
  | _ left inductionHypothesis =>
      have bears := resumable.bears calms history
      cases step : Strategy.doNext strategy run with
      | mk result rest =>
          obtain ⟨next, later⟩ := rest
          by_cases interrupted : result = .error .interrupted
          · subst interrupted
            obtain ⟨less, _⟩ := bears.resumed step
            have evolves := bears.evolves
            rw [step] at evolves
            obtain ⟨result, last, final, persists⟩ :=
              inductionHypothesis _ (left ▸ less) (resumable.doNext step)
                (history.evolves evolves) rfl
            exact ⟨result, last, final, .again step persists⟩
          · exact ⟨result, next, later, .made step interrupted⟩

theorem Resumable.performs {results : List (Except Failure StateId)}
    (calms : R.Calms budget calm) (performs : Performs strategy run results next later)
    (resumable : strategy.Resumable run) (history : run.space.HasHistory) :
    performed results.length strategy (run.withEngine calm) =
      (results, next, later.withEngine calm) := by
  induction performs with
  | nothing => rfl
  | step first _ inductionHypothesis =>
      obtain ⟨same, kept, historyLater⟩ := resumable.persists calms first history
      rw [List.length_cons, performed, same]
      simp only
      rw [inductionHypothesis kept historyLater]

theorem Resumable.exists_performs (calms : R.Calms budget calm) (count : Nat)
    (resumable : strategy.Resumable run) (history : run.space.HasHistory) :
    ∃ results last final, results.length = count ∧ Performs strategy run results last final := by
  induction count generalizing strategy run with
  | zero => exact ⟨[], strategy, run, rfl, .nothing⟩
  | succ count inductionHypothesis =>
      obtain ⟨result, next, later, first⟩ := resumable.exists_persists calms history
      obtain ⟨_, kept, historyLater⟩ := resumable.persists calms first history
      obtain ⟨results, last, final, length, rest⟩ := inductionHypothesis kept historyLater
      exact ⟨result :: results, last, final, by rw [List.length_cons, length], .step first rest⟩

/-! ## Beginnings -/

omit [Acceptor.Unaware R A] in
theorem prepare_withEngine (strategy : AnyStrategy G) (run : Exploration R A)
    (engine : R.Engine) :
    Strategy.prepare strategy (run.withEngine engine) =
      ((Strategy.prepare strategy run).1, (Strategy.prepare strategy run).2.1,
        (Strategy.prepare strategy run).2.2.withEngine engine) := by
  cases strategy with
  | closing held => rfl
  | linear held => rfl
  | ltl held =>
      simp only [Strategy.prepare, AnyStrategy.prepare, LtlSearch.prepare]
      have start : (run.withEngine engine).start = run.start := rfl
      rw [start]
      cases held.search.reset run.start <;> rfl
  | bounded held =>
      simp only [Strategy.prepare, AnyStrategy.prepare, BoundedSearch.prepare]
      have start : (run.withEngine engine).start = run.start := rfl
      rw [start]
      cases held.search.reset run.start <;> rfl

omit [Acceptor.Unaware R A] in
theorem space_prepare (strategy : AnyStrategy G) (run : Exploration R A) :
    (Strategy.prepare strategy run).2.2.space = run.space := by
  cases strategy with
  | closing held => rfl
  | linear held => rfl
  | ltl held =>
      simp only [Strategy.prepare, AnyStrategy.prepare, LtlSearch.prepare]
      cases held.search.reset run.start <;> rfl
  | bounded held =>
      simp only [Strategy.prepare, AnyStrategy.prepare, BoundedSearch.prepare]
      cases held.search.reset run.start <;> rfl

omit [Acceptor.Unaware R A] in
theorem Retriable.resumable {explorer : Explorer} {space : StateSpace R} {start : Option StateId}
    {acceptor : A} {begun opened : Exploration R A} {ready : AnyStrategy G}
    (retriable : strategy.Retriable space)
    (begins : explorer.Begins space start acceptor begun)
    (prepare : Strategy.prepare strategy begun = (.ok (), ready, opened)) :
    ready.Resumable opened := by
  cases strategy with
  | closing held =>
      obtain ⟨sameSpace, _, _, contained, known⟩ := begins.spec
      cases prepare
      intro state
      have only : ∀ other, begun.space.contains other = true → other.index = 0 := by
        intro other stored
        have size : begun.space.size = 1 := by
          rw [sameSpace]
          exact retriable
        have bound : other.index < begun.space.size := by
          simpa [StateSpace.contains, StateSpace.size] using stored
        omega
      change (begun.forgetKnown begun.start).isKnown state = false
      rw [← Bool.not_eq_true, Exploration.isKnown_forgetKnown, known]
      rintro ⟨stored, differs⟩
      have sameIndex := (only state stored).trans (only begun.start contained).symm
      exact differs (congrArg StateId.mk sameIndex)
  | linear held => exact retriable.elim
  | ltl held =>
      cases congrArg (·.2.1) prepare
      trivial
  | bounded held =>
      cases congrArg (·.2.1) prepare
      trivial

end AnyStrategy

theorem Explorer.Begins.withEngine {R : RuleSystem} {A : Type} [Acceptor R A]
    [Acceptor.Unaware R A] {explorer : Explorer} {space : StateSpace R} {start : Option StateId}
    {acceptor : A} {begun : Exploration R A} (begins : explorer.Begins space start acceptor begun)
    (engine : R.Engine) :
    explorer.Begins (space.withEngine engine) start acceptor (begun.withEngine engine) := by
  unfold Explorer.Begins at begins ⊢
  rw [Acceptor.Unaware.prepare]
  unfold Exploration.begin at begins ⊢
  split at begins
  · rename_i contained
    have containedToo :
        (space.withEngine engine).contains (start.getD StateSpace.startState) = true := contained
    rw [if_pos containedToo]
    cases begins
    rfl
  · cases begins

/-- Interruptions leave no trace. Any number of steps can be made over a labelled
system, however often its rules are interrupted, if interrupted steps are made
again. Their answers and what they leave, in the strategy, in the state space and
with the acceptor, are those of as many steps over the same state space when
nothing interrupts them. -/
theorem LabelledSystem.interruptions_leave_no_trace {system : LabelledSystem} {G A : Type}
    [Chooser G] [Acceptor system.rules A] [Acceptor.Unaware system.rules A]
    {explorer : Explorer} {space : StateSpace system.rules} {start : Option StateId}
    {acceptor : A} {begun opened : Exploration system.rules A}
    {strategy ready : AnyStrategy G} {calm : Interruptions} (history : space.HasHistory)
    (begins : explorer.Begins space start acceptor begun) (retriable : strategy.Retriable space)
    (prepare : Strategy.prepare strategy begun = (.ok (), ready, opened))
    (nothing : ∀ rule, calm.count rule = 0) :
    explorer.Begins (space.withEngine calm) start acceptor (begun.withEngine calm) ∧
      Strategy.prepare strategy (begun.withEngine calm) =
        (.ok (), ready, opened.withEngine calm) ∧
      (∀ count, ∃ results last final,
        results.length = count ∧ Performs ready opened results last final) ∧
      ∀ results last final, Performs ready opened results last final →
        performed results.length ready (opened.withEngine calm) =
          (results, last, final.withEngine calm) := by
  have resumable := retriable.resumable begins prepare
  have historyOpened : opened.space.HasHistory := by
    have kept := AnyStrategy.space_prepare strategy begun
    rw [prepare] at kept
    rw [kept]
    exact Exploration.history_of_begin history begins
  have prepareToo := AnyStrategy.prepare_withEngine strategy begun calm
  rw [prepare] at prepareToo
  refine ⟨begins.withEngine calm, prepareToo, ?_, ?_⟩
  · exact fun count => resumable.exists_performs (calms nothing) count historyOpened
  · exact fun results last final performs =>
      AnyStrategy.Resumable.performs (calms nothing) performs resumable historyOpened

/-- A node with two successors. The rule that leads to the second one is
interrupted twice. -/
def forkedSystem : LabelledSystem :=
  { nodes := #[{ name := "fork" }, { name := "left" }, { name := "right" }]
    edges := #[⟨⟨0⟩, "turn left", ⟨1⟩⟩, ⟨⟨0⟩, "turn right", ⟨2⟩⟩]
    interruptions := ⟨[("turn right", 2)]⟩ }

def forkedSpace : StateSpace forkedSystem.rules :=
  StateSpace.create forkedSystem.rules forkedSystem.interruptions

/-- A run over the fork that logs every callback. -/
def forkedRun : Exploration forkedSystem.rules Recorder :=
  { space := forkedSpace.drainEvents.2
    acceptor := { answers := {} }
    config := {}
    start := StateSpace.startState
    known := #[true]
    progress := none
    stopRequested := false }

def forkedStrategy : AnyStrategy StreamChooser :=
  .closing .depthFirst

theorem forkedRun_interruptions_leave_no_trace :
    forkedSpace.HasHistory ∧ Explorer.Begins {} forkedSpace none { answers := {} } forkedRun ∧
      forkedStrategy.Retriable forkedSpace ∧
      ∃ ready opened, Strategy.prepare forkedStrategy forkedRun = (.ok (), ready, opened) ∧
        (Strategy.doNext ready opened).1 = .error .interrupted ∧
        ∃ results last final, results.length = 3 ∧
          Performs ready opened results last final ∧
          performed 3 ready (opened.withEngine ({} : Interruptions)) =
            (results, last, final.withEngine ({} : Interruptions)) := by
  have history : forkedSpace.HasHistory := ⟨forkedSystem.interruptions, .refl⟩
  have begins : Explorer.Begins {} forkedSpace none { answers := {} } forkedRun := rfl
  have retriable : forkedStrategy.Retriable forkedSpace := rfl
  obtain ⟨_, _, enough, alike⟩ :=
    LabelledSystem.interruptions_leave_no_trace history begins retriable rfl
      (show ∀ rule, ({} : Interruptions).count rule = 0 from fun _ => rfl)
  obtain ⟨results, last, final, length, performs⟩ := enough 3
  have same := alike results last final performs
  rw [length] at same
  exact ⟨history, begins, retriable, _, _, rfl, by decide +kernel, results, last, final, length,
    performs, same⟩

end OnTheFly
