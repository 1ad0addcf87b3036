import OnTheFly.Proofs.Exploration.Observation
import OnTheFly.Proofs.StateSpace.Conservation
import OnTheFly.Proofs.Strategy.Resumption

/-!
Contract: what an acceptor is told in the course of a run.

Owns: that every strategy acts on a run by its operations alone and heeds of
its acceptor only the answers, so that keeping a log changes no run; and that
the log of a run under any strategy, however it ends, tells exactly what became
of the state space.
-/

set_option autoImplicit false

namespace OnTheFly

open Exploration

variable {R : RuleSystem}

/-- Whether a strategy acts on a run by its operations alone, and does the same
to a run and to what a view shows of it. -/
structure Strategy.Regular (R : RuleSystem) (S : Type) [Strategy R S] : Prop where
  prepare_map {A B : Type} [Acceptor R A] [Acceptor R B] {view : A → B}
    (isView : Acceptor.IsView R view) (strategy : S) (run : Exploration R A) :
    Strategy.prepare strategy (run.map view) =
      ((Strategy.prepare strategy run).1, (Strategy.prepare strategy run).2.1,
        (Strategy.prepare strategy run).2.2.map view)
  doNext_map {A B : Type} [Acceptor R A] [Acceptor R B] {view : A → B}
    (isView : Acceptor.IsView R view) (strategy : S) (run : Exploration R A) :
    Strategy.doNext strategy (run.map view) =
      ((Strategy.doNext strategy run).1, (Strategy.doNext strategy run).2.1,
        (Strategy.doNext strategy run).2.2.map view)
  prepare_operates {A : Type} [Acceptor R A] (strategy : S) (run : Exploration R A) :
    run.Operates (Strategy.prepare strategy run).2.2
  doNext_operates {A : Type} [Acceptor R A] (strategy : S) (run : Exploration R A)
    (history : run.space.HasHistory) : run.Operates (Strategy.doNext strategy run).2.2

/-! ## Exhaustive exploration -/

namespace Closing

variable {A B : Type} {view : A → B}

theorem claimAll_map (states : List StateId) (closing : Closing) (run : Exploration R A) :
    closing.claimAll (run.map view) states =
      ((closing.claimAll run states).1, (closing.claimAll run states).2.map view) := by
  induction states generalizing closing run with
  | nil => rfl
  | cons state states inductionHypothesis =>
      have claims : closing.claim (run.map view) state =
          ((closing.claim run state).1, (closing.claim run state).2.map view) := by
        unfold claim
        rw [show (run.map view).isKnown state = run.isKnown state from rfl]
        split <;> rfl
      have others := inductionHypothesis (closing.claim run state).1 (closing.claim run state).2
      unfold claimAll at others ⊢
      rw [List.foldl_cons, List.foldl_cons, claims]
      exact others

variable [Acceptor R A] [Acceptor R B]

theorem applyAndQueue_map (isView : Acceptor.IsView R view) (state : StateId) (count : Nat)
    (closing : Closing) (run : Exploration R A) :
    applyAndQueue state count closing (run.map view) =
      ((applyAndQueue state count closing run).1, (applyAndQueue state count closing run).2.1,
        (applyAndQueue state count closing run).2.2.map view) := by
  induction count generalizing closing run with
  | zero => rfl
  | succ count inductionHypothesis =>
      unfold applyAndQueue
      rw [applyMatch_map isView]
      cases run.applyMatch state 0 with
      | mk result next =>
          cases result with
          | error failure => rfl
          | ok applied => exact inductionHypothesis _ next

theorem doNext_map (isView : Acceptor.IsView R view) (closing : Closing) (run : Exploration R A) :
    closing.doNext (run.map view) =
      ((closing.doNext run).1, (closing.doNext run).2.1, (closing.doNext run).2.2.map view) := by
  unfold doNext
  cases closing.next with
  | none => rfl
  | some state =>
      simp only
      rw [show (run.map view).space = run.space from rfl, claimAll_map]
      cases closing.claimAll run ((run.space.outgoing state).map (·.2.target)) with
      | mk claimed now =>
          simp only
          rw [pendingCount_map isView]
          cases now.pendingCount state with
          | mk count counted =>
              simp only
              rw [applyAndQueue_map isView]
              cases applyAndQueue state count claimed counted with
              | mk result rest => cases result <;> rfl

theorem doNext_explores (closing : Closing) {run : Exploration R A}
    (history : run.space.HasHistory) : run.Explores (closing.doNext run).2.2 := by
  cases next : closing.next with
  | none =>
      unfold doNext
      rw [next]
      exact .none
  | some state =>
      obtain ⟨known, _, sameRun⟩ := doNext_eq next run
      let claimed : Exploration R A := { run with known := known }
      have aside : run.Explores claimed := .aside .none rfl rfl
      have sameHistory : claimed.space.HasHistory := history
      rw [sameRun]
      exact aside.trans (closeState_explores sameHistory state)

theorem regular : Strategy.Regular R Closing where
  prepare_map _ _ _ := rfl
  doNext_map := doNext_map
  prepare_operates _ _ := .aside .none rfl (.inl rfl)
  doNext_operates closing _ history := (closing.doNext_explores history).operates

end Closing

/-! ## Exploration along one path -/

namespace Linear

variable {G A B : Type} [Chooser G] [Acceptor R A] [Acceptor R B] {view : A → B}

theorem doNext_map (isView : Acceptor.IsView R view) (linear : Linear G)
    (run : Exploration R A) :
    linear.doNext (run.map view) =
      ((linear.doNext run).1, (linear.doNext run).2.1, (linear.doNext run).2.2.map view) := by
  unfold doNext
  cases linear.next with
  | none => rfl
  | some state =>
      simp only
      rw [pendingCount_map isView]
      cases run.pendingCount state with
      | mk count counted =>
          simp only
          by_cases nothing : count = 0
          · rw [if_pos nothing, if_pos nothing]
          · rw [if_neg nothing, if_neg nothing, applyMatch_map isView]
            cases counted.applyMatch state (linear.position count).1 with
            | mk result later => cases result <;> rfl

theorem doNext_explores (linear : Linear G) {run : Exploration R A}
    (history : run.space.HasHistory) : run.Explores (linear.doNext run).2.2 := by
  unfold doNext
  cases linear.next with
  | none => exact .none
  | some state =>
      have counted : run.Explores (run.pendingCount state).2 := .counted .none state
      simp only
      by_cases nothing : (run.pendingCount state).1 = 0
      · rw [if_pos nothing]
        exact counted
      · rw [if_neg nothing]
        have applied := counted.applied state _ (linear.position_inRange history nothing)
        split <;> rename_i outcome <;> rw [outcome] at applied <;> exact applied

theorem regular : Strategy.Regular R (Linear G) where
  prepare_map _ _ _ := rfl
  doNext_map := doNext_map
  prepare_operates _ _ := .none
  doNext_operates linear _ history := (linear.doNext_explores history).operates

end Linear

/-! ## Searches -/

namespace Exploration

variable {A B : Type} [Acceptor R A] [Acceptor R B] {view : A → B} {adjust : Config → Config}

theorem closeUp_map (isView : Acceptor.IsView R view) (run : Exploration R A)
    (state : StateId) :
    (run.map view adjust).closeUp state =
      ((run.closeUp state).1, (run.closeUp state).2.map view adjust) := by
  unfold closeUp
  rw [closeState_map isView]

/-- A step that closes a state and then arrives does the same to what a view
shows, if arriving does. -/
theorem afterClosing_map {S : Type} (isView : Acceptor.IsView R view) (strategy : S)
    {arrive : Exploration R A → Except Failure StateId × S × Exploration R A}
    {arriveViewed : Exploration R B → Except Failure StateId × S × Exploration R B}
    (arrives : ∀ run, arriveViewed (run.map view) =
      ((arrive run).1, (arrive run).2.1, (arrive run).2.2.map view))
    (run : Exploration R A) (state : StateId) :
    afterClosing strategy arriveViewed ((run.map view).closeUp state) =
      ((afterClosing strategy arrive (run.closeUp state)).1,
        (afterClosing strategy arrive (run.closeUp state)).2.1,
        (afterClosing strategy arrive (run.closeUp state)).2.2.map view) := by
  rw [closeUp_map isView]
  cases run.closeUp state with
  | mk result later =>
      cases result with
      | error failure => rfl
      | ok _ => exact arrives later

theorem afterClosing_operates {S : Type} (strategy : S)
    {arrive : Exploration R A → Except Failure StateId × S × Exploration R A}
    (arrives : ∀ run : Exploration R A, run.Operates (arrive run).2.2) {run : Exploration R A}
    (history : run.space.HasHistory) (state : StateId) :
    run.Operates (afterClosing strategy arrive (run.closeUp state)).2.2 := by
  have closes := (closeState_explores history state).operates
  change run.Operates (run.closeUp state).2 at closes
  cases outcome : run.closeUp state with
  | mk result later =>
      rw [outcome] at closes
      cases result with
      | error failure => exact closes
      | ok _ => exact closes.trans (arrives later)

theorem report_map (isView : Acceptor.IsView R view) (search : Search) (run : Exploration R A) :
    search.report (run.map view adjust) =
      ((search.report run).1, (search.report run).2.map view adjust) := by
  simp only [Search.report, map, isView.addCounterExample]

theorem report_operates (search : Search) (run : Exploration R A) :
    run.Operates (search.report run).2 :=
  .aside .none rfl (.inr ⟨_, rfl⟩)

end Exploration

namespace LtlSearch

variable {G A B : Type} [Chooser G] [Acceptor R A] [Acceptor R B] {view : A → B}

theorem arrive_map (isView : Acceptor.IsView R view) (ltl : LtlSearch G) (frame : Frame)
    (run : Exploration R A) :
    ltl.arrive frame (run.map view) =
      ((ltl.arrive frame run).1, (ltl.arrive frame run).2.1,
        (ltl.arrive frame run).2.2.map view) := by
  unfold arrive
  cases ltl.search.enter frame with
  | error breach => rfl
  | ok entered =>
      simp only
      generalize tracked : run.track ({ · with stackDepth := entered.stack.length }) = now
      have trackedToo : (run.map view).track ({ · with stackDepth := entered.stack.length }) =
          now.map view := by
        rw [← tracked]
        rfl
      rw [trackedToo, show (now.map view).space = now.space from rfl]
      cases entered.expand now.space frame.state with
      | error breach => rfl
      | ok expanded =>
          simp only [explore]
          split
          · rw [report_map isView]
          · rfl

theorem arrive_operates (ltl : LtlSearch G) (frame : Frame) (run : Exploration R A) :
    run.Operates (ltl.arrive frame run).2.2 := by
  unfold arrive
  cases ltl.search.enter frame with
  | error breach => exact .none
  | ok entered =>
      have tracked : run.Operates (run.track ({ · with stackDepth := entered.stack.length })) :=
        .aside .none rfl (.inl rfl)
      simp only
      split
      · exact tracked
      · simp only [explore]
        split
        · exact tracked.trans (report_operates _ _)
        · exact tracked

theorem regular : Strategy.Regular R (LtlSearch G) where
  prepare_map {A B} _ _ {view} isView ltl run := by
    unfold Strategy.prepare instStrategy
    simp only
    rw [show ltl.prepare (run.map view) = ltl.prepare run from rfl]
    cases ltl.prepare run <;> rfl
  doNext_map {A B} _ _ {view} isView ltl run := by
    change ltl.doNext (run.map view) =
      ((ltl.doNext run).1, (ltl.doNext run).2.1, (ltl.doNext run).2.2.map view)
    cases next : ltl.search.next with
    | none =>
        simp only [doNext, next]
        rfl
    | some frame =>
        rw [doNext_eq_arrive next, doNext_eq_arrive next]
        exact afterClosing_map isView ltl (arrive_map isView ltl frame) run _
  prepare_operates ltl run := by
    unfold Strategy.prepare instStrategy
    simp only
    split <;> exact .none
  doNext_operates ltl run history := by
    change run.Operates (ltl.doNext run).2.2
    cases next : ltl.search.next with
    | none =>
        unfold doNext
        rw [next]
        exact .none
    | some frame =>
        rw [doNext_eq_arrive next]
        exact afterClosing_operates ltl (arrive_operates ltl frame) history _

end LtlSearch

namespace BoundedSearch

variable {A B : Type} [Acceptor R A] [Acceptor R B] {view : A → B}

theorem proceed_map (isView : Acceptor.IsView R view) (bounded : BoundedSearch)
    (run : Exploration R A) (found : Bool) :
    bounded.proceed (run.map view) found =
      ((bounded.proceed run found).1, (bounded.proceed run found).2.1,
        (bounded.proceed run found).2.2.map view) := by
  unfold proceed
  cases found with
  | true =>
      simp only [if_true]
      rw [report_map isView]
  | false =>
      simp only [Bool.false_eq_true, if_false]
      rw [show (run.map view).space = run.space from rfl,
        show (run.map view).config = run.config from rfl]
      cases retreat run.space run.config bounded.search.stack bounded with
      | mk result moved =>
          cases result with
          | error breach => rfl
          | ok _ =>
              simp only
              split <;> rfl

theorem proceed_operates (bounded : BoundedSearch) (run : Exploration R A) (found : Bool) :
    run.Operates (bounded.proceed run found).2.2 := by
  unfold proceed
  cases found with
  | true => exact report_operates _ _
  | false =>
      simp only [Bool.false_eq_true, if_false]
      split
      · exact .none
      · simp only
        split
        · exact .none
        · exact .aside .none rfl (.inl rfl)

theorem arrive_map (isView : Acceptor.IsView R view) (bounded : BoundedSearch) (frame : Frame)
    (run : Exploration R A) :
    bounded.arrive frame (run.map view) =
      ((bounded.arrive frame run).1, (bounded.arrive frame run).2.1,
        (bounded.arrive frame run).2.2.map view) := by
  unfold arrive
  cases bounded.search.enter frame with
  | error breach => rfl
  | ok entered =>
      simp only
      generalize tracked : run.track ({ · with stackDepth := entered.stack.length }) = now
      have trackedToo : (run.map view).track ({ · with stackDepth := entered.stack.length }) =
          now.map view := by
        rw [← tracked]
        rfl
      rw [trackedToo, show (now.map view).space = now.space from rfl]
      cases ({ bounded with search := entered } : BoundedSearch).exploreState now.space
          frame.state with
      | mk result explored =>
          cases result with
          | error breach => rfl
          | ok found =>
              simp only
              rw [proceed_map isView]
              cases explored.proceed now found with
              | mk answer rest => cases answer <;> rfl

theorem arrive_operates (bounded : BoundedSearch) (frame : Frame) (run : Exploration R A) :
    run.Operates (bounded.arrive frame run).2.2 := by
  unfold arrive
  cases bounded.search.enter frame with
  | error breach => exact .none
  | ok entered =>
      have tracked : run.Operates (run.track ({ · with stackDepth := entered.stack.length })) :=
        .aside .none rfl (.inl rfl)
      simp only
      split
      · exact tracked
      · rename_i found explored _
        have proceeds := tracked.trans (proceed_operates explored _ found)
        split <;> rename_i outcome <;> rw [outcome] at proceeds <;> exact proceeds

theorem regular : Strategy.Regular R BoundedSearch where
  prepare_map {A B} _ _ {view} isView bounded run := by
    unfold Strategy.prepare instStrategy prepare
    simp only
    rw [show (run.map view).start = run.start from rfl]
    cases bounded.search.reset run.start <;> rfl
  doNext_map {A B} _ _ {view} isView bounded run := by
    change bounded.doNext (run.map view) =
      ((bounded.doNext run).1, (bounded.doNext run).2.1, (bounded.doNext run).2.2.map view)
    cases next : bounded.search.next with
    | none =>
        simp only [doNext, next]
        rfl
    | some frame =>
        rw [doNext_eq_arrive next, doNext_eq_arrive next]
        exact afterClosing_map isView bounded (arrive_map isView bounded frame) run _
  prepare_operates bounded run := by
    unfold Strategy.prepare instStrategy prepare
    simp only
    cases bounded.search.reset run.start with
    | error error => exact .none
    | ok search => exact .aside .none rfl (.inl rfl)
  doNext_operates bounded run history := by
    change run.Operates (bounded.doNext run).2.2
    cases next : bounded.search.next with
    | none =>
        simp only [doNext, next]
        exact .none
    | some frame =>
        rw [doNext_eq_arrive next]
        exact afterClosing_operates bounded (arrive_operates bounded frame) history _

end BoundedSearch

theorem AnyStrategy.regular {G : Type} [Chooser G] : Strategy.Regular R (AnyStrategy G) where
  prepare_map isView strategy run := by
    cases strategy with
    | closing held => exact congrArg (wrap .closing) (Closing.regular.prepare_map isView held run)
    | linear held => exact congrArg (wrap .linear) (Linear.regular.prepare_map isView held run)
    | ltl held => exact congrArg (wrap .ltl) (LtlSearch.regular.prepare_map isView held run)
    | bounded held =>
        exact congrArg (wrap .bounded) (BoundedSearch.regular.prepare_map isView held run)
  doNext_map isView strategy run := by
    cases strategy with
    | closing held => exact congrArg (wrap .closing) (Closing.regular.doNext_map isView held run)
    | linear held => exact congrArg (wrap .linear) (Linear.regular.doNext_map isView held run)
    | ltl held => exact congrArg (wrap .ltl) (LtlSearch.regular.doNext_map isView held run)
    | bounded held =>
        exact congrArg (wrap .bounded) (BoundedSearch.regular.doNext_map isView held run)
  prepare_operates strategy run := by
    cases strategy with
    | closing held => exact Closing.regular.prepare_operates held run
    | linear held => exact Linear.regular.prepare_operates held run
    | ltl held => exact LtlSearch.regular.prepare_operates held run
    | bounded held => exact BoundedSearch.regular.prepare_operates held run
  doNext_operates strategy run history := by
    cases strategy with
    | closing held => exact Closing.regular.doNext_operates held run history
    | linear held => exact Linear.regular.doNext_operates held run history
    | ltl held => exact LtlSearch.regular.doNext_operates held run history
    | bounded held => exact BoundedSearch.regular.doNext_operates held run history

/-! ## Runs -/

section

variable {S A B : Type}

/-- The steps as the viewed acceptor sees them, with an adjusted configuration. -/
def Stretch.map (stretch : Stretch R S A) (view : A → B) (adjust : Config → Config := id) :
    Stretch R S B :=
  ⟨stretch.ending, stretch.strategy, stretch.run.map view adjust⟩

/-- What a play leaves behind, as the viewed acceptor sees it. -/
def Played.map (played : Played R S A) (view : A → B) : Played R S B where
  outcome := played.outcome
  explorer := played.explorer
  strategy := played.strategy
  space := played.space
  acceptor := view played.acceptor

variable [Strategy R S] [Acceptor R A] [Acceptor R B] {view : A → B}

theorem takeSteps_map (regular : Strategy.Regular R S) (isView : Acceptor.IsView R view)
    (allowance steps : Nat) (strategy : S) (run : Exploration R A) :
    takeSteps allowance steps strategy (run.map view) =
      (takeSteps allowance steps strategy run).map view := by
  induction allowance generalizing steps strategy run with
  | zero => rfl
  | succ allowance inductionHypothesis =>
      have sameDone : Acceptor.done (R := R) (run.map view).acceptor =
          Acceptor.done (R := R) run.acceptor := (isView.done run.acceptor).symm
      have sameStop : (run.map view).mustStop = run.mustStop := rfl
      unfold takeSteps
      rw [sameDone, sameStop, regular.doNext_map isView]
      split
      · rfl
      split
      · rfl
      split
      · rfl
      cases Strategy.doNext strategy run with
      | mk result rest =>
          cases result with
          | ok _ =>
              exact inductionHypothesis (steps + 1) rest.1
                (rest.2.track ({ · with steps := steps + 1 }))
          | error failure =>
              cases failure with
              | error error => cases error <;> rfl
              | breach breach => rfl

theorem playRun_map (regular : Strategy.Regular R S) (isView : Acceptor.IsView R view)
    (allowance : Nat) (strategy : S) (run : Exploration R A) :
    playRun allowance strategy (run.map view) = (playRun allowance strategy run).map view := by
  unfold playRun
  rw [regular.prepare_map isView]
  cases Strategy.prepare strategy run with
  | mk result rest =>
      cases result with
      | ok _ => exact takeSteps_map regular isView allowance 0 rest.1 rest.2
      | error error => cases error <;> rfl

omit [Strategy R S] in
theorem outcome_map (isView : Acceptor.IsView R view) (stretch : Stretch R S A)
    {adjust : Config → Config} : (stretch.map view adjust).outcome = stretch.outcome := by
  have sameMessage : Acceptor.message (R := R) (stretch.map view adjust).run.acceptor =
      Acceptor.message (R := R) stretch.run.acceptor := (isView.message stretch.run.acceptor).symm
  unfold Stretch.outcome
  rw [sameMessage]
  rfl

/-- A play does the same to what a view shows of its acceptor. -/
theorem Explorer.play_map (regular : Strategy.Regular R S) (isView : Acceptor.IsView R view)
    (explorer : Explorer) (allowance : Nat) (strategy : S) (space : StateSpace R)
    (start : Option StateId) (acceptor : A) :
    explorer.play allowance strategy space start (view acceptor) =
      (explorer.play allowance strategy space start acceptor).map view := by
  have begins (prepared : A) : Exploration.begin space (view prepared) explorer.config
      explorer.progress explorer.stopRequested (start.getD StateSpace.startState) =
        (Exploration.begin space prepared explorer.config explorer.progress
          explorer.stopRequested (start.getD StateSpace.startState)).map (·.map view) := by
    unfold Exploration.begin
    split <;> rfl
  unfold Explorer.play
  simp only
  rw [← isView.prepare, begins]
  cases Exploration.begin space (Acceptor.prepare space acceptor) explorer.config
      explorer.progress explorer.stopRequested (start.getD StateSpace.startState) with
  | error error => rfl
  | ok run =>
      simp only [Except.map]
      rw [playRun_map regular isView, outcome_map isView]
      rfl

theorem takeSteps_operates (regular : Strategy.Regular R S) (allowance steps : Nat) (strategy : S)
    {run : Exploration R A} (history : run.space.HasHistory) :
    run.Operates (takeSteps allowance steps strategy run).run := by
  induction allowance generalizing steps strategy run with
  | zero => exact .none
  | succ allowance inductionHypothesis =>
      have step := regular.doNext_operates strategy run history
      unfold takeSteps
      split
      · exact .none
      split
      · exact .none
      split
      · exact .none
      split <;> rename_i outcome <;> rw [outcome] at step
      · rename_i later
        have tracked : run.Operates (later.track ({ · with steps := steps + 1 })) :=
          step.aside rfl (.inl rfl)
        exact tracked.trans (inductionHypothesis _ _ (history.evolves tracked.evolves))
      · exact step
      · exact step

theorem playRun_operates (regular : Strategy.Regular R S) (allowance : Nat) (strategy : S)
    {run : Exploration R A} (history : run.space.HasHistory) :
    run.Operates (playRun allowance strategy run).run := by
  have prepared := regular.prepare_operates strategy run
  unfold playRun
  split <;> rename_i outcome <;> rw [outcome] at prepared
  · exact prepared.trans
      (takeSteps_operates regular allowance 0 _ (history.evolves prepared.evolves))
  · exact prepared
  · exact prepared

theorem Calls.operates (regular : Strategy.Regular R S) {strategy current : S}
    {run now : Exploration R A} (history : run.space.HasHistory)
    (calls : Calls strategy run current now) : run.Operates now := by
  induction calls with
  | none => exact .none
  | @called current _ now _ _ _ step inductionHypothesis =>
      have operates := regular.doNext_operates current now
        (history.evolves inductionHypothesis.evolves)
      rw [step] at operates
      exact inductionHypothesis.trans operates
  | observed progress stopRequested _ inductionHypothesis =>
      exact inductionHypothesis.aside rfl (.inl rfl)

theorem Calls.map (regular : Strategy.Regular R S) (isView : Acceptor.IsView R view)
    {strategy current : S} {run now : Exploration R A} (calls : Calls strategy run current now) :
    Calls strategy (run.map view) current (now.map view) := by
  induction calls with
  | none => exact .none
  | called _ step inductionHypothesis =>
      apply inductionHypothesis.called
      rw [regular.doNext_map isView, step]
  | observed progress stopRequested _ inductionHypothesis =>
      exact inductionHypothesis.observed progress stopRequested

end

/-! ## The log of a run -/

section

variable {S A : Type} [Strategy R S] [Acceptor R A] {space : StateSpace R}

/-- A run begins with an empty log, and what was queued before is dropped. -/
theorem Explorer.Begins.heard {explorer : Explorer} {start : Option StateId} {acceptor : A}
    {begun : Exploration R (Logged A)} (history : space.HasHistory)
    (begins : explorer.Begins space start (Logged.mk acceptor []) begun) :
    Heard space begun := by
  unfold Explorer.Begins Exploration.begin at begins
  split at begins
  · cases begins
    exact ⟨history.evolves (.single (.drain space)), .unseen .nothing ⟨rfl, rfl, fun _ => rfl⟩, rfl⟩
  · cases begins

/-- A play in which a log is kept beside the acceptor. -/
def Explorer.playLogged (explorer : Explorer) (allowance : Nat) (strategy : S)
    (space : StateSpace R) (start : Option StateId) (acceptor : A) : Played R S (Logged A) :=
  explorer.play allowance strategy space start (Logged.mk acceptor [])

theorem Explorer.playLogged_tells (regular : Strategy.Regular R S) (history : space.HasHistory)
    (explorer : Explorer) (allowance : Nat) (strategy : S) (start : Option StateId)
    (acceptor : A) :
    space.Tells (explorer.playLogged allowance strategy space start acceptor).space
      (explorer.playLogged allowance strategy space start acceptor).acceptor.log := by
  unfold Explorer.playLogged
  cases contained : space.contains (start.getD StateSpace.startState) with
  | false =>
      unfold Explorer.play Exploration.begin
      simp only [contained, Bool.false_eq_true, if_false]
      exact .nothing space
  | true =>
      obtain ⟨begun, begins⟩ := explorer.begins_of_contains (Logged.mk acceptor []) contained
      obtain ⟨_, _, sameSpace, sameAcceptor, _⟩ := begins.play allowance strategy
      have heard := begins.heard history
      have final := heard.operates (playRun_operates regular allowance strategy heard.history)
      rw [sameSpace, sameAcceptor]
      exact final.narrates.tells

end

/-- Whatever the strategy and the acceptor are, and however a run ends, the
acceptor has been told exactly what became of the state space since the run
began, and of nothing that was queued before. The same holds after any calls of
a strategy by hand, failed ones repeated or not. Keeping the log changes
nothing. -/
theorem acceptor_hears_exactly {G A : Type} [Chooser G] [Acceptor R A] {space : StateSpace R}
    (history : space.HasHistory) (explorer : Explorer) (strategy : AnyStrategy G)
    (start : Option StateId) (acceptor : A) :
    (∀ allowance,
      (explorer.playLogged allowance strategy space start acceptor).map Logged.acceptor =
        explorer.play allowance strategy space start acceptor ∧
      space.Tells (explorer.playLogged allowance strategy space start acceptor).space
        (explorer.playLogged allowance strategy space start acceptor).acceptor.log ∧
      ∀ event ∈ space.events,
        event ∉ (explorer.playLogged allowance strategy space start acceptor).acceptor.log) ∧
    ∀ (begun opened now : Exploration R (Logged A)) (ready current : AnyStrategy G),
      explorer.Begins space start (Logged.mk acceptor []) begun →
      Strategy.prepare strategy begun = (.ok (), ready, opened) →
      Calls ready opened current now →
        Calls ready (opened.map Logged.acceptor) current (now.map Logged.acceptor) ∧
        space.Tells now.space now.acceptor.log ∧
        ∀ event ∈ space.events, event ∉ now.acceptor.log := by
  have regular : Strategy.Regular R (AnyStrategy G) := AnyStrategy.regular
  constructor
  · intro allowance
    have tells := explorer.playLogged_tells regular history allowance strategy start acceptor
    refine ⟨?_, tells, fun event => tells.not_mem_of_queued history⟩
    exact (explorer.play_map regular Logged.isView allowance strategy space start
      (Logged.mk acceptor [])).symm
  · intro begun opened now ready current begins prepare calls
    have heard := begins.heard history
    have prepared := regular.prepare_operates strategy begun
    rw [prepare] at prepared
    have ready := heard.operates prepared
    have tells := (ready.operates (calls.operates regular ready.history)).narrates.tells
    exact ⟨calls.map regular Logged.isView, tells, fun event => tells.not_mem_of_queued history⟩

/-- Two edges between the same nodes, explored from scratch: the start state was
announced before the run. -/
def parallelPlay : Played StateSpace.parallelSystem.rules (AnyStrategy StreamChooser)
    (Logged Witnesses) :=
  ({} : Explorer).playLogged 9 (.closing .breadthFirst)
    (StateSpace.create StateSpace.parallelSystem.rules ⟨[]⟩) none ⟨{}⟩

theorem parallelPlay_heard :
    (StateSpace.create StateSpace.parallelSystem.rules ⟨[]⟩).HasHistory ∧
      (StateSpace.create StateSpace.parallelSystem.rules ⟨[]⟩).events = [.stateAdded ⟨0⟩] ∧
      parallelPlay.acceptor.log = [.stateAdded ⟨1⟩, .transitionAdded ⟨0⟩, .transitionAdded ⟨1⟩,
        .stateClosed ⟨0⟩, .stateClosed ⟨1⟩] ∧
      (StateSpace.create StateSpace.parallelSystem.rules ⟨[]⟩).Tells parallelPlay.space
        parallelPlay.acceptor.log := by
  have history : (StateSpace.create StateSpace.parallelSystem.rules ⟨[]⟩).HasHistory :=
    ⟨⟨[]⟩, .refl⟩
  have heard := (acceptor_hears_exactly history {}
    (.closing .breadthFirst : AnyStrategy StreamChooser) none (⟨{}⟩ : Witnesses)).1 9
  exact ⟨history, rfl, by decide +kernel, heard.2.1⟩

end OnTheFly
