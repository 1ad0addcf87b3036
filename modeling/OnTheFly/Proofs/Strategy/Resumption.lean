import OnTheFly.Proofs.Exploration.Interruption
import OnTheFly.Proofs.Strategy.Any

/-!
Contract: a step that was interrupted can be made again as if nothing had
happened.

Owns: that the searches look at the engine only through the closing of a state,
and that a step of exhaustive exploration or of a search, made again after an
interruption, does in the end what it does without interruptions.

An interrupted step has applied some matches of its state. They are no longer
pending, so the step that is made again applies the others.
-/

set_option autoImplicit false

namespace OnTheFly

variable {R : RuleSystem} {A : Type}

/-! ## Strategies and the engine -/

theorem StateSpace.asked_of_pending {space : StateSpace R} {state : StateId}
    (waiting : space.pending state ≠ []) : space.Asked state := by
  unfold StateSpace.pending at waiting
  cases present : space.info? state with
  | none => simp [present] at waiting
  | some info =>
      cases pending : info.pending with
      | none => simp [present, pending] at waiting
      | some candidates => exact ⟨info, candidates, present, pending⟩

namespace Closing

theorem next_enqueue (closing : Closing) (space : StateSpace R) (state : StateId) :
    (closing.enqueue space state).next = closing.next := by
  unfold enqueue
  split <;> rfl

end Closing

namespace Exploration

variable [Acceptor R A]

/-- Closing a state, without the list of its transitions. -/
def closeUp (run : Exploration R A) (state : StateId) :
    Except Failure Unit × Exploration R A :=
  ((run.closeState state).1.map fun _ => (), (run.closeState state).2)

/-- Closing a state is a case of applying and queueing. -/
theorem closeUp_eq (run : Exploration R A) (state : StateId) (closing : Closing) :
    run.closeUp state =
      ((Closing.applyAndQueue state (run.pendingCount state).1 closing
          (run.pendingCount state).2).1,
        (Closing.applyAndQueue state (run.pendingCount state).1 closing
          (run.pendingCount state).2).2.2) := by
  obtain ⟨sameResult, sameRun⟩ := Closing.applyAndQueue_eq state (run.pendingCount state).1 closing
    (run.pendingCount state).2
  rw [sameResult, sameRun]
  rfl

end Exploration

/-- What is left to do of a step once a state is closed. If it could not be
closed, the strategy stays where it was. -/
def afterClosing {S : Type} (strategy : S)
    (arrive : Exploration R A → Except Failure StateId × S × Exploration R A) :
    Except Failure Unit × Exploration R A → Except Failure StateId × S × Exploration R A
  | (.error failure, later) => (.error failure, strategy, later)
  | (.ok _, later) => arrive later

namespace LtlSearch

variable {G : Type} [Chooser G] [Acceptor R A]

/-- What a step does once the system state of its frame is closed. -/
def arrive (ltl : LtlSearch G) (frame : Frame) (run : Exploration R A) :
    Except Failure StateId × LtlSearch G × Exploration R A :=
  match ltl.search.enter frame with
  | .error breach => (.error (.breach breach), ltl, run)
  | .ok entered =>
      let run := run.track ({ · with stackDepth := entered.stack.length })
      match entered.expand run.space frame.state with
      | .error breach => (.error (.breach breach), { ltl with search := entered }, run)
      | .ok expanded =>
          (.ok (ltl.search.product.systemState frame.state),
            explore { ltl with search := expanded } run frame.state)

theorem doNext_eq_arrive {ltl : LtlSearch G} {frame : Frame} (next : ltl.search.next = some frame)
    (run : Exploration R A) :
    ltl.doNext run = afterClosing ltl (ltl.arrive frame)
      (run.closeUp (ltl.search.product.systemState frame.state)) := by
  unfold doNext Exploration.closeUp
  rw [next]
  simp only
  cases run.closeState (ltl.search.product.systemState frame.state) with
  | mk result later => cases result <;> rfl

theorem arrive_withEngine (ltl : LtlSearch G) (frame : Frame) (run : Exploration R A)
    (engine : R.Engine) :
    ltl.arrive frame (run.withEngine engine) =
      ((ltl.arrive frame run).1, (ltl.arrive frame run).2.1,
        (ltl.arrive frame run).2.2.withEngine engine) := by
  unfold arrive
  cases ltl.search.enter frame with
  | error breach => rfl
  | ok entered =>
      simp only
      have same : entered.expand ((run.withEngine engine).track
          ({ · with stackDepth := entered.stack.length })).space frame.state =
          entered.expand (run.track ({ · with stackDepth := entered.stack.length })).space
            frame.state := rfl
      rw [same]
      cases entered.expand (run.track ({ · with stackDepth := entered.stack.length })).space
          frame.state with
      | error breach => rfl
      | ok expanded =>
          simp only
          unfold explore
          split <;> rfl

/-- Arriving changes nothing in the state space, and nothing interrupts it. -/
theorem arrive_frame (ltl : LtlSearch G) (frame : Frame) (run : Exploration R A) :
    (ltl.arrive frame run).2.2.space = run.space ∧
      (ltl.arrive frame run).1 ≠ .error .interrupted := by
  unfold arrive
  split
  · exact ⟨rfl, by simp⟩
  · simp only
    split
    · exact ⟨rfl, by simp⟩
    · refine ⟨?_, by simp⟩
      unfold explore
      split <;> rfl

end LtlSearch

namespace BoundedSearch

section Space

variable (space : StateSpace R) (engine : R.Engine)

theorem allows_withEngine (bounded : BoundedSearch) (handle : ProductTransitionId)
    (entry : ProductTransition) :
    bounded.allows (space.withEngine engine) handle entry = bounded.allows space handle entry :=
  rfl

theorem findCycle_withEngine (entries : List (ProductTransitionId × ProductTransition))
    (bounded : BoundedSearch) :
    findCycle (space.withEngine engine) entries bounded = findCycle space entries bounded := by
  induction entries generalizing bounded with
  | nil => rfl
  | cons entry rest inductionHypothesis =>
      obtain ⟨handle, entry⟩ := entry
      simp only [findCycle, allows_withEngine, inductionHypothesis]

theorem freshSuccessor_withEngine (entries : List (ProductTransitionId × ProductTransition))
    (bounded : BoundedSearch) :
    freshSuccessor (space.withEngine engine) entries bounded =
      freshSuccessor space entries bounded := by
  induction entries generalizing bounded with
  | nil => rfl
  | cons entry rest inductionHypothesis =>
      obtain ⟨handle, entry⟩ := entry
      have passes : bounded.pass? (space.withEngine engine) entry = bounded.pass? space entry := rfl
      simp only [freshSuccessor, passes, inductionHypothesis]

theorem retreat_withEngine (config : Config) (stack : List Frame) (bounded : BoundedSearch) :
    retreat (space.withEngine engine) config stack bounded =
      retreat space config stack bounded := by
  induction stack generalizing bounded with
  | nil => rfl
  | cons top rest inductionHypothesis =>
      simp only [retreat, freshSuccessor_withEngine, inductionHypothesis]

theorem exploreState_withEngine (bounded : BoundedSearch) (state : ProductStateId) :
    bounded.exploreState (space.withEngine engine) state = bounded.exploreState space state := by
  have expands : bounded.search.expandOnce (space.withEngine engine) state =
      bounded.search.expandOnce space state := rfl
  simp only [exploreState, expands, findCycle_withEngine]

end Space

variable [Acceptor R A]

theorem proceed_withEngine (bounded : BoundedSearch) (run : Exploration R A) (engine : R.Engine)
    (found : Bool) :
    bounded.proceed (run.withEngine engine) found =
      ((bounded.proceed run found).1, (bounded.proceed run found).2.1,
        (bounded.proceed run found).2.2.withEngine engine) := by
  unfold proceed
  split
  · rfl
  · have same := retreat_withEngine run.space engine run.config bounded.search.stack bounded
    have config : (run.withEngine engine).config = run.config := rfl
    rw [Exploration.space_withEngine, config, same]
    cases retreat run.space run.config bounded.search.stack bounded with
    | mk result moved =>
        cases result with
        | error breach => rfl
        | ok _ =>
            simp only
            split <;> rfl

/-- What a step does once the system state of its frame is closed. -/
def arrive (bounded : BoundedSearch) (frame : Frame) (run : Exploration R A) :
    Except Failure StateId × BoundedSearch × Exploration R A :=
  match bounded.search.enter frame with
  | .error breach => (.error (.breach breach), bounded, run)
  | .ok entered =>
      let run := run.track ({ · with stackDepth := entered.stack.length })
      match ({ bounded with search := entered }).exploreState run.space frame.state with
      | (.error breach, explored) => (.error (.breach breach), explored, run)
      | (.ok found, explored) =>
          match explored.proceed run found with
          | (.error breach, moved, run) => (.error (.breach breach), moved, run)
          | (.ok _, moved, run) =>
              (.ok (bounded.search.product.systemState frame.state), moved, run)

theorem doNext_eq_arrive {bounded : BoundedSearch} {frame : Frame}
    (next : bounded.search.next = some frame) (run : Exploration R A) :
    bounded.doNext run = afterClosing bounded (bounded.arrive frame)
      (run.closeUp (bounded.search.product.systemState frame.state)) := by
  unfold doNext Exploration.closeUp
  rw [next]
  simp only
  cases run.closeState (bounded.search.product.systemState frame.state) with
  | mk result later => cases result <;> rfl

theorem arrive_withEngine (bounded : BoundedSearch) (frame : Frame) (run : Exploration R A)
    (engine : R.Engine) :
    bounded.arrive frame (run.withEngine engine) =
      ((bounded.arrive frame run).1, (bounded.arrive frame run).2.1,
        (bounded.arrive frame run).2.2.withEngine engine) := by
  unfold arrive
  cases bounded.search.enter frame with
  | error breach => rfl
  | ok entered =>
      simp only
      generalize tracked : run.track ({ · with stackDepth := entered.stack.length }) = later
      have trackedToo : (run.withEngine engine).track
          ({ · with stackDepth := entered.stack.length }) = later.withEngine engine := by
        rw [← tracked]
        rfl
      rw [trackedToo, Exploration.space_withEngine, exploreState_withEngine]
      cases ({ bounded with search := entered } : BoundedSearch).exploreState later.space
          frame.state with
      | mk result explored =>
          cases result with
          | error breach => rfl
          | ok found =>
              simp only [proceed_withEngine]
              cases explored.proceed later found with
              | mk answer rest => cases answer <;> rfl

/-- Arriving changes nothing in the state space, and nothing interrupts it. -/
theorem arrive_frame (bounded : BoundedSearch) (frame : Frame) (run : Exploration R A) :
    (bounded.arrive frame run).2.2.space = run.space ∧
      (bounded.arrive frame run).1 ≠ .error .interrupted := by
  have moving : ∀ (explored : BoundedSearch) (later : Exploration R A) (found : Bool),
      (explored.proceed later found).2.2.space = later.space := by
    intro explored later found
    unfold proceed
    split
    · rfl
    · split
      · rfl
      · simp only
        split <;> rfl
  unfold arrive
  split
  · exact ⟨rfl, by simp⟩
  · simp only
    split
    · exact ⟨rfl, by simp⟩
    · split <;> rename_i proceeds
      · exact ⟨(congrArg (·.2.2.space) proceeds).symm.trans (moving _ _ _), by simp⟩
      · exact ⟨(congrArg (·.2.2.space) proceeds).symm.trans (moving _ _ _), by simp⟩

end BoundedSearch

/-! ## Applying what is pending -/

section Interruptible

variable [Acceptor R A] [Acceptor.Unaware R A] {budget : R.Engine → Nat} {calm : R.Engine}

/-- When the applications of a state are interrupted, those that are left do to
the calm run what all of them do to it. When they are not, they are made as in
the calm run. -/
theorem Closing.applyAndQueue_interruptible (calms : R.Calms budget calm) {state : StateId}
    {count : Nat} {closing queued : Closing} {run later : Exploration R A}
    {result : Except Failure Unit} (history : run.space.HasHistory) (quiet : run.Quiet)
    (waiting : (run.space.pending state).length = count)
    (applies : applyAndQueue state count closing run = (result, queued, later)) :
    (result = .error .interrupted →
      later.Quiet ∧ later.space.Asked state ∧
        budget later.space.engine < budget run.space.engine ∧ queued.next = closing.next ∧
        applyAndQueue state (later.space.pending state).length queued (later.withEngine calm) =
          applyAndQueue state count closing (run.withEngine calm)) ∧
    (result ≠ .error .interrupted →
      applyAndQueue state count closing (run.withEngine calm) =
        (result, queued, later.withEngine calm)) := by
  induction count generalizing closing run with
  | zero =>
      cases applies
      exact ⟨fun interrupted => (by cases interrupted), fun _ => rfl⟩
  | succ count inductionHypothesis =>
      have asked : run.space.Asked state :=
        StateSpace.asked_of_pending (List.ne_nil_of_length_eq_add_one waiting)
      unfold applyAndQueue at applies
      rcases Exploration.applyMatch_interruptible calms quiet asked 0 with
        ⟨engine, interrupted, less⟩ | ⟨alike, uninterrupted, fewer⟩
      · rw [interrupted] at applies
        cases applies
        refine ⟨fun _ => ⟨quiet.withEngine engine, asked, less, rfl, ?_⟩,
          fun through => absurd rfl through⟩
        rw [← waiting]
        rfl
      · have advances := Exploration.advances_applyMatch run state 0
        have asking := fun applied (ok : (run.applyMatch state 0).1 = .ok applied) =>
          Exploration.applyMatch_asked history asked ok
        cases first : run.applyMatch state 0 with
        | mk answer next =>
            rw [first] at applies alike uninterrupted advances asking fewer
            cases answer with
            | error failure =>
                cases applies
                refine ⟨fun interrupted => absurd ?_ uninterrupted, fun _ => ?_⟩
                · cases interrupted
                  rfl
                · rw [applyAndQueue, alike]
            | ok applied =>
                have waitingNext := (asking applied rfl).2
                rw [waiting, Nat.add_sub_cancel] at waitingNext
                have quietNext : next.Quiet := by
                  have quietAfter := Exploration.quiet_applyMatch (congrArg Prod.fst first)
                  rw [first] at quietAfter
                  exact quietAfter
                obtain ⟨resumes, mirrors⟩ := inductionHypothesis
                  (history.evolves advances.space) quietNext waitingNext applies
                rw [applyAndQueue, alike]
                refine ⟨fun interrupted => ?_, mirrors⟩
                obtain ⟨quietLater, askedLater, less, sameNext, resumed⟩ := resumes interrupted
                refine ⟨quietLater, askedLater, Nat.lt_of_lt_of_le less fewer, ?_, resumed⟩
                rw [sameNext]
                split
                · exact next_enqueue _ _ _
                · rfl

/-- A closing that is interrupted and made again does to the calm run what it
does to it at once. One that is not interrupted is made as in the calm run. -/
theorem Exploration.closeUp_interruptible (calms : R.Calms budget calm)
    {run later : Exploration R A} (history : run.space.HasHistory) {state : StateId}
    {result : Except Failure Unit}
    (closes : run.closeUp state = (result, later)) :
    (result = .error .interrupted →
      budget later.space.engine < budget run.space.engine ∧
        (later.withEngine calm).closeUp state = (run.withEngine calm).closeUp state) ∧
    (result ≠ .error .interrupted →
      (run.withEngine calm).closeUp state = (result, later.withEngine calm)) := by
  rw [closeUp_eq run state .breadthFirst] at closes
  rw [closeUp_eq (run.withEngine calm) state .breadthFirst, pendingCount_withEngine]
  have history' := history.evolves (advances_pendingCount run state).space
  have quiet := quiet_pendingCount run state
  have waiting := length_pending_pendingCount run state
  cases applies : Closing.applyAndQueue state (run.pendingCount state).1 .breadthFirst
      (run.pendingCount state).2 with
  | mk answer rest =>
      obtain ⟨queued, final⟩ := rest
      rw [applies] at closes
      cases closes
      obtain ⟨resumes, mirrors⟩ :=
        Closing.applyAndQueue_interruptible calms history' quiet waiting applies
      refine ⟨fun interrupted => ?_, fun through => by rw [mirrors through]⟩
      obtain ⟨quietLater, asked, less, _, resumed⟩ := resumes interrupted
      rw [engine_pendingCount] at less
      refine ⟨less, ?_⟩
      have counted : (final.withEngine calm).pendingCount state =
          ((final.space.pending state).length, final.withEngine calm) :=
        (quietLater.withEngine calm).pendingCount asked
      rw [closeUp_eq (final.withEngine calm) state queued, counted, ← resumed]

/-! ## Steps -/

variable {S : Type} [Strategy R S]

/-- How a step bears interruptions. If it is interrupted, the step that is made
instead does to the calm run what this one does to it. If it is not, it is made
as in the calm run. -/
structure Bears (budget : R.Engine → Nat) (calm : R.Engine) (strategy : S)
    (run : Exploration R A) : Prop where
  resumed {next : S} {later : Exploration R A} :
    Strategy.doNext strategy run = (.error .interrupted, next, later) →
      budget later.space.engine < budget run.space.engine ∧
        Strategy.doNext next (later.withEngine calm) =
          Strategy.doNext strategy (run.withEngine calm)
  made {result : Except Failure StateId} {next : S} {later : Exploration R A} :
    Strategy.doNext strategy run = (result, next, later) → result ≠ .error .interrupted →
      Strategy.doNext strategy (run.withEngine calm) = (result, next, later.withEngine calm)
  evolves : run.space.Evolves (Strategy.doNext strategy run).2.2.space

/-- A step that closes a state and then goes on without the engine. -/
theorem bears_of_closeUp (calms : R.Calms budget calm) {strategy : S} {state : StateId}
    {arrive : Exploration R A → Except Failure StateId × S × Exploration R A}
    (doNext : ∀ run : Exploration R A,
      Strategy.doNext strategy run = afterClosing strategy arrive (run.closeUp state))
    (unaware : ∀ run engine, arrive (run.withEngine engine) =
      ((arrive run).1, (arrive run).2.1, (arrive run).2.2.withEngine engine))
    (frame : ∀ run, (arrive run).2.2.space = run.space ∧ (arrive run).1 ≠ .error .interrupted)
    {run : Exploration R A} (history : run.space.HasHistory) : Bears budget calm strategy run := by
  cases closes : run.closeUp state with
  | mk result closed =>
      obtain ⟨resumes, mirrors⟩ := Exploration.closeUp_interruptible calms history closes
      have evolves : run.space.Evolves closed.space := by
        have advances := Exploration.advances_closeState run state
        rw [show (run.closeState state).2 = closed from congrArg Prod.snd closes] at advances
        exact advances.space
      cases result with
      | error failure =>
          have answer : Strategy.doNext strategy run = (.error failure, strategy, closed) := by
            rw [doNext, closes, afterClosing]
          constructor
          · intro next later step
            rw [answer] at step
            cases step
            obtain ⟨less, resumed⟩ := resumes rfl
            exact ⟨less, by rw [doNext, doNext, resumed]⟩
          · intro result next later step uninterrupted
            rw [answer] at step
            cases step
            have notInterrupted : (.error failure : Except Failure Unit) ≠ .error .interrupted := by
              rintro ⟨⟩
              exact uninterrupted rfl
            rw [doNext, mirrors notInterrupted, afterClosing]
          · rw [answer]
            exact evolves
      | ok _ =>
          have answer : Strategy.doNext strategy run = arrive closed := by
            rw [doNext, closes, afterClosing]
          constructor
          · intro next later step
            rw [answer] at step
            exact absurd (congrArg Prod.fst step) (frame closed).2
          · intro result next later step _
            rw [answer] at step
            rw [doNext, mirrors (by simp), afterClosing, unaware, step]
          · rw [answer, (frame closed).1]
            exact evolves

omit [Acceptor.Unaware R A] in
/-- Nothing can interrupt a strategy that has come to its end. -/
theorem bears_of_resting {strategy : S}
    (rests : ∀ run : Exploration R A, Strategy.doNext strategy run = (.ok run.start, strategy, run))
    (run : Exploration R A) : Bears budget calm strategy run := by
  constructor
  · intro next later step
    rw [rests] at step
    cases step
  · intro result next later step _
    rw [rests] at step ⊢
    cases step
    rfl
  · rw [rests]

theorem LtlSearch.bears {G : Type} [Chooser G] (calms : R.Calms budget calm) (ltl : LtlSearch G)
    {run : Exploration R A} (history : run.space.HasHistory) : Bears budget calm ltl run := by
  cases next : ltl.search.next with
  | none =>
      refine bears_of_resting (fun now => ?_) run
      change ltl.doNext now = _
      rw [LtlSearch.doNext, next]
  | some frame =>
      exact bears_of_closeUp calms (doNext_eq_arrive next) (arrive_withEngine ltl frame)
        (arrive_frame ltl frame) history

theorem BoundedSearch.bears (calms : R.Calms budget calm) (bounded : BoundedSearch)
    {run : Exploration R A} (history : run.space.HasHistory) : Bears budget calm bounded run := by
  cases next : bounded.search.next with
  | none =>
      refine bears_of_resting (fun now => ?_) run
      change bounded.doNext now = _
      rw [BoundedSearch.doNext, next]
  | some frame =>
      exact bears_of_closeUp calms (doNext_eq_arrive next) (arrive_withEngine bounded frame)
        (arrive_frame bounded frame) history

namespace Closing

omit [Acceptor.Unaware R A] in
theorem advances_applyAndQueue (state : StateId) (count : Nat) (closing : Closing)
    (run : Exploration R A) : run.Advances (applyAndQueue state count closing run).2.2 := by
  rw [(applyAndQueue_eq state count closing run).2]
  exact Exploration.advances_applyFirst state count run

/-- What a step makes of the applications in its state. -/
def settle (state : StateId) : Except Failure Unit × Closing × Exploration R A →
    Except Failure StateId × Closing × Exploration R A
  | (.error failure, queued, later) => (.error failure, queued, later)
  | (.ok _, queued, later) => (.ok state, queued.advance, later)

omit [Acceptor.Unaware R A] in
/-- With no state from before the run left to claim, exploration goes on as its
state is closed. -/
theorem doNext_of_unclaimed {closing : Closing} {state : StateId} (next : closing.next = some state)
    {run : Exploration R A} (unclaimed : ∀ other, run.isKnown other = false) :
    closing.doNext run = settle state (applyAndQueue state (run.pendingCount state).1 closing
      (run.pendingCount state).2) := by
  have nobody : ∀ states, closing.claimAll run states = (closing, run) := by
    intro states
    induction states with
    | nil => rfl
    | cons first rest inductionHypothesis =>
        have skipped : closing.claim run first = (closing, run) := by
          rw [claim, unclaimed, if_neg Bool.false_ne_true]
        rw [claimAll, List.foldl_cons, skipped]
        exact inductionHypothesis
  unfold doNext
  rw [next]
  simp only [nobody]
  cases applyAndQueue state (run.pendingCount state).1 closing (run.pendingCount state).2 with
  | mk result rest => cases result <;> rfl

omit [Acceptor.Unaware R A] in
theorem advances_doNext (closing : Closing) {run : Exploration R A}
    (unclaimed : ∀ other, run.isKnown other = false) :
    run.Advances (closing.doNext run).2.2 := by
  cases next : closing.next with
  | none =>
      rw [Closing.doNext, next]
      exact .refl run
  | some state =>
      have advances := (Exploration.advances_pendingCount run state).trans
        (advances_applyAndQueue state (run.pendingCount state).1 closing
          (run.pendingCount state).2)
      rw [doNext_of_unclaimed next unclaimed]
      cases applies : applyAndQueue state (run.pendingCount state).1 closing
          (run.pendingCount state).2 with
      | mk result rest =>
          rw [applies] at advances
          cases result <;> exact advances

theorem bears (calms : R.Calms budget calm) (closing : Closing) {run : Exploration R A}
    (history : run.space.HasHistory) (unclaimed : ∀ other, run.isKnown other = false) :
    Bears budget calm closing run := by
  cases next : closing.next with
  | none =>
      refine bears_of_resting (fun now => ?_) run
      change closing.doNext now = _
      rw [Closing.doNext, next]
  | some state =>
      have counting := Exploration.advances_pendingCount run state
      have here := doNext_of_unclaimed next unclaimed
      have calmly := doNext_of_unclaimed next
        (show ∀ other, (run.withEngine calm).isKnown other = false from unclaimed)
      rw [Exploration.pendingCount_withEngine] at calmly
      have applying := advances_applyAndQueue state (run.pendingCount state).1 closing
        (run.pendingCount state).2
      cases applies : applyAndQueue state (run.pendingCount state).1 closing
          (run.pendingCount state).2 with
      | mk result rest =>
          obtain ⟨queued, final⟩ := rest
          rw [applies] at here applying
          obtain ⟨resumes, mirrors⟩ := applyAndQueue_interruptible calms
            (history.evolves counting.space) (Exploration.quiet_pendingCount run state)
            (Exploration.length_pending_pendingCount run state) applies
          constructor
          · intro after later step
            change closing.doNext run = _ at step
            rw [here] at step
            cases result with
            | ok _ => cases step
            | error failure =>
                cases step
                obtain ⟨quiet, asked, less, sameNext, resumed⟩ := resumes rfl
                rw [Exploration.engine_pendingCount] at less
                refine ⟨less, ?_⟩
                have known : (final.withEngine calm).known = run.known :=
                  applying.known.trans counting.known
                have unclaimedLater : ∀ other, (final.withEngine calm).isKnown other = false := by
                  intro other
                  rw [Exploration.isKnown, known]
                  exact unclaimed other
                have counted : (final.withEngine calm).pendingCount state =
                    ((final.space.pending state).length, final.withEngine calm) :=
                  (quiet.withEngine calm).pendingCount asked
                change queued.doNext _ = closing.doNext _
                rw [doNext_of_unclaimed (sameNext.trans next) unclaimedLater, counted, resumed,
                  calmly]
          · intro answer after later step uninterrupted
            change closing.doNext run = _ at step
            change closing.doNext _ = _
            rw [here] at step
            rw [calmly]
            cases result with
            | ok _ =>
                cases step
                rw [mirrors (by simp), settle]
            | error failure =>
                cases step
                rw [mirrors (by simpa using uninterrupted), settle]
          · exact (closing.advances_doNext unclaimed).space

end Closing

end Interruptible

end OnTheFly
