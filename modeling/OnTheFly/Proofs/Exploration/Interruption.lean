import OnTheFly.Acceptor.CounterExamples
import OnTheFly.Acceptor.FinalStates
import OnTheFly.Acceptor.MatchingStates
import OnTheFly.Acceptor.Recorder
import OnTheFly.Proofs.Exploration.Closing
import OnTheFly.Proofs.StateSpace.Interruption

/-!
Contract: what an interruption does to a run.

Owns: acceptors that take no notice of the engine, runs with nothing left to
tell their acceptor, and that an application in such a run is either interrupted,
which leaves all but the engine as it was, or made as without interruptions.
-/

set_option autoImplicit false

namespace OnTheFly

/-! ## Acceptors -/

/-- An acceptor that takes no notice of what the engine remembers. -/
class Acceptor.Unaware (R : RuleSystem) (A : Type) [Acceptor R A] : Prop where
  prepare (space : StateSpace R) (engine : R.Engine) (acceptor : A) :
    Acceptor.prepare (space.withEngine engine) acceptor = Acceptor.prepare space acceptor
  notify (space : StateSpace R) (engine : R.Engine) (acceptor : A) (event : Event) :
    Acceptor.notify (space.withEngine engine) acceptor event =
      Acceptor.notify space acceptor event
  cancels (space : StateSpace R) (engine : R.Engine) (event : Event) (acceptor : A) :
    Acceptor.cancels (space.withEngine engine) event acceptor =
      Acceptor.cancels space event acceptor

section Library

variable {R : RuleSystem}

instance : Acceptor.Unaware R CounterExamples where
  prepare _ _ _ := rfl
  notify _ _ _ event := by cases event <;> rfl
  cancels _ _ _ _ := rfl

instance : Acceptor.Unaware R FinalStates where
  prepare _ _ _ := rfl
  notify _ _ _ event := by cases event <;> rfl
  cancels _ _ _ _ := rfl

instance : Acceptor.Unaware R (MatchingStates R) where
  prepare _ _ _ := rfl
  notify _ _ _ event := by cases event <;> rfl
  cancels _ _ _ _ := rfl

instance : Acceptor.Unaware R Witnesses where
  prepare _ _ _ := rfl
  notify _ _ _ event := by cases event <;> rfl
  cancels _ _ _ _ := rfl

instance : Acceptor.Unaware R Recorder where
  prepare _ _ _ := rfl
  notify _ _ _ event := by cases event <;> rfl
  cancels _ _ event _ := by cases event <;> rfl

end Library

/-- The failure of a step whose application was cancelled. -/
abbrev Failure.interrupted : Failure := .error .interrupted

namespace Exploration

variable {R : RuleSystem} {A : Type}

/-! ## Runs with another engine -/

/-- The same run with another engine. -/
def withEngine (run : Exploration R A) (engine : R.Engine) : Exploration R A :=
  { run with space := run.space.withEngine engine }

@[simp] theorem withEngine_withEngine (run : Exploration R A) (first second : R.Engine) :
    (run.withEngine first).withEngine second = run.withEngine second := rfl

@[simp] theorem withEngine_engine (run : Exploration R A) :
    run.withEngine run.space.engine = run := rfl

@[simp] theorem space_withEngine (run : Exploration R A) (engine : R.Engine) :
    (run.withEngine engine).space = run.space.withEngine engine := rfl

variable [Acceptor R A] [Acceptor.Unaware R A]

theorem foldl_deliver_withEngine (events : List Event) (run : Exploration R A)
    (engine : R.Engine) :
    events.foldl deliver (run.withEngine engine) =
      (events.foldl deliver run).withEngine engine := by
  induction events generalizing run with
  | nil => rfl
  | cons event events inductionHypothesis =>
      have first : (run.withEngine engine).deliver event =
          (run.deliver event).withEngine engine := by
        simp only [deliver, withEngine, Acceptor.Unaware.notify, Acceptor.Unaware.cancels]
      rw [List.foldl_cons, first, inductionHypothesis]
      rfl

theorem dispatch_withEngine (run : Exploration R A) (engine : R.Engine) :
    (run.withEngine engine).dispatch = run.dispatch.withEngine engine := by
  have told := foldl_deliver_withEngine run.space.events
    { run with space := run.space.drainEvents.2 } engine
  unfold dispatch
  simp only
  change (run.space.events.foldl deliver
    (({ run with space := run.space.drainEvents.2 } : Exploration R A).withEngine
      engine)).track _ = _
  rw [told]
  rfl

theorem pendingCount_withEngine (run : Exploration R A) (engine : R.Engine) (state : StateId) :
    (run.withEngine engine).pendingCount state =
      ((run.pendingCount state).1, (run.pendingCount state).2.withEngine engine) := by
  have asked := run.space.ensureMatches_withEngine engine state
  have told := dispatch_withEngine
    ({ run with space := run.space.ensureMatches state } : Exploration R A) engine
  unfold pendingCount StateSpace.pendingCount
  simp only [space_withEngine, asked, StateSpace.pending_withEngine]
  exact congrArg (Prod.mk _) told

/-! ## Quiet runs -/

omit [Acceptor.Unaware R A]

/-- Whether the acceptor and the observers of a run know all that has happened. -/
def Quiet (run : Exploration R A) : Prop :=
  run.dispatch = run

theorem quiet_of_drained {run : Exploration R A} (drained : run.space.events = [])
    (counted : run.progress.map ({ · with states := run.space.size }) = run.progress) :
    run.Quiet := by
  have nothing : run.space.drainEvents = ([], run.space) := by
    unfold StateSpace.drainEvents
    rw [drained, ← drained]
  unfold Quiet dispatch
  simp only [nothing, List.foldl_nil, track]
  rw [counted]

theorem quiet_dispatch (run : Exploration R A) : run.dispatch.Quiet := by
  have space := dispatch_space run
  refine quiet_of_drained (by rw [space]; rfl) ?_
  rw [space]
  unfold dispatch
  simp only [track, Option.map_map]
  rfl

theorem Quiet.withEngine [Acceptor.Unaware R A] {run : Exploration R A} (quiet : run.Quiet)
    (engine : R.Engine) : (run.withEngine engine).Quiet := by
  unfold Quiet
  rw [dispatch_withEngine, quiet]

/-- Counting again changes nothing once the matches are known. -/
theorem Quiet.pendingCount {run : Exploration R A} (quiet : run.Quiet) {state : StateId}
    (asked : run.space.Asked state) :
    run.pendingCount state = ((run.space.pending state).length, run) := by
  unfold Exploration.pendingCount StateSpace.pendingCount
  simp only [asked.ensureMatches]
  exact congrArg (Prod.mk _) quiet

theorem engine_pendingCount (run : Exploration R A) (state : StateId) :
    (run.pendingCount state).2.space.engine = run.space.engine := by
  rw [pendingCount, dispatch_space]
  exact StateSpace.engine_ensureMatches run.space state

theorem length_pending_pendingCount (run : Exploration R A) (state : StateId) :
    ((run.pendingCount state).2.space.pending state).length = (run.pendingCount state).1 := by
  rw [pendingCount, dispatch_space]
  rfl

theorem quiet_pendingCount (run : Exploration R A) (state : StateId) :
    (run.pendingCount state).2.Quiet :=
  quiet_dispatch _

theorem quiet_applyMatch {run : Exploration R A} {state : StateId} {position : Nat}
    {applied : Applied} (ok : (run.applyMatch state position).1 = .ok applied) :
    (run.applyMatch state position).2.Quiet := by
  unfold applyMatch at ok ⊢
  split at ok <;> rename_i outcome
  · simp only
    exact quiet_dispatch _
  · cases ok
  · cases ok

/-! ## Applications -/

variable [Acceptor.Unaware R A] {budget : R.Engine → Nat} {calm : R.Engine}

/-- An application is interrupted, and then nothing changes but the engine, or
it is made as with the calm engine. -/
theorem applyMatch_interruptible (calms : R.Calms budget calm) {run : Exploration R A}
    (quiet : run.Quiet) {state : StateId} (asked : run.space.Asked state) (position : Nat) :
    (∃ engine, run.applyMatch state position = (.error .interrupted, run.withEngine engine) ∧
      budget engine < budget run.space.engine) ∨
    ((run.withEngine calm).applyMatch state position =
        ((run.applyMatch state position).1, (run.applyMatch state position).2.withEngine calm) ∧
      (run.applyMatch state position).1 ≠ .error .interrupted ∧
      budget (run.applyMatch state position).2.space.engine ≤ budget run.space.engine) := by
  rcases run.space.applyMatch_interruptible calms state position with
    ⟨engine, interrupted, less⟩ | ⟨alike, uninterrupted, fewer⟩
  · refine .inl ⟨engine, ?_, less⟩
    unfold applyMatch
    rw [interrupted, asked.ensureMatches]
    exact congrArg (Prod.mk _) (quiet.withEngine engine)
  · refine .inr ?_
    unfold applyMatch
    rw [space_withEngine, alike]
    cases outcome : run.space.applyMatch state position with
    | mk result later =>
        rw [outcome] at uninterrupted fewer
        have told := dispatch_withEngine ({ run with space := later } : Exploration R A) calm
        match result with
        | .ok applied =>
            refine ⟨congrArg (Prod.mk _) told, by simp, ?_⟩
            simp only [dispatch_space]
            exact fewer
        | .error (.refused .interrupted) => exact absurd rfl uninterrupted
        | .error (.refused (.failed rule reason)) =>
            refine ⟨congrArg (Prod.mk _) told, ?_, ?_⟩
            · simp [Failure.ofMatchFailure, ExploreError.ofApplyError]
            · simp only [dispatch_space]
              exact fewer
        | .error (.outOfRange _ _) =>
            exact ⟨rfl, by simp [Failure.ofMatchFailure], fewer⟩

end Exploration

end OnTheFly
