import OnTheFly.Proofs.Exploration.Closing

/-!
Contract: what a run does to its state space depends on the state space only.

Owns: that runs over equal state spaces close a state alike, whatever their
acceptors are, and that closing a closed state changes nothing.
-/

set_option autoImplicit false

namespace OnTheFly

namespace Exploration

variable {R : RuleSystem} {A B : Type} [Acceptor R A] [Acceptor R B]

theorem applyMatch_agrees {run : Exploration R A} {other : Exploration R B}
    (same : run.space = other.space) (state : StateId) (position : Nat) :
    (run.applyMatch state position).1 = (other.applyMatch state position).1 ∧
      (run.applyMatch state position).2.space = (other.applyMatch state position).2.space := by
  unfold applyMatch
  rw [same]
  cases other.space.applyMatch state position with
  | mk result space =>
      match result with
      | .ok applied => exact ⟨rfl, by simp only [dispatch_space]⟩
      | .error (.refused error) => exact ⟨rfl, by simp only [dispatch_space]⟩
      | .error (.outOfRange _ _) => exact ⟨rfl, rfl⟩

theorem applyFirst_agrees (state : StateId) (count : Nat) {run : Exploration R A}
    {other : Exploration R B} (same : run.space = other.space) :
    (applyFirst state count run).1 = (applyFirst state count other).1 ∧
      (applyFirst state count run).2.space = (applyFirst state count other).2.space := by
  induction count generalizing run other with
  | zero => exact ⟨rfl, same⟩
  | succ count inductionHypothesis =>
      obtain ⟨sameResult, sameSpace⟩ := applyMatch_agrees same state 0
      unfold applyFirst
      cases first : run.applyMatch state 0 with
      | mk result next =>
          cases second : other.applyMatch state 0 with
          | mk otherResult otherNext =>
              rw [first, second] at sameResult sameSpace
              cases sameResult
              cases result with
              | error failure => exact ⟨rfl, sameSpace⟩
              | ok applied =>
                  obtain ⟨sameRest, sameFinal⟩ := inductionHypothesis sameSpace
                  simp only
                  cases rest : applyFirst state count next with
                  | mk restResult final =>
                      cases otherRest : applyFirst state count otherNext with
                      | mk otherRestResult otherFinal =>
                          rw [rest, otherRest] at sameRest sameFinal
                          cases sameRest
                          cases restResult with
                          | error failure => exact ⟨rfl, sameFinal⟩
                          | ok others => exact ⟨rfl, sameFinal⟩

/-- Runs over equal state spaces close a state alike. -/
theorem closeState_agrees {run : Exploration R A} {other : Exploration R B}
    (same : run.space = other.space) (state : StateId) :
    (run.closeState state).1 = (other.closeState state).1 ∧
      (run.closeState state).2.space = (other.closeState state).2.space := by
  have sameCount : (run.pendingCount state).1 = (other.pendingCount state).1 := by
    simp only [pendingCount, same]
  have sameSpace : (run.pendingCount state).2.space = (other.pendingCount state).2.space := by
    simp only [pendingCount, dispatch_space, same]
  unfold closeState
  simp only [sameCount]
  exact applyFirst_agrees state _ sameSpace

theorem events_applyFirst {state : StateId} {count : Nat} {run : Exploration R A}
    (quiet : run.space.events = []) {applied : List Applied}
    (ok : (applyFirst state count run).1 = .ok applied) :
    (applyFirst state count run).2.space.events = [] := by
  induction count generalizing run applied with
  | zero => exact quiet
  | succ count inductionHypothesis =>
      unfold applyFirst at ok ⊢
      cases first : run.applyMatch state 0 with
      | mk result next =>
          cases result with
          | error failure => simp [first] at ok
          | ok one =>
              have quietNext : next.space.events = [] := by
                have drained := applyMatch_space_of_ok (congrArg Prod.fst first)
                rw [first] at drained
                rw [drained]
                rfl
              simp only [first] at ok ⊢
              cases rest : applyFirst state count next with
              | mk restResult final =>
                  cases restResult with
                  | error failure => simp [rest] at ok
                  | ok others =>
                      have quietFinal := inductionHypothesis quietNext (congrArg Prod.fst rest)
                      rw [rest] at quietFinal
                      exact quietFinal

/-- When a state has been closed, the acceptor has been told of everything. -/
theorem events_closeState {run : Exploration R A} {state : StateId} {applied : List Applied}
    (ok : (run.closeState state).1 = .ok applied) :
    (run.closeState state).2.space.events = [] := by
  have quiet : (run.pendingCount state).2.space.events = [] := by
    rw [pendingCount, dispatch_space]
    rfl
  exact events_applyFirst quiet ok

/-- Closing a closed state changes nothing. -/
theorem closeState_of_isClosed {run : Exploration R A} {state : StateId}
    (wellFormed : run.space.WellFormed) (quiet : run.space.events = [])
    (closed : run.space.isClosed state = true) :
    (run.closeState state).1 = .ok [] ∧ (run.closeState state).2.space = run.space := by
  obtain ⟨info, present, isClosed⟩ : ∃ info, run.space.info? state = some info ∧
      info.closed = true := by
    simpa [StateSpace.isClosed, Option.any_eq_true] using closed
  have unchanged : run.space.ensureMatches state = run.space := by
    simp [StateSpace.ensureMatches, present, isClosed]
  have nothing : run.space.pending state = [] := by
    rw [StateSpace.pending_of_info? present, wellFormed.closed_done present isClosed]
    rfl
  have drained : run.space.drainEvents.2 = run.space := by
    unfold StateSpace.drainEvents
    rw [← quiet]
  unfold closeState
  simp only [pendingCount, StateSpace.pendingCount, unchanged, nothing, List.length_nil, applyFirst]
  exact ⟨trivial, by rw [dispatch_space, drained]⟩

end Exploration

end OnTheFly
