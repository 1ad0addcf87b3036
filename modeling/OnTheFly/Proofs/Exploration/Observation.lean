import OnTheFly.Proofs.Exploration.Driven
import OnTheFly.Proofs.StateSpace.Narration

/-!
Contract: runs that are watched by more than their acceptor.

Owns: views of acceptors, under which every operation of a run does the same to
the viewed run, whatever its configuration; the acceptor that also keeps a log
of what it is told; the operations of which every step of a strategy consists,
with those apart that only explore; and that after any of these the log has told
all that became of the state space.
Does not own: the steps of a strategy.
-/

set_option autoImplicit false

namespace OnTheFly

/-! ## Views -/

/-- Whether `view` shows of an acceptor another one that is told the same and
gives the same answers. -/
structure Acceptor.IsView (R : RuleSystem) {A B : Type} [Acceptor R A] [Acceptor R B]
    (view : A → B) : Prop where
  prepare (space : StateSpace R) (acceptor : A) :
    view (Acceptor.prepare space acceptor) = Acceptor.prepare space (view acceptor)
  notify (space : StateSpace R) (acceptor : A) (event : Event) :
    view (Acceptor.notify space acceptor event) = Acceptor.notify space (view acceptor) event
  cancels (space : StateSpace R) (event : Event) (acceptor : A) :
    Acceptor.cancels space event acceptor = Acceptor.cancels space event (view acceptor)
  addCounterExample (path : List StateId) (acceptor : A) :
    view (Acceptor.addCounterExample (R := R) path acceptor) =
      Acceptor.addCounterExample (R := R) path (view acceptor)
  done (acceptor : A) : Acceptor.done (R := R) acceptor = Acceptor.done (R := R) (view acceptor)
  message (acceptor : A) :
    Acceptor.message (R := R) acceptor = Acceptor.message (R := R) (view acceptor)

/-- Whether no change of the state space makes a difference to an acceptor. -/
def Acceptor.IgnoresChanges (R : RuleSystem) (A : Type) [Acceptor R A] : Prop :=
  ∀ (space : StateSpace R) (acceptor : A) (event : Event),
    Acceptor.notify space acceptor event = acceptor

/-- An acceptor with the events that it was told of, oldest first. -/
structure Logged (A : Type) where
  acceptor : A
  log : List Event := []

namespace Logged

variable {R : RuleSystem} {A : Type} [Acceptor R A]

instance : Acceptor R (Logged A) where
  prepare space logged := { logged with acceptor := Acceptor.prepare space logged.acceptor }
  stateAdded space state logged :=
    ⟨Acceptor.stateAdded space state logged.acceptor, logged.log ++ [.stateAdded state]⟩
  transitionAdded space transition logged :=
    ⟨Acceptor.transitionAdded space transition logged.acceptor,
      logged.log ++ [.transitionAdded transition]⟩
  stateClosed space state logged :=
    ⟨Acceptor.stateClosed space state logged.acceptor, logged.log ++ [.stateClosed state]⟩
  addState state logged :=
    { logged with acceptor := Acceptor.addState (R := R) state logged.acceptor }
  addCounterExample path logged :=
    { logged with acceptor := Acceptor.addCounterExample (R := R) path logged.acceptor }
  answers logged := Acceptor.answers (R := R) logged.acceptor
  done logged := Acceptor.done (R := R) logged.acceptor
  message logged := Acceptor.message (R := R) logged.acceptor
  cancels space event logged := Acceptor.cancels space event logged.acceptor

/-- Keeping a log changes nothing for the acceptor. -/
theorem isView : Acceptor.IsView R (Logged.acceptor (A := A)) where
  prepare _ _ := rfl
  notify _ _ event := by cases event <;> rfl
  cancels _ _ _ := rfl
  addCounterExample _ _ := rfl
  done _ := rfl
  message _ := rfl

theorem log_notify (space : StateSpace R) (logged : Logged A) (event : Event) :
    (Acceptor.notify space logged event).log = logged.log ++ [event] := by
  cases event <;> rfl

end Logged

namespace Exploration

variable {R : RuleSystem} {A B : Type}

/-- The run as the viewed acceptor sees it, with an adjusted configuration. -/
def map (run : Exploration R A) (view : A → B) (adjust : Config → Config := id) :
    Exploration R B where
  space := run.space
  acceptor := view run.acceptor
  config := adjust run.config
  start := run.start
  known := run.known
  progress := run.progress
  stopRequested := run.stopRequested

variable [Acceptor R A] [Acceptor R B] {view : A → B} {adjust : Config → Config}

theorem deliver_map (isView : Acceptor.IsView R view) (run : Exploration R A) (event : Event) :
    (run.map view adjust).deliver event = (run.deliver event).map view adjust := by
  simp only [deliver, map, isView.notify, isView.cancels]

theorem foldl_deliver_map (isView : Acceptor.IsView R view) (events : List Event)
    (run : Exploration R A) :
    events.foldl deliver (run.map view adjust) = (events.foldl deliver run).map view adjust := by
  induction events generalizing run with
  | nil => rfl
  | cons event events inductionHypothesis =>
      rw [List.foldl_cons, List.foldl_cons, deliver_map isView, inductionHypothesis]

theorem dispatch_map (isView : Acceptor.IsView R view) (run : Exploration R A) :
    (run.map view adjust).dispatch = run.dispatch.map view adjust := by
  unfold dispatch
  simp only
  exact congrArg (track · _) (foldl_deliver_map isView run.space.events
    { run with space := run.space.drainEvents.2 })

theorem pendingCount_map (isView : Acceptor.IsView R view) (run : Exploration R A)
    (state : StateId) :
    (run.map view adjust).pendingCount state =
      ((run.pendingCount state).1, (run.pendingCount state).2.map view adjust) :=
  congrArg (Prod.mk _) (dispatch_map isView { run with space := run.space.ensureMatches state })

theorem applyMatch_map (isView : Acceptor.IsView R view) (run : Exploration R A)
    (state : StateId) (position : Nat) :
    (run.map view adjust).applyMatch state position =
      ((run.applyMatch state position).1, (run.applyMatch state position).2.map view adjust) := by
  unfold applyMatch
  rw [show (run.map view adjust).space = run.space from rfl]
  cases run.space.applyMatch state position with
  | mk result space =>
      match result with
      | .ok applied => exact congrArg (Prod.mk _) (dispatch_map isView { run with space := space })
      | .error (.refused error) =>
          exact congrArg (Prod.mk _) (dispatch_map isView { run with space := space })
      | .error (.outOfRange _ _) => rfl

theorem applyFirst_map (isView : Acceptor.IsView R view) (state : StateId) (count : Nat)
    (run : Exploration R A) :
    applyFirst state count (run.map view adjust) =
      ((applyFirst state count run).1, (applyFirst state count run).2.map view adjust) := by
  induction count generalizing run with
  | zero => rfl
  | succ count inductionHypothesis =>
      unfold applyFirst
      rw [applyMatch_map isView]
      cases run.applyMatch state 0 with
      | mk result next =>
          cases result with
          | error failure => rfl
          | ok applied =>
              simp only
              rw [inductionHypothesis]
              cases applyFirst state count next with
              | mk restResult final => cases restResult <;> rfl

theorem closeState_map (isView : Acceptor.IsView R view) (run : Exploration R A)
    (state : StateId) :
    (run.map view adjust).closeState state =
      ((run.closeState state).1, (run.closeState state).2.map view adjust) := by
  unfold closeState
  rw [pendingCount_map isView]
  exact applyFirst_map isView state _ _

/-! ## Operations of a run -/

/-- What a run becomes by operations that a strategy may use: it counts the
matches of a state, applies one of them, or leaves the state space alone and
does not tell the acceptor of any change. -/
inductive Operates (run : Exploration R A) : Exploration R A → Prop where
  | none : Operates run run
  | counted {now : Exploration R A} (before : Operates run now) (state : StateId) :
      Operates run (now.pendingCount state).2
  | applied {now : Exploration R A} (before : Operates run now) (state : StateId)
      (position : Nat)
      (inRange : position < ((now.space.ensureMatches state).pending state).length) :
      Operates run (now.applyMatch state position).2
  | aside {now later : Exploration R A} (before : Operates run now)
      (space : later.space = now.space)
      (acceptor : later.acceptor = now.acceptor ∨
        ∃ path, later.acceptor = Acceptor.addCounterExample (R := R) path now.acceptor) :
      Operates run later

theorem Operates.trans {first second third : Exploration R A} (before : first.Operates second)
    (after : second.Operates third) : first.Operates third := by
  induction after with
  | none => exact before
  | counted _ state inductionHypothesis => exact inductionHypothesis.counted state
  | applied _ state position inRange inductionHypothesis =>
      exact inductionHypothesis.applied state position inRange
  | aside _ space acceptor inductionHypothesis => exact inductionHypothesis.aside space acceptor

theorem Operates.evolves {run later : Exploration R A} (operates : run.Operates later) :
    run.space.Evolves later.space := by
  induction operates with
  | none => exact .refl
  | counted _ state inductionHypothesis =>
      exact inductionHypothesis.trans (advances_pendingCount _ state).space
  | applied _ state position _ inductionHypothesis =>
      exact inductionHypothesis.trans (advances_applyMatch _ state position).space
  | aside _ space _ inductionHypothesis =>
      rw [space]
      exact inductionHypothesis

/-- What a run becomes by counting and applying matches alone: nothing else
changes its state space or reaches its acceptor. -/
inductive Explores (run : Exploration R A) : Exploration R A → Prop where
  | none : Explores run run
  | counted {now : Exploration R A} (before : Explores run now) (state : StateId) :
      Explores run (now.pendingCount state).2
  | applied {now : Exploration R A} (before : Explores run now) (state : StateId)
      (position : Nat)
      (inRange : position < ((now.space.ensureMatches state).pending state).length) :
      Explores run (now.applyMatch state position).2
  | aside {now later : Exploration R A} (before : Explores run now)
      (space : later.space = now.space) (acceptor : later.acceptor = now.acceptor) :
      Explores run later

theorem Explores.trans {first second third : Exploration R A} (before : first.Explores second)
    (after : second.Explores third) : first.Explores third := by
  induction after with
  | none => exact before
  | counted _ state inductionHypothesis => exact inductionHypothesis.counted state
  | applied _ state position inRange inductionHypothesis =>
      exact inductionHypothesis.applied state position inRange
  | aside _ space acceptor inductionHypothesis => exact inductionHypothesis.aside space acceptor

theorem Explores.operates {run later : Exploration R A} (explores : run.Explores later) :
    run.Operates later := by
  induction explores with
  | none => exact .none
  | counted _ state inductionHypothesis => exact inductionHypothesis.counted state
  | applied _ state position inRange inductionHypothesis =>
      exact inductionHypothesis.applied state position inRange
  | aside _ space acceptor inductionHypothesis =>
      exact inductionHypothesis.aside space (.inl acceptor)

theorem acceptor_foldl_deliver (events : List Event) (run : Exploration R A) :
    (events.foldl deliver run).acceptor =
      events.foldl (Acceptor.notify run.space) run.acceptor := by
  induction events generalizing run with
  | nil => rfl
  | cons event events inductionHypothesis =>
      exact inductionHypothesis (run.deliver event)

theorem acceptor_dispatch (run : Exploration R A) :
    run.dispatch.acceptor =
      run.space.events.foldl (Acceptor.notify run.space.drainEvents.2) run.acceptor :=
  acceptor_foldl_deliver run.space.events { run with space := run.space.drainEvents.2 }

theorem acceptor_dispatch_of_ignores (ignores : Acceptor.IgnoresChanges R A)
    (run : Exploration R A) : run.dispatch.acceptor = run.acceptor := by
  rw [acceptor_dispatch]
  exact List.foldl_fixed' (ignores run.space.drainEvents.2 run.acceptor) _

theorem Explores.acceptor_of_ignores {run later : Exploration R A}
    (ignores : Acceptor.IgnoresChanges R A) (explores : run.Explores later) :
    later.acceptor = run.acceptor := by
  induction explores with
  | none => rfl
  | counted _ state inductionHypothesis =>
      exact (acceptor_dispatch_of_ignores ignores _).trans inductionHypothesis
  | applied _ state position _ inductionHypothesis =>
      unfold applyMatch
      split
      · exact (acceptor_dispatch_of_ignores ignores _).trans inductionHypothesis
      · exact (acceptor_dispatch_of_ignores ignores _).trans inductionHypothesis
      · exact inductionHypothesis
  | aside _ _ acceptor inductionHypothesis => exact acceptor.trans inductionHypothesis

theorem applyFirst_explores {state : StateId} {count : Nat} {run : Exploration R A}
    (history : run.space.HasHistory) (asked : run.space.Asked state)
    (waiting : (run.space.pending state).length = count) :
    run.Explores (applyFirst state count run).2 := by
  induction count generalizing run with
  | zero => exact .none
  | succ count inductionHypothesis =>
      have inRange : 0 < ((run.space.ensureMatches state).pending state).length := by
        rw [asked.ensureMatches, waiting]
        omega
      have first : run.Explores (run.applyMatch state 0).2 := .applied .none state 0 inRange
      have evolves := first.operates.evolves
      have step := fun applied (ok : (run.applyMatch state 0).1 = .ok applied) =>
        applyMatch_asked history asked ok
      rw [waiting, Nat.add_sub_cancel] at step
      unfold applyFirst
      cases outcome : run.applyMatch state 0 with
      | mk result next =>
          rw [outcome] at first evolves step
          cases result with
          | error failure => exact first
          | ok applied =>
              obtain ⟨askedAfter, waitingAfter⟩ := step applied rfl
              have others := first.trans
                (inductionHypothesis (history.evolves evolves) askedAfter waitingAfter)
              simp only
              cases rest : applyFirst state count next with
              | mk restResult final =>
                  rw [rest] at others
                  cases restResult <;> exact others

/-- Closing a state applies its pending matches and no others. -/
theorem closeState_explores {run : Exploration R A} (history : run.space.HasHistory)
    (state : StateId) : run.Explores (run.closeState state).2 := by
  have counted : run.Explores (run.pendingCount state).2 := .counted .none state
  by_cases nothing : (run.pendingCount state).1 = 0
  · unfold closeState
    simp only [nothing, applyFirst]
    exact counted
  · obtain ⟨asked, waiting⟩ := pendingCount_asked history (contains_of_pendingCount nothing)
    exact counted.trans
      (applyFirst_explores (history.evolves counted.operates.evolves) asked waiting)

/-! ## Logs of runs -/

/-- Whether the log of a run has told all that became of `origin`. -/
structure Heard (origin : StateSpace R) (run : Exploration R (Logged A)) : Prop where
  history : run.space.HasHistory
  narrates : origin.Narrates run.acceptor.log run.space
  quiet : run.space.events = []

theorem log_foldl_deliver (events : List Event) (run : Exploration R (Logged A)) :
    (events.foldl deliver run).acceptor.log = run.acceptor.log ++ events := by
  induction events generalizing run with
  | nil => exact (List.append_nil _).symm
  | cons event events inductionHypothesis =>
      rw [List.foldl_cons, inductionHypothesis]
      simp only [deliver, Logged.log_notify, List.append_assoc, List.singleton_append]

theorem log_dispatch (run : Exploration R (Logged A)) :
    run.dispatch.acceptor.log = run.acceptor.log ++ run.space.events :=
  log_foldl_deliver run.space.events { run with space := run.space.drainEvents.2 }

/-- Telling of all queued events completes the log. -/
theorem heard_dispatch {origin : StateSpace R} {run : Exploration R (Logged A)}
    (history : run.space.HasHistory) (narrated : origin.Narrated run.acceptor.log run.space) :
    Heard origin run.dispatch := by
  have drained := narrated.drain
  rw [← log_dispatch, ← dispatch_space] at drained
  have quiet : run.dispatch.space.events = [] := by
    rw [dispatch_space]
    rfl
  refine ⟨history.evolves (advances_dispatch run).space, ?_, quiet⟩
  unfold StateSpace.Narrated at drained
  rwa [quiet, List.append_nil] at drained

namespace Heard

variable {origin : StateSpace R} {run later : Exploration R (Logged A)}

omit [Acceptor R A] in
theorem narrated (heard : Heard origin run) :
    origin.Narrated run.acceptor.log run.space := by
  unfold StateSpace.Narrated
  rw [heard.quiet, List.append_nil]
  exact heard.narrates

theorem pendingCount (heard : Heard origin run) (state : StateId) :
    Heard origin (run.pendingCount state).2 :=
  heard_dispatch (heard.history.evolves (.single (.ask run.space state)))
    (heard.narrated.ensureMatches state)

theorem applyMatch (heard : Heard origin run) {state : StateId} {position : Nat}
    (inRange : position < ((run.space.ensureMatches state).pending state).length) :
    Heard origin (run.applyMatch state position).2 := by
  have history := heard.history.evolves (.single (.apply run.space state position))
  have narrated := heard.narrated.applyMatch heard.history.wellFormed state position
  have found := run.space.applyMatch_inRange inRange
  unfold Exploration.applyMatch
  cases outcome : run.space.applyMatch state position with
  | mk result space =>
      rw [outcome] at history narrated found
      match result with
      | .ok applied => exact heard_dispatch history narrated
      | .error (.refused error) => exact heard_dispatch history narrated
      | .error (.outOfRange wrong other) => exact absurd rfl (found wrong other)

omit [Acceptor R A] in
theorem aside (heard : Heard origin run) (space : later.space = run.space)
    (log : later.acceptor.log = run.acceptor.log) : Heard origin later := by
  obtain ⟨history, narrates, quiet⟩ := heard
  constructor
  · rwa [space]
  · rwa [space, log]
  · rwa [space]

/-- Whatever a run does, its log keeps up with it. -/
theorem operates (heard : Heard origin run) (operates : run.Operates later) :
    Heard origin later := by
  induction operates with
  | none => exact heard
  | counted _ state inductionHypothesis => exact inductionHypothesis.pendingCount state
  | applied _ _ _ inRange inductionHypothesis => exact inductionHypothesis.applyMatch inRange
  | aside _ space acceptor inductionHypothesis =>
      apply inductionHypothesis.aside space
      rcases acceptor with same | ⟨path, recorded⟩
      · rw [same]
      · rw [recorded]
        rfl

end Heard

end Exploration

end OnTheFly
