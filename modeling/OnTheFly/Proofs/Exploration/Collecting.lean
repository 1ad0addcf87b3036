import OnTheFly.Acceptor.FinalStates
import OnTheFly.Acceptor.MatchingStates
import OnTheFly.Proofs.Exploration.Observation

/-!
Contract: acceptors that collect states.

Owns: what it means that answers are exactly the wanted states; the acceptors
that look at every state before a run and, in a run, at the states that events
of one kind are about; and that such an acceptor has exactly the wanted states
as answers after every operation that explores, whatever it held before.
Does not own: the steps of a strategy.
-/

set_option autoImplicit false

namespace OnTheFly

/-! ## Answers -/

namespace Answers

/-- Whether the answers are the wanted states, each of them once. -/
structure AreExactly (answers : Answers) (Wanted : StateId → Prop) : Prop where
  nodup : answers.states.Nodup
  mem {state : StateId} : state ∈ answers.states ↔ Wanted state

variable {answers : Answers} {Wanted Other : StateId → Prop}

theorem AreExactly.congr (exact_ : answers.AreExactly Wanted)
    (same : ∀ state, Wanted state ↔ Other state) : answers.AreExactly Other :=
  ⟨exact_.nodup, exact_.mem.trans (same _)⟩

theorem areExactly_of_states_eq_nil (empty : answers.states = []) :
    answers.AreExactly fun _ => False := by
  constructor
  · rw [empty]
    exact List.nodup_nil
  · simp [empty]

theorem AreExactly.record (exact_ : answers.AreExactly Wanted) (state : StateId) :
    (answers.record state).AreExactly fun other => Wanted other ∨ other = state := by
  unfold Answers.record Answers.add
  by_cases known : answers.contains state = true
  · rw [if_pos known]
    have member : Wanted state := exact_.mem.1 (List.contains_iff_mem.1 known)
    refine exact_.congr fun other => ⟨.inl, ?_⟩
    rintro (wanted | rfl)
    · exact wanted
    · exact member
  · rw [if_neg known]
    have fresh : state ∉ answers.states := fun member => known (List.contains_iff_mem.2 member)
    constructor
    · exact List.nodup_append_comm.2 (List.nodup_cons.2 ⟨fresh, exact_.nodup⟩)
    · intro other
      rw [List.mem_append, List.mem_singleton, exact_.mem]

end Answers

/-! ## Collecting acceptors -/

/-- Whether an acceptor collects the wanted states: it checks every state before
a run and, in a run, the subject of every event of one kind. Wanted states stay
wanted, and those that become wanted are subjects of such events. -/
structure Acceptor.Collects (R : RuleSystem) {A : Type} [Acceptor R A]
    (check : StateSpace R → A → StateId → A) (subject? : Event → Option StateId)
    (wanted : A → StateSpace R → StateId → Bool) : Prop where
  prepare (space : StateSpace R) (acceptor : A) :
    ∃ cleared, Acceptor.prepare space acceptor = space.stateIds.foldl (check space) cleared ∧
      (Acceptor.answers (R := R) cleared).states = [] ∧ wanted cleared = wanted acceptor
  notify (space : StateSpace R) (acceptor : A) (event : Event) :
    Acceptor.notify space acceptor event = (subject? event).elim acceptor (check space acceptor)
  checked (space : StateSpace R) (acceptor : A) (state : StateId) :
    Acceptor.answers (R := R) (check space acceptor state) =
      if wanted acceptor space state then (Acceptor.answers (R := R) acceptor).record state
      else Acceptor.answers (R := R) acceptor
  same (space : StateSpace R) (acceptor : A) (state : StateId) :
    wanted (check space acceptor state) = wanted acceptor
  contained {space : StateSpace R} {acceptor : A} {state : StateId} :
    wanted acceptor space state = true → space.contains state = true
  lasting {space later : StateSpace R} {acceptor : A} {state : StateId} :
    space.Extends later → wanted acceptor space state = true →
      wanted acceptor later state = true
  told {space later : StateSpace R} {log : List Event} {acceptor : A} {state : StateId} :
    space.Extends later → space.Tells later log → wanted acceptor later state = true →
      wanted acceptor space state = true ∨ state ∈ log.filterMap subject?

/-- A state becomes final when it is closed. -/
theorem FinalStates.collects {R : RuleSystem} :
    Acceptor.Collects R (A := FinalStates) check Event.closedState? fun _ => isFinal where
  prepare _ acceptor := ⟨⟨acceptor.answers.clear⟩, rfl, rfl, rfl⟩
  notify _ _ event := by cases event <;> rfl
  checked space acceptor state := by
    unfold check
    split <;> rfl
  same _ _ _ := rfl
  contained {space _ state} final := by
    cases present : space.info? state with
    | none => simp [isFinal, StateSpace.isClosed, present] at final
    | some info => exact StateSpace.contains_of_info? present
  lasting extends_ final := by
    simp only [isFinal, Bool.and_eq_true] at final ⊢
    obtain ⟨closed, sameOut⟩ := extends_.closed final.1
    exact ⟨closed, sameOut ▸ final.2⟩
  told {space _ _ _ state} extends_ tells final := by
    simp only [isFinal, Bool.and_eq_true] at final ⊢
    cases before : space.isClosed state with
    | true => exact .inl ⟨rfl, (extends_.closed before).2 ▸ final.2⟩
    | false => exact .inr (tells.closed.2 ⟨before, final.1⟩)

theorem StateSpace.isSome_graph? {R : RuleSystem} {space : StateSpace R} {state : StateId} :
    (space.graph? state).isSome = true ↔ state.index < space.size := by
  simp [graph?, info?, StateSpace.size]

/-- Whether a state matches is settled when it is added. -/
theorem MatchingStates.collects {R : RuleSystem} :
    Acceptor.Collects R (A := MatchingStates R) check Event.addedState?
      fun acceptor space state => (space.graph? state).any acceptor.predicate where
  prepare _ acceptor := ⟨{ acceptor with answers := acceptor.answers.clear }, rfl, rfl, rfl⟩
  notify _ _ event := by cases event <;> rfl
  checked space acceptor state := by
    unfold check
    split <;> rfl
  same space acceptor state := by
    unfold check
    split <;> rfl
  contained {_ _ _} found := by
    obtain ⟨graph, stored, _⟩ := (Option.any_eq_true _ _).1 found
    obtain ⟨_, present, _⟩ := StateSpace.graph?_eq_some.1 stored
    exact StateSpace.contains_of_info? present
  lasting extends_ found := by
    obtain ⟨graph, stored, satisfied⟩ := (Option.any_eq_true _ _).1 found
    exact (Option.any_eq_true _ _).2 ⟨graph, extends_.graph stored, satisfied⟩
  told {space later log acceptor state} extends_ tells found := by
    obtain ⟨graph, stored, satisfied⟩ := (Option.any_eq_true _ _).1 found
    cases before : space.graph? state with
    | some other =>
        have same : some other = some graph := (extends_.graph before).symm.trans stored
        cases same
        exact .inl satisfied
    | none =>
        have absent : ¬ state.index < space.size := by
          rw [← StateSpace.isSome_graph?, before]
          exact Bool.false_ne_true
        have present : state.index < later.size := by
          rw [← StateSpace.isSome_graph?, stored]
          rfl
        exact .inr (Event.mem_addedState.2
          (tells.mem_states.2 ⟨Nat.le_of_not_lt absent, present⟩))

namespace Acceptor.Collects

variable {R : RuleSystem} {A : Type} [Acceptor R A] {check : StateSpace R → A → StateId → A}
  {subject? : Event → Option StateId} {wanted : A → StateSpace R → StateId → Bool}

theorem foldl_check (collects : Acceptor.Collects R check subject? wanted) (space : StateSpace R)
    {acceptor : A} (states : List StateId) {Before : StateId → Prop}
    (exact_ : (Acceptor.answers (R := R) acceptor).AreExactly Before) :
    wanted (states.foldl (check space) acceptor) = wanted acceptor ∧
      (Acceptor.answers (R := R) (states.foldl (check space) acceptor)).AreExactly
        fun state => Before state ∨ state ∈ states ∧ wanted acceptor space state = true := by
  induction states generalizing acceptor Before with
  | nil => exact ⟨rfl, exact_.congr (by simp)⟩
  | cons first states inductionHypothesis =>
      have checked : (Acceptor.answers (R := R) (check space acceptor first)).AreExactly
          fun state => Before state ∨ state = first ∧ wanted acceptor space state = true := by
        rw [collects.checked]
        split
        · rename_i isWanted
          refine (exact_.record first).congr fun state => or_congr_right ⟨?_, And.left⟩
          rintro rfl
          exact ⟨rfl, isWanted⟩
        · rename_i unwanted
          refine exact_.congr fun state => ⟨.inl, ?_⟩
          rintro (before | ⟨rfl, isWanted⟩)
          · exact before
          · exact absurd isWanted unwanted
      have same := collects.same space acceptor first
      obtain ⟨sameAfter, others⟩ := inductionHypothesis checked
      rw [same] at sameAfter others
      refine ⟨sameAfter, others.congr fun state => ?_⟩
      rw [List.mem_cons, or_assoc, or_and_right]

theorem foldl_notify (collects : Acceptor.Collects R check subject? wanted)
    (space : StateSpace R) (events : List Event) (acceptor : A) :
    events.foldl (Acceptor.notify space) acceptor =
      (events.filterMap subject?).foldl (check space) acceptor := by
  induction events generalizing acceptor with
  | nil => rfl
  | cons event events inductionHypothesis =>
      rw [List.foldl_cons, inductionHypothesis, collects.notify]
      cases subject : subject? event with
      | none => rw [List.filterMap_cons_none subject, Option.elim]
      | some state => rw [List.filterMap_cons_some subject, List.foldl_cons, Option.elim]

/-- Before a run an acceptor is brought up to date with the state space. -/
theorem prepared (collects : Acceptor.Collects R check subject? wanted) (space : StateSpace R)
    (acceptor : A) :
    wanted (Acceptor.prepare space acceptor) = wanted acceptor ∧
      (Acceptor.answers (R := R) (Acceptor.prepare space acceptor)).AreExactly
        fun state => wanted acceptor space state = true := by
  obtain ⟨cleared, prepare, empty, same⟩ := collects.prepare space acceptor
  obtain ⟨sameAfter, exact_⟩ :=
    collects.foldl_check space space.stateIds (Answers.areExactly_of_states_eq_nil empty)
  rw [prepare, ← same]
  refine ⟨sameAfter, exact_.congr fun state => ?_⟩
  rw [false_or]
  exact ⟨And.right, fun isWanted =>
    ⟨StateSpace.mem_stateIds.2 (collects.contained isWanted), isWanted⟩⟩

/-- What an acceptor is told in a run brings it up to date again. -/
theorem updated (collects : Acceptor.Collects R check subject? wanted)
    {space later : StateSpace R} {acceptor : A} {events : List Event}
    (extends_ : space.Extends later) (tells : space.Tells later events)
    (exact_ : (Acceptor.answers (R := R) acceptor).AreExactly
      fun state => wanted acceptor space state = true) :
    wanted (events.foldl (Acceptor.notify later) acceptor) = wanted acceptor ∧
      (Acceptor.answers (R := R) (events.foldl (Acceptor.notify later) acceptor)).AreExactly
        fun state => wanted acceptor later state = true := by
  obtain ⟨same, updated⟩ :=
    collects.foldl_check later (events.filterMap subject?) exact_
  rw [collects.foldl_notify]
  refine ⟨same, updated.congr fun state => ⟨?_, fun isWanted => ?_⟩⟩
  · rintro (before | ⟨_, isWanted⟩)
    · exact collects.lasting extends_ before
    · exact isWanted
  · -- The scan before and the events after leave no gap between them.
    rcases collects.told extends_ tells isWanted with before | subject
    · exact .inl before
    · exact .inr ⟨subject, isWanted⟩

end Acceptor.Collects

/-! ## Runs -/

namespace Exploration

variable {R : RuleSystem} {A : Type} [Acceptor R A] {check : StateSpace R → A → StateId → A}
  {subject? : Event → Option StateId} {wanted : A → StateSpace R → StateId → Bool}
  {asked : StateSpace R → StateId → Bool} {run later : Exploration R A}

/-- Whether the acceptor of a run still asks for the same states and has exactly
these as answers. -/
structure Collected (wanted : A → StateSpace R → StateId → Bool)
    (asked : StateSpace R → StateId → Bool) (run : Exploration R A) : Prop where
  history : run.space.HasHistory
  quiet : run.space.events = []
  same : wanted run.acceptor = asked
  exactly : (Acceptor.answers (R := R) run.acceptor).AreExactly
    fun state => asked run.space state = true

namespace Collected

/-- Telling the acceptor of what happened to the space keeps it up to date. -/
theorem dispatch (collected : Collected wanted asked run)
    (collects : Acceptor.Collects R check subject? wanted) {space : StateSpace R}
    (evolves : run.space.Evolves space) (narrated : run.space.Narrated [] space) :
    Collected wanted asked ({ run with space := space } : Exploration R A).dispatch := by
  have drained : run.space.Evolves space.drainEvents.2 := evolves.tail (.drain space)
  have extends_ := (drained.continues collected.history.wellFormed).kept
  have tells : run.space.Tells space.drainEvents.2 space.events := by
    have told := narrated.drain.tells
    rwa [show space.drainEvents.2.events = [] from rfl, List.append_nil, List.nil_append] at told
  have updated := collects.updated extends_ tells (collected.same ▸ collected.exactly)
  rw [collected.same] at updated
  constructor
  · rw [dispatch_space]
    exact collected.history.evolves drained
  · rw [dispatch_space]
    rfl
  · rw [acceptor_dispatch]
    exact updated.1
  · rw [acceptor_dispatch, dispatch_space]
    exact updated.2

theorem narrated (collected : Collected wanted asked run) :
    run.space.Narrated [] run.space := by
  unfold StateSpace.Narrated
  rw [collected.quiet]
  exact .nothing

theorem pendingCount (collected : Collected wanted asked run)
    (collects : Acceptor.Collects R check subject? wanted) (state : StateId) :
    Collected wanted asked (run.pendingCount state).2 :=
  collected.dispatch collects (.single (.ask run.space state))
    (collected.narrated.ensureMatches state)

theorem applyMatch (collected : Collected wanted asked run)
    (collects : Acceptor.Collects R check subject? wanted) {state : StateId} {position : Nat}
    (inRange : position < ((run.space.ensureMatches state).pending state).length) :
    Collected wanted asked (run.applyMatch state position).2 := by
  have evolves : run.space.Evolves (run.space.applyMatch state position).2 :=
    .single (.apply run.space state position)
  have narrated := collected.narrated.applyMatch collected.history.wellFormed state position
  have found := run.space.applyMatch_inRange inRange
  unfold Exploration.applyMatch
  cases outcome : run.space.applyMatch state position with
  | mk result space =>
      rw [outcome] at evolves narrated found
      cases result with
      | ok applied => exact collected.dispatch collects evolves narrated
      | error failure =>
          cases failure with
          | refused error => exact collected.dispatch collects evolves narrated
          | outOfRange wrong other => exact absurd rfl (found wrong other)

theorem aside (collected : Collected wanted asked run) (space : later.space = run.space)
    (acceptor : later.acceptor = run.acceptor) : Collected wanted asked later := by
  obtain ⟨history, quiet, same, exactly⟩ := collected
  constructor
  · rwa [space]
  · rwa [space]
  · rwa [acceptor]
  · rwa [acceptor, space]

/-- However far a run explores, its acceptor keeps up with it. -/
theorem explores (collected : Collected wanted asked run)
    (collects : Acceptor.Collects R check subject? wanted) (explores : run.Explores later) :
    Collected wanted asked later := by
  induction explores with
  | none => exact collected
  | counted _ state inductionHypothesis => exact inductionHypothesis.pendingCount collects state
  | applied _ _ _ inRange inductionHypothesis =>
      exact inductionHypothesis.applyMatch collects inRange
  | aside _ space acceptor inductionHypothesis => exact inductionHypothesis.aside space acceptor

end Collected

end Exploration

end OnTheFly
