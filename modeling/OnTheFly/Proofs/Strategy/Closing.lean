import Mathlib.Data.List.Perm.Basic
import OnTheFly.Strategy.Closing
import OnTheFly.Proofs.Exploration.Expansion
import OnTheFly.Proofs.Exploration.Steps
import OnTheFly.Proofs.StateSpace.Chronicle

/-!
Contract: what a closing strategy visits.

Owns: the queue of a closing strategy, what its operations do to the queue, and
the invariant of a run: the states found are the visited and the waiting ones,
each once; the visited ones are closed and the others are as they were.

The order of the queue is no concern here, so breadth-first and depth-first
exploration share all of it.
-/

set_option autoImplicit false

namespace OnTheFly

/-! ## Pools -/

namespace Pool

/-- Whether the pool accepts every state. -/
def KeepsAll : Pool → Prop
  | .breadth _ => True
  | .depth _ => True
  | .single _ _ => False

theorem KeepsAll.put {pool : Pool} (keeps : pool.KeepsAll) (state : StateId) :
    (pool.put state).KeepsAll ∧ (pool.put state).waiting.Perm (state :: pool.waiting) := by
  cases pool with
  | breadth queue => exact ⟨trivial, List.perm_append_singleton state queue⟩
  | depth stack => exact ⟨trivial, .refl _⟩
  | single _ _ => exact keeps.elim

theorem KeepsAll.take {pool : Pool} (keeps : pool.KeepsAll) : pool.take.2.KeepsAll := by
  cases pool with
  | breadth queue => cases queue <;> trivial
  | depth stack => cases stack <;> trivial
  | single _ _ => exact keeps.elim

theorem KeepsAll.clear {pool : Pool} (keeps : pool.KeepsAll) (start : StateId) :
    (pool.clear start).KeepsAll := by
  cases pool with
  | breadth _ => trivial
  | depth _ => trivial
  | single _ _ => exact keeps.elim

theorem waiting_clear (pool : Pool) (start : StateId) : (pool.clear start).waiting = [] := by
  cases pool <;> rfl

theorem waiting_take (pool : Pool) :
    pool.take.1.toList ++ pool.take.2.waiting = pool.waiting ∧
      (pool.take.1 = none → pool.take.2.waiting = []) := by
  cases pool with
  | breadth queue => cases queue <;> simp [take, waiting]
  | depth stack => cases stack <;> simp [take, waiting]
  | single accepts slot => simp [take, waiting]

end Pool

namespace Exploration

variable {R : RuleSystem} {A : Type}

theorem isKnown_forgetKnown (run : Exploration R A) (state other : StateId) :
    (run.forgetKnown state).isKnown other = true ↔ run.isKnown other = true ∧ other ≠ state := by
  obtain ⟨position⟩ := state
  obtain ⟨otherPosition⟩ := other
  simp only [isKnown, forgetKnown, Array.getElem?_modify, ne_eq, StateId.mk.injEq]
  by_cases same : position = otherPosition
  · subst same
    cases run.known[position]? <;> simp
  · have different : ¬ otherPosition = position := fun equal => same equal.symm
    simp [same, different]

end Exploration

namespace Closing

variable {R : RuleSystem} {A : Type}

/-! ## The queue -/

/-- The states still to be processed, the next one first. -/
def queue (closing : Closing) : List StateId :=
  closing.next.toList ++ (closing.transient ++ closing.pool.waiting)

theorem queue_of_next {closing : Closing} {state : StateId} (next : closing.next = some state) :
    closing.queue = state :: (closing.transient ++ closing.pool.waiting) := by
  rw [queue, next]
  rfl

theorem queue_prepare (closing : Closing) (run : Exploration R A) :
    (closing.prepare run).1.queue = [run.start] := by
  simp [queue, prepare, Pool.waiting_clear]

/-- What queueing the states `added` does. -/
structure Queues (closing : Closing) (added : List StateId) (after : Closing) : Prop where
  queue : after.queue.Perm (added ++ closing.queue)
  next : after.next = closing.next
  keeps : after.pool.KeepsAll

theorem Queues.refl {closing : Closing} (keeps : closing.pool.KeepsAll) :
    closing.Queues [] closing :=
  ⟨.refl _, rfl, keeps⟩

theorem Queues.trans {first second third : Closing} {added more : List StateId}
    (before : first.Queues added second) (after : second.Queues more third) :
    first.Queues (added ++ more) third where
  queue :=
    calc List.Perm third.queue (more ++ second.queue) := after.queue
      List.Perm _ (more ++ (added ++ first.queue)) := before.queue.append_left more
      List.Perm _ (added ++ more ++ first.queue) := by
        rw [List.append_assoc]
        exact List.perm_append_comm_assoc more added first.queue
  next := after.next.trans before.next
  keeps := after.keeps

theorem enqueue_queues {closing : Closing} (keeps : closing.pool.KeepsAll)
    (space : StateSpace R) (state : StateId) :
    closing.Queues [state] (closing.enqueue space state) := by
  unfold enqueue
  split
  · refine ⟨?_, rfl, keeps⟩
    exact List.perm_middle
  · obtain ⟨keepsAfter, added⟩ := keeps.put state
    refine ⟨?_, rfl, keepsAfter⟩
    have moved : (closing.transient ++ (closing.pool.put state).waiting).Perm
        (state :: (closing.transient ++ closing.pool.waiting)) :=
      (added.append_left _).trans List.perm_middle
    exact (moved.append_left _).trans List.perm_middle

/-- Queues states one after the other. -/
def enqueueAll (closing : Closing) (space : StateSpace R) (states : List StateId) : Closing :=
  states.foldl (fun closing state => closing.enqueue space state) closing

theorem enqueueAll_queues {closing : Closing} (keeps : closing.pool.KeepsAll)
    (space : StateSpace R) (states : List StateId) :
    closing.Queues states (closing.enqueueAll space states) := by
  induction states generalizing closing with
  | nil => exact .refl keeps
  | cons state states inductionHypothesis =>
      have one := enqueue_queues keeps space state
      exact one.trans (inductionHypothesis one.keeps)

/-- Moving on takes the next state from the queue, whatever the pool. -/
theorem queue_advance (closing : Closing) :
    closing.advance.queue = closing.transient ++ closing.pool.waiting ∧
      (closing.advance.next = none → closing.advance.queue = []) := by
  unfold advance
  split
  · rename_i state rest transient
    exact ⟨by simp [queue, transient], by simp⟩
  · rename_i transient
    obtain ⟨split_, last⟩ := closing.pool.waiting_take
    refine ⟨?_, ?_⟩
    · simpa [queue, transient] using split_
    · intro stopped
      have nothing : closing.pool.take.1 = none := stopped
      simp [queue, transient, nothing, last nothing]

/-- What moving on to the next state does. -/
theorem advance_spec {closing : Closing} (keeps : closing.pool.KeepsAll) :
    closing.advance.pool.KeepsAll ∧
      closing.advance.queue = closing.transient ++ closing.pool.waiting ∧
      (closing.advance.next = none → closing.advance.queue = []) := by
  refine ⟨?_, closing.queue_advance⟩
  unfold advance
  split
  · exact keeps
  · exact keeps.take

/-- Claiming queues the states from before the run, each once. -/
theorem claimAll_eq_enqueueAll (states : List StateId) (closing : Closing)
    (run : Exploration R A) :
    ∃ claimed known, closing.claimAll run states =
        (closing.enqueueAll run.space claimed, { run with known := known }) ∧ claimed.Nodup ∧
      (∀ state, state ∈ claimed ↔ state ∈ states ∧ run.isKnown state = true) ∧
      ∀ state, ({ run with known := known } : Exploration R A).isKnown state = true ↔
        run.isKnown state = true ∧ state ∉ claimed := by
  induction states generalizing closing run with
  | nil => exact ⟨[], run.known, rfl, .nil, by simp, by simp⟩
  | cons first states inductionHypothesis =>
      have unfolded : closing.claimAll run (first :: states) =
          (closing.claim run first).1.claimAll (closing.claim run first).2 states := rfl
      rw [unfolded]
      unfold claim
      cases isKnown : run.isKnown first with
      | false =>
          obtain ⟨claimed, known, same, distinct, members, stillKnown⟩ :=
            inductionHypothesis closing run
          refine ⟨claimed, known, same, distinct, ?_, stillKnown⟩
          intro state
          rw [members, List.mem_cons]
          constructor
          · exact fun ⟨member, isKnownState⟩ => ⟨.inr member, isKnownState⟩
          · rintro ⟨rfl | member, isKnownState⟩
            · rw [isKnown] at isKnownState
              cases isKnownState
            · exact ⟨member, isKnownState⟩
      | true =>
          obtain ⟨claimed, known, same, distinct, members, stillKnown⟩ :=
            inductionHypothesis (closing.enqueue run.space first) (run.forgetKnown first)
          simp only [Exploration.isKnown_forgetKnown] at members stillKnown
          have notAgain : first ∉ claimed := fun member => ((members first).1 member).2.2 rfl
          refine ⟨first :: claimed, known, same, List.nodup_cons.2 ⟨notAgain, distinct⟩, ?_, ?_⟩
          · intro state
            by_cases same : state = first
            · simp [same, isKnown]
            · simp [same, members]
          · intro state
            rw [List.mem_cons, not_or, ← and_assoc]
            exact stillKnown state

/-- The applications of a step are those that close its state, and the step
queues what they have created. -/
theorem applyAndQueue_spec [Acceptor R A] (state : StateId) (count : Nat) (run later : Exploration R A)
    {closing : Closing} (keeps : closing.pool.KeepsAll) :
    (∀ failure, Exploration.applyFirst state count run = (.error failure, later) →
      ∃ after, applyAndQueue state count closing run = (.error failure, after, later)) ∧
      ∀ all, Exploration.applyFirst state count run = (.ok all, later) →
        ∃ after, applyAndQueue state count closing run = (.ok (), after, later) ∧
          closing.Queues (all.flatMap Applied.created) after := by
  induction count generalizing closing run with
  | zero =>
      refine ⟨fun failure impossible => (by cases impossible), ?_⟩
      rintro all outcome
      cases outcome
      exact ⟨closing, rfl, .refl keeps⟩
  | succ count inductionHypothesis =>
      unfold Exploration.applyFirst applyAndQueue
      cases first : run.applyMatch state 0 with
      | mk result next =>
          cases result with
          | error failure =>
              refine ⟨?_, fun all impossible => by cases impossible⟩
              rintro _ outcome
              cases outcome
              exact ⟨closing, rfl⟩
          | ok applied =>
              have queued : closing.Queues applied.created
                  (if applied.fresh then closing.enqueue next.space applied.target
                    else closing) := by
                unfold Applied.created
                split
                · exact enqueue_queues keeps next.space applied.target
                · exact .refl keeps
              obtain ⟨fails, completes⟩ := inductionHypothesis next queued.keeps
              simp only
              cases rest : Exploration.applyFirst state count next with
              | mk restResult final =>
                  cases restResult with
                  | error failure =>
                      refine ⟨?_, fun all impossible => by cases impossible⟩
                      rintro _ outcome
                      cases outcome
                      exact fails failure rest
                  | ok others =>
                      refine ⟨fun failure impossible => (by cases impossible), ?_⟩
                      rintro all outcome
                      cases outcome
                      obtain ⟨after, same, queues⟩ := completes others rest
                      exact ⟨after, same, queued.trans queues⟩

/-! ## One step -/

/-- What a successful step does: it claims old successors, closes its state
and queues what is new. -/
structure Processes [Acceptor R A] (closing : Closing) (run : Exploration R A) (state : StateId)
    (claimed : List StateId) (known : Array Bool) (all : List Applied) (after : Closing)
    (later : Exploration R A) : Prop where
  closes : ({ run with known := known } : Exploration R A).closeState state = (.ok all, later)
  keeps : after.pool.KeepsAll
  queue : (state :: after.queue).Perm ((claimed ++ all.flatMap Applied.created) ++ closing.queue)
  idle : after.next = none → after.queue = []
  distinct : claimed.Nodup
  claims (other : StateId) : other ∈ claimed ↔
    run.space.Leads state other ∧ run.isKnown other = true
  known (other : StateId) :
    ({ run with known := known } : Exploration R A).isKnown other = true ↔
      run.isKnown other = true ∧ other ∉ claimed

namespace Processes

variable [Acceptor R A] {closing after : Closing} {run later : Exploration R A} {state : StateId}
  {claimed : List StateId} {known : Array Bool} {all : List Applied}

/-- The found states are those found before, the claimed and the created ones. -/
theorem found_perm (step : closing.Processes run state claimed known all after later)
    (visited : List StateId) :
    ((visited ++ [state]) ++ after.queue).Perm
      ((claimed ++ all.flatMap Applied.created) ++ (visited ++ closing.queue)) := by
  rw [List.append_assoc, List.singleton_append]
  exact (step.queue.append_left visited).trans (List.perm_append_comm_assoc _ _ _)

theorem mem_found (step : closing.Processes run state claimed known all after later)
    (visited : List StateId) (other : StateId) :
    other ∈ (visited ++ [state]) ++ after.queue ↔
      (other ∈ claimed ∨ other ∈ all.flatMap Applied.created) ∨
        other ∈ visited ++ closing.queue := by
  rw [(step.found_perm visited).mem_iff, List.mem_append, List.mem_append]

theorem advances (step : closing.Processes run state claimed known all after later) :
    ({ run with known := known } : Exploration R A).Advances later := by
  have closing := Exploration.advances_closeState
    ({ run with known := known } : Exploration R A) state
  rw [step.closes] at closing
  exact closing

theorem isKnown_later (step : closing.Processes run state claimed known all after later)
    (other : StateId) :
    later.isKnown other = true ↔ run.isKnown other = true ∧ other ∉ claimed := by
  rw [← step.known, Exploration.isKnown, step.advances.known, Exploration.isKnown]

theorem expands (step : closing.Processes run state claimed known all after later)
    (history : run.space.HasHistory) (contained : run.space.contains state = true) :
    run.space.Expands state (all.flatMap Applied.created) later.space :=
  @Exploration.closeState_expands _ _ _ { run with known := known } _ _ history contained _
    step.closes

theorem isClosed (step : closing.Processes run state claimed known all after later)
    (history : run.space.HasHistory) (contained : run.space.contains state = true) :
    later.space.isClosed state = true := by
  have closes := (@Exploration.closeState_closes _ _ _ { run with known := known } _
    history contained).1
  rw [step.closes] at closes
  exact closes all rfl

end Processes

theorem mem_targets {space : StateSpace R} {state target : StateId} :
    target ∈ (space.outgoing state).map (·.2.target) ↔ space.Leads state target := by
  simp [StateSpace.Leads]

/-- A step succeeds exactly when its state can be closed. -/
theorem doNext_spec [Acceptor R A] {closing : Closing} (run : Exploration R A) {state : StateId}
    (keeps : closing.pool.KeepsAll) (next : closing.next = some state) :
    ∃ claimed known, ∀ result later,
      ({ run with known := known } : Exploration R A).closeState state = (result, later) →
      (∀ failure, result = .error failure →
        ∃ after, closing.doNext run = (.error failure, after, later)) ∧
      ∀ all, result = .ok all → ∃ after, closing.doNext run = (.ok state, after, later) ∧
        closing.Processes run state claimed known all after later := by
  obtain ⟨claimed, known, claims, distinct, members, stillKnown⟩ :=
    claimAll_eq_enqueueAll ((run.space.outgoing state).map (·.2.target)) closing run
  have queues := enqueueAll_queues keeps run.space claimed
  refine ⟨claimed, known, fun result later closes => ?_⟩
  obtain ⟨fails, completes⟩ := applyAndQueue_spec state
    (({ run with known := known } : Exploration R A).pendingCount state).1
    (({ run with known := known } : Exploration R A).pendingCount state).2 later queues.keeps
  unfold doNext
  simp only [next, claims]
  constructor
  · rintro failure rfl
    obtain ⟨after, outcome⟩ := fails failure closes
    exact ⟨after, by rw [outcome]⟩
  · rintro all rfl
    obtain ⟨queued, outcome, created⟩ := completes all closes
    obtain ⟨keepsAfter, rest, idle⟩ := advance_spec created.keeps
    refine ⟨queued.advance, by rw [outcome], closes, keepsAfter, ?_, idle, distinct, ?_, stillKnown⟩
    · have atState : queued.next = some state := by rw [created.next, queues.next, next]
      rw [rest, ← queue_of_next atState]
      exact (queues.trans created).queue
    · intro other
      rw [members, mem_targets]

/-! ## The whole run -/

/-- The invariant of a run that was `begun` before it was prepared. -/
structure Sweep (begun : Exploration R A) (visited : List StateId) (closing : Closing)
    (run : Exploration R A) : Prop where
  evolves : begun.space.Evolves run.space
  engine : R.After begun.space.engine run.space.engine
  config : run.config = begun.config
  keeps : closing.pool.KeepsAll
  distinct : (visited ++ closing.queue).Nodup
  found (state : StateId) : state ∈ visited ++ closing.queue ↔
    run.space.contains state = true ∧ run.isKnown state = false
  known {state : StateId} : run.isKnown state = true → begun.space.contains state = true
  closed {state : StateId} : state ∈ visited → run.space.isClosed state = true
  untouched {state : StateId} {info : StateInfo R} : state ∉ visited →
    run.space.info? state = some info →
    begun.space.info? state = some info ∨ (begun.space.contains state = false ∧ info.out = [])
  spread {source target : StateId} : source ∈ visited → begun.space.Leads source target →
    target ∈ visited ++ closing.queue
  connected {state : StateId} : state ∈ visited ++ closing.queue →
    begun.space.contains state = true → begun.space.Connected begun.start state
  started : begun.start ∈ visited ++ closing.queue
  idle : closing.next = none → closing.queue = []

namespace Sweep

variable {begun run later : Exploration R A} {visited : List StateId} {closing after : Closing}
  {state : StateId}

/-- The old successors of a waiting state were its successors before the run. -/
theorem leads_before (sweep : Sweep begun visited closing run)
    (history : begun.space.HasHistory) (fresh : state ∉ visited) {target : StateId}
    (leads : run.space.Leads state target) :
    begun.space.contains state = true ∧ begun.space.Leads state target := by
  obtain ⟨handle, transition, member, reached⟩ := leads
  obtain ⟨listed, found⟩ := StateSpace.mem_outgoing.1 member
  obtain ⟨info, present, inOut⟩ := StateSpace.mem_out.1 listed
  rcases sweep.untouched fresh present with before | ⟨_, noOut⟩
  · have listedBefore : handle ∈ begun.space.out state := StateSpace.mem_out.2 ⟨info, before, inOut⟩
    obtain ⟨old, foundBefore, _⟩ := history.wellFormed.out_valid listedBefore
    have kept := (sweep.evolves.continues history.wellFormed).kept.transition foundBefore
    rw [found] at kept
    cases kept
    exact ⟨StateSpace.contains_of_info? before,
      handle, transition, StateSpace.mem_outgoing.2 ⟨listedBefore, foundBefore⟩, reached⟩
  · rw [noOut] at inOut
    cases inOut

/-- The next state has been found and not been visited. -/
theorem next_found (sweep : Sweep begun visited closing run)
    (next : closing.next = some state) :
    run.space.contains state = true ∧ state ∉ visited := by
  have waiting : state ∈ closing.queue := by simp [queue, next]
  refine ⟨((sweep.found state).1 (List.mem_append_right _ waiting)).1, ?_⟩
  intro already
  exact (List.nodup_append.1 sweep.distinct).2.2 state already state waiting rfl

/-- What was there before the run is there now. -/
theorem contains_of_before (sweep : Sweep begun visited closing run)
    (history : begun.space.HasHistory) {other : StateId}
    (before : begun.space.contains other = true) : run.space.contains other = true :=
  (sweep.evolves.continues history.wellFormed).kept.contains before

/-! A step claims states that were there before, creates states that were not,
and has found neither of them earlier. -/

section Processed

variable [Acceptor R A] {claimed : List StateId} {known : Array Bool} {all : List Applied}
  {other : StateId}

theorem contains_of_claimed (sweep : Sweep begun visited closing run)
    (history : begun.space.HasHistory)
    (step : closing.Processes run state claimed known all after later)
    (isClaimed : other ∈ claimed) :
    run.isKnown other = true ∧ run.space.contains other = true := by
  have isKnown := ((step.claims other).1 isClaimed).2
  exact ⟨isKnown, sweep.contains_of_before history (sweep.known isKnown)⟩

theorem absent_of_created (sweep : Sweep begun visited closing run)
    (history : begun.space.HasHistory) (next : closing.next = some state)
    (step : closing.Processes run state claimed known all after later)
    (isCreated : other ∈ all.flatMap Applied.created) : ¬ run.space.contains other = true := by
  have expands := step.expands (history.evolves sweep.evolves) (sweep.next_found next).1
  exact Bool.eq_false_iff.1 (expands.fresh isCreated).1

theorem nodup_processed (sweep : Sweep begun visited closing run)
    (history : begun.space.HasHistory) (next : closing.next = some state)
    (step : closing.Processes run state claimed known all after later) :
    ((visited ++ [state]) ++ after.queue).Nodup := by
  have expands := step.expands (history.evolves sweep.evolves) (sweep.next_found next).1
  rw [(step.found_perm visited).nodup_iff, List.nodup_append, List.nodup_append]
  refine ⟨⟨step.distinct, expands.distinct, ?_⟩, sweep.distinct, ?_⟩
  · rintro other isClaimed _ isCreated rfl
    exact sweep.absent_of_created history next step isCreated
      (sweep.contains_of_claimed history step isClaimed).2
  · rintro other added _ old rfl
    obtain ⟨present, unknown⟩ := (sweep.found other).1 old
    rcases List.mem_append.1 added with isClaimed | isCreated
    · rw [(sweep.contains_of_claimed history step isClaimed).1] at unknown
      cases unknown
    · exact sweep.absent_of_created history next step isCreated present

theorem found_processed (sweep : Sweep begun visited closing run)
    (history : begun.space.HasHistory) (next : closing.next = some state)
    (step : closing.Processes run state claimed known all after later) (other : StateId) :
    other ∈ (visited ++ [state]) ++ after.queue ↔
      later.space.contains other = true ∧ later.isKnown other = false := by
  have expands := step.expands (history.evolves sweep.evolves) (sweep.next_found next).1
  have present : run.isKnown other = true → run.space.contains other = true :=
    fun isKnown => sweep.contains_of_before history (sweep.known isKnown)
  have isKnown : other ∈ claimed → run.isKnown other = true :=
    fun isClaimed => (sweep.contains_of_claimed history step isClaimed).1
  have absent : other ∈ all.flatMap Applied.created → ¬ run.space.contains other = true :=
    sweep.absent_of_created history next step
  rw [step.mem_found, expands.contains, sweep.found, Bool.eq_false_iff, Bool.eq_false_iff, ne_eq,
    ne_eq, step.isKnown_later]
  tauto

theorem untouched_processed (sweep : Sweep begun visited closing run)
    (history : begun.space.HasHistory) (next : closing.next = some state)
    (step : closing.Processes run state claimed known all after later) {info : StateInfo R}
    (unvisited : other ∉ visited ++ [state]) (present : later.space.info? other = some info) :
    begun.space.info? other = some info ∨
      (begun.space.contains other = false ∧ info.out = []) := by
  have expands := step.expands (history.evolves sweep.evolves) (sweep.next_found next).1
  rw [List.mem_append, List.mem_singleton, not_or] at unvisited
  rcases expands.contains.1 (StateSpace.contains_of_info? present) with before | isCreated
  · obtain ⟨old, presentBefore⟩ := StateSpace.contains_iff.1 before
    rw [expands.others unvisited.2 presentBefore] at present
    cases present
    exact sweep.untouched unvisited.1 presentBefore
  · obtain ⟨_, fresh, presentFresh, noOut, _⟩ := expands.fresh isCreated
    rw [present] at presentFresh
    cases presentFresh
    refine .inr ⟨Bool.eq_false_iff.2 fun before => ?_, noOut⟩
    exact sweep.absent_of_created history next step isCreated
      (sweep.contains_of_before history before)

theorem spread_processed (sweep : Sweep begun visited closing run)
    (history : begun.space.HasHistory)
    (step : closing.Processes run state claimed known all after later) {source target : StateId}
    (member : source ∈ visited ++ [state]) (leads : begun.space.Leads source target) :
    target ∈ (visited ++ [state]) ++ after.queue := by
  rw [step.mem_found]
  rcases List.mem_append.1 member with old | new
  · exact .inr (sweep.spread old leads)
  · obtain rfl := List.mem_singleton.1 new
    have leadsNow := leads.evolves history sweep.evolves
    cases isKnown : run.isKnown target with
    | true => exact .inl (.inl ((step.claims _).2 ⟨leadsNow, isKnown⟩))
    | false =>
        have inside := (history.evolves sweep.evolves).wellFormed.contains_of_leads leadsNow
        exact .inr ((sweep.found _).2 ⟨inside, isKnown⟩)

theorem connected_processed (sweep : Sweep begun visited closing run)
    (history : begun.space.HasHistory) (next : closing.next = some state)
    (step : closing.Processes run state claimed known all after later)
    (member : other ∈ (visited ++ [state]) ++ after.queue)
    (before : begun.space.contains other = true) : begun.space.Connected begun.start other := by
  rcases (step.mem_found visited other).1 member with (isClaimed | isCreated) | old
  · obtain ⟨sourceBefore, leads⟩ := sweep.leads_before history (sweep.next_found next).2
      ((step.claims other).1 isClaimed).1
    have waiting : state ∈ closing.queue := by simp [queue, next]
    exact (sweep.connected (List.mem_append_right _ waiting) sourceBefore).tail leads
  · exact absurd (sweep.contains_of_before history before)
      (sweep.absent_of_created history next step isCreated)
  · exact sweep.connected old before

/-- A step visits its state. -/
theorem processed (sweep : Sweep begun visited closing run)
    (history : begun.space.HasHistory) (next : closing.next = some state)
    (step : closing.Processes run state claimed known all after later) :
    Sweep begun (visited ++ [state]) after later where
  evolves := sweep.evolves.trans step.advances.space
  engine := sweep.engine.trans step.advances.engine
  config := step.advances.config.trans sweep.config
  keeps := step.keeps
  distinct := sweep.nodup_processed history next step
  found := sweep.found_processed history next step
  known isKnown := sweep.known ((step.isKnown_later _).1 isKnown).1
  closed := by
    intro other member
    have historyNow := history.evolves sweep.evolves
    rcases List.mem_append.1 member with old | new
    · exact ((step.advances.space.continues historyNow.wellFormed).kept.closed
        (sweep.closed old)).1
    · obtain rfl := List.mem_singleton.1 new
      exact step.isClosed historyNow (sweep.next_found next).1
  untouched := sweep.untouched_processed history next step
  spread := sweep.spread_processed history step
  connected := sweep.connected_processed history next step
  started := (step.mem_found visited _).2 (.inr sweep.started)
  idle := step.idle

end Processed

end Sweep

/-- A prepared run knows the states from before the run, the start state apart. -/
theorem isKnown_prepare (closing : Closing) {run : Exploration R A}
    (fresh : ∀ state, run.isKnown state = run.space.contains state) (state : StateId) :
    (closing.prepare run).2.isKnown state = true ↔
      run.space.contains state = true ∧ state ≠ run.start := by
  rw [← fresh]
  exact run.isKnown_forgetKnown run.start state

theorem prepare_sweep {closing : Closing} {run : Exploration R A}
    (keeps : closing.pool.KeepsAll) (contained : run.space.contains run.start = true)
    (fresh : ∀ state, run.isKnown state = run.space.contains state) :
    Sweep run [] (closing.prepare run).1 (closing.prepare run).2 := by
  have queue_ := closing.queue_prepare run
  have known := closing.isKnown_prepare fresh
  refine ⟨.refl, .now, rfl, keeps.clear run.start, ?_, ?_, ?_, ?_, ?_, ?_, ?_, ?_, ?_⟩
  · simp [queue_]
  · intro state
    rw [List.nil_append, queue_, List.mem_singleton, Bool.eq_false_iff, ne_eq, known]
    constructor
    · rintro rfl
      exact ⟨contained, fun ⟨_, different⟩ => different rfl⟩
    · rintro ⟨present, forgotten⟩
      by_contra different
      exact forgotten ⟨present, different⟩
  · exact fun isKnown => ((known _).1 isKnown).1
  · intro state member
    cases member
  · exact fun _ present => .inl present
  · intro source target member
    cases member
  · intro state member _
    rw [List.nil_append, queue_, List.mem_singleton] at member
    rw [member]
  · simp [queue_]
  · intro stopped
    cases stopped

/-- The steps of a run keep the invariant, each visiting one state. -/
theorem made_sweep [Acceptor R A] {closing current : Closing} {run now : Exploration R A}
    {trail : List (Closing × StateId)} (keeps : closing.pool.KeepsAll)
    (history : run.space.HasHistory) (contained : run.space.contains run.start = true)
    (fresh : ∀ state, run.isKnown state = run.space.contains state)
    (made : Made closing run trail current now) :
    Sweep run (trail.map (·.2)) current now := by
  induction made with
  | prepared prepare =>
      cases prepare
      exact prepare_sweep keeps contained fresh
  | observed change _ inductionHypothesis => exact { inductionHypothesis with }
  | @stepped trail current next now later state _ more step inductionHypothesis =>
      obtain ⟨atState, isNext⟩ := Option.isSome_iff_exists.1 more
      obtain ⟨claimed, known, spec⟩ := doNext_spec now inductionHypothesis.keeps isNext
      obtain ⟨fails, completes⟩ := spec _ _ rfl
      have made : current.doNext now = (.ok state, next, later) := step
      cases result : (({ now with known := known } : Exploration R A).closeState atState).1 with
      | error failure =>
          obtain ⟨after, failed⟩ := fails failure result
          rw [made] at failed
          cases failed
      | ok all =>
          obtain ⟨after, succeeded, processes⟩ := completes all result
          rw [made] at succeeded
          cases succeeded
          rw [List.map_append]
          exact inductionHypothesis.processed history isNext processes

/-- A step succeeds if all applications do. -/
theorem Sweep.doNext_succeeds [Acceptor R A] {begun run : Exploration R A} {visited : List StateId}
    {closing : Closing} (sweep : Sweep begun visited closing run)
    (history : begun.space.HasHistory) (succeeds : R.Succeeds begun.space.engine)
    (more : closing.next.isSome = true) : ∃ state, (closing.doNext run).1 = .ok state := by
  obtain ⟨state, isNext⟩ := Option.isSome_iff_exists.1 more
  obtain ⟨claimed, known, spec⟩ := doNext_spec run sweep.keeps isNext
  obtain ⟨all, closes⟩ := (@Exploration.closeState_closes _ _ _ { run with known := known } _
    (history.evolves sweep.evolves) (sweep.next_found isNext).1).2 (succeeds.after sweep.engine)
  obtain ⟨after, succeeded, _⟩ := (spec _ _ rfl).2 all closes
  exact ⟨state, by rw [succeeded]⟩

/-! ## What an exhausted run has visited -/

namespace Sweep

variable {begun run : Exploration R A} {visited : List StateId} {closing : Closing}

theorem visited_iff (sweep : Sweep begun visited closing run) (stopped : closing.next = none)
    (state : StateId) :
    state ∈ visited ↔ run.space.contains state = true ∧ run.isKnown state = false := by
  rw [← sweep.found, sweep.idle stopped, List.append_nil]

/-- The old states among the visited ones are those connected to the start. -/
theorem visited_iff_connected (sweep : Sweep begun visited closing run)
    (stopped : closing.next = none) {state : StateId}
    (before : begun.space.contains state = true) :
    state ∈ visited ↔ begun.space.Connected begun.start state := by
  constructor
  · exact fun member => sweep.connected (List.mem_append_left _ member) before
  · intro connected
    have foundIsVisited : ∀ {other}, other ∈ visited ++ closing.queue → other ∈ visited := by
      intro other found
      rwa [sweep.idle stopped, List.append_nil] at found
    clear before
    induction connected with
    | refl => exact foundIsVisited sweep.started
    | tail _ leads inductionHypothesis =>
        exact foundIsVisited (sweep.spread inductionHypothesis leads)

theorem visited_of_absent (sweep : Sweep begun visited closing run)
    (stopped : closing.next = none) {state : StateId}
    (contained : run.space.contains state = true) (absent : begun.space.contains state = false) :
    state ∈ visited := by
  refine (sweep.visited_iff stopped state).2 ⟨contained, ?_⟩
  rw [Bool.eq_false_iff]
  intro isKnown
  rw [sweep.known isKnown] at absent
  cases absent

/-- What is closed in the end was so before, or is new, or was connected to
the start before. -/
theorem isClosed_iff (sweep : Sweep begun visited closing run) (history : begun.space.HasHistory)
    (stopped : closing.next = none) {state : StateId}
    (contained : run.space.contains state = true) :
    run.space.isClosed state = true ↔ begun.space.isClosed state = true ∨
      begun.space.contains state = false ∨ begun.space.Connected begun.start state := by
  constructor
  · intro closed
    cases before : begun.space.contains state with
    | false => exact .inr (.inl rfl)
    | true =>
        by_cases member : state ∈ visited
        · exact .inr (.inr ((sweep.visited_iff_connected stopped before).1 member))
        · obtain ⟨info, present, isClosed⟩ := StateSpace.isClosed_iff.1 closed
          rcases sweep.untouched member present with same | ⟨absent, _⟩
          · exact .inl (StateSpace.isClosed_iff.2 ⟨info, same, isClosed⟩)
          · rw [before] at absent
            cases absent
  · rintro (closed | absent | connected)
    · exact ((sweep.evolves.continues history.wellFormed).kept.closed closed).1
    · exact sweep.closed (sweep.visited_of_absent stopped contained absent)
    · cases before : begun.space.contains state with
      | true => exact sweep.closed ((sweep.visited_iff_connected stopped before).2 connected)
      | false => exact sweep.closed (sweep.visited_of_absent stopped contained before)

end Sweep

end Closing

end OnTheFly
