import OnTheFly.Proofs.Exploration.Stages
import OnTheFly.Proofs.Strategy.Any
import OnTheFly.Proofs.Strategy.Closing

/-!
Contract: a closing strategy processes transient states first.

Owns: the states that a stage queues, said by what the state space holds, and
that transient ones among them are processed before anything is taken from the
pool.
Does not own: which states a run processes in the end.

Nothing here depends on the kind of the pool. A pool may even drop what it is
given, as that of a single state does, for it never holds the transient states.
-/

set_option autoImplicit false

namespace OnTheFly

/-! ## The states that a stage queues -/

section Queued

variable {R : RuleSystem} {S A : Type}

/-- A state from before the run that no stage has led to. -/
def Unclaimed (begun : Exploration R A) (stages : List (Stage R S A)) (state : StateId) : Prop :=
  begun.space.contains state = true ∧ state ≠ begun.start ∧
    ∀ stage ∈ stages, ¬ stage.run.space.Leads stage.state state

/-- What a stage queues after the stages `earlier`: the states that it creates,
and those from before the run that are reached for the first time, along a
transition that is there when the stage begins. A state from before the run is
not queued if the stage itself makes the first transition to it. -/
inductive Stage.Queues (begun : Exploration R A) (earlier : List (Stage R S A))
    (stage : Stage R S A) (state : StateId) : Prop where
  | created (absent : stage.run.space.contains state = false)
      (present : stage.later.space.contains state = true)
  | reached (unclaimed : Unclaimed begun earlier state)
      (leads : stage.run.space.Leads stage.state state)

/-- A state that is there when the stage begins, with no transition to it, is not
queued, even if the stage applies a match that leads to it. -/
theorem Stage.not_queues {begun : Exploration R A} {earlier : List (Stage R S A)}
    {stage : Stage R S A} {state : StateId} (present : stage.run.space.contains state = true)
    (apart : ¬ stage.run.space.Leads stage.state state) : ¬ stage.Queues begun earlier state := by
  rintro (⟨absent, _⟩ | ⟨_, leads⟩)
  · rw [present] at absent
    cases absent
  · exact apart leads

/-- A gate from which a lane and a transient step can be reached, and the step
from the lane too. -/
def gateSystem : LabelledSystem :=
  { nodes := #[{ name := "gate" }, { name := "lane" }, { name := "step", transient := true }]
    edges := #[⟨⟨0⟩, "walk", ⟨1⟩⟩, ⟨⟨0⟩, "climb", ⟨2⟩⟩, ⟨⟨1⟩, "cross", ⟨2⟩⟩] }

/-- A run from the lane, before which both matches of the gate were applied. -/
def laneRun : Exploration gateSystem.rules CounterExamples :=
  let created := StateSpace.create gateSystem.rules gateSystem.interruptions
  { space := ((created.applyMatch ⟨0⟩ 0).2.applyMatch ⟨0⟩ 0).2.drainEvents.2
    acceptor := {}
    config := {}
    start := ⟨1⟩
    known := #[true, true, true]
    progress := none
    stopRequested := false }

def laneClosed : Closing × Exploration gateSystem.rules CounterExamples :=
  (attempted (Closing.breadthFirst.prepare laneRun).1
    (Closing.breadthFirst.prepare laneRun).2 1).2

-- The stage that closes the lane crosses over to the step, and then nothing is queued.
example : laneClosed.2.space.transitions.back? = some ⟨⟨1⟩, ⟨2⟩, "cross"⟩ ∧
    laneClosed.2.space.isTransient ⟨2⟩ = true ∧ laneClosed.2.space.isClosed ⟨2⟩ = false ∧
    laneClosed.1.next = none := by
  decide +kernel

/-- Whether one of the stages has queued the state and none has processed it. -/
def Waits (begun : Exploration R A) (stages : List (Stage R S A)) (state : StateId) : Prop :=
  (∃ earlier stage later, stages = earlier ++ stage :: later ∧
    stage.Queues begun earlier state) ∧ state ∉ stages.map (·.state)

variable {begun : Exploration R A} {stages : List (Stage R S A)} {stage : Stage R S A}
  {state : StateId}

theorem unclaimed_concat : Unclaimed begun (stages ++ [stage]) state ↔
    Unclaimed begun stages state ∧ ¬ stage.run.space.Leads stage.state state := by
  simp only [Unclaimed, List.forall_mem_append, List.forall_mem_singleton, and_assoc]

theorem waits_concat : Waits begun (stages ++ [stage]) state ↔
    (Waits begun stages state ∨ stage.Queues begun stages state ∧ state ∉ stages.map (·.state)) ∧
      state ≠ stage.state := by
  have processed : state ∉ (stages ++ [stage]).map (·.state) ↔
      state ∉ stages.map (·.state) ∧ state ≠ stage.state := by
    rw [List.map_append, List.mem_append, not_or, List.map_singleton, List.mem_singleton]
  unfold Waits
  rw [processed]
  constructor
  · rintro ⟨⟨earlier, at_, later, split_, queues⟩, unprocessed, different⟩
    refine ⟨?_, different⟩
    rcases split_concat split_ with ⟨_, rfl, rfl⟩ | ⟨between, _, rfl⟩
    · exact .inr ⟨queues, unprocessed⟩
    · exact .inl ⟨⟨earlier, at_, between, rfl, queues⟩, unprocessed⟩
  · rintro ⟨⟨⟨earlier, at_, later, rfl, queues⟩, unprocessed⟩ | ⟨queues, unprocessed⟩, different⟩
    · exact ⟨⟨earlier, at_, later ++ [stage], by simp, queues⟩, unprocessed, different⟩
    · exact ⟨⟨stages, stage, [], rfl, queues⟩, unprocessed, different⟩

end Queued

/-! ## Pools of any kind -/

namespace Pool

/-- Puts states into the pool one after the other. -/
def putAll (pool : Pool) (states : List StateId) : Pool :=
  states.foldl (fun pool state => pool.put state) pool

/-- A pool holds no more than what it is given. -/
theorem waiting_put_subperm (pool : Pool) (state : StateId) :
    (pool.put state).waiting.Subperm (state :: pool.waiting) := by
  cases pool with
  | breadth queue => exact (List.perm_append_singleton state queue).subperm
  | depth stack => exact .refl _
  | single accepts slot =>
      change (if accepts = some state then some state else slot).toList.Subperm
        (state :: slot.toList)
      split
      · exact ((List.nil_sublist _).cons_cons state).subperm
      · exact (List.sublist_cons_self state _).subperm

theorem waiting_putAll_subperm (pool : Pool) (states : List StateId) :
    (pool.putAll states).waiting.Subperm (states ++ pool.waiting) := by
  induction states generalizing pool with
  | nil => exact .refl _
  | cons state states inductionHypothesis =>
      have one := (List.subperm_append_left states).2 (pool.waiting_put_subperm state)
      exact ((inductionHypothesis (pool.put state)).trans one).trans List.perm_middle.subperm

end Pool

theorem StateSpace.Extends.isTransient {R : RuleSystem} {space later : StateSpace R}
    (extends_ : space.Extends later) {state : StateId} (contained : space.contains state = true) :
    later.isTransient state = space.isTransient state := by
  obtain ⟨info, present⟩ := contains_iff.1 contained
  have stored : space.graph? state = some info.graph := graph?_eq_some.2 ⟨info, present, rfl⟩
  rw [StateSpace.isTransient, StateSpace.isTransient, stored, extends_.graph stored]

/-! ## One step -/

namespace Closing

variable {R : RuleSystem} {A : Type}

/-- Where queued states go. -/
theorem enqueueAll_eq (closing : Closing) (space : StateSpace R) (states : List StateId) :
    closing.enqueueAll space states =
      { pool := closing.pool.putAll (states.filter fun state => !space.isTransient state)
        transient := (states.filter space.isTransient).reverse ++ closing.transient
        next := closing.next } := by
  induction states generalizing closing with
  | nil => rfl
  | cons state states inductionHypothesis =>
      have unfolded : closing.enqueueAll space (state :: states) =
          (closing.enqueue space state).enqueueAll space states := rfl
      rw [unfolded, inductionHypothesis]
      cases transient : space.isTransient state <;> simp [enqueue, transient, Pool.putAll]

/-- All that queueing asks of the state space is which states are transient. -/
theorem enqueueAll_congr {space later : StateSpace R} {states : List StateId}
    (same : ∀ state ∈ states, later.isTransient state = space.isTransient state)
    (closing : Closing) :
    closing.enqueueAll later states = closing.enqueueAll space states := by
  have plain : ∀ state ∈ states, (!later.isTransient state) = !space.isTransient state :=
    fun state member => by rw [same state member]
  rw [enqueueAll_eq, enqueueAll_eq, List.filter_congr same, List.filter_congr plain]

theorem enqueueAll_append (closing : Closing) (space : StateSpace R)
    (states more : List StateId) :
    closing.enqueueAll space (states ++ more) =
      (closing.enqueueAll space states).enqueueAll space more :=
  List.foldl_append

theorem advance_cases (closing : Closing) :
    (∃ state rest, closing.transient = state :: rest ∧
      closing.advance = { closing with transient := rest, next := some state }) ∨
      closing.transient = [] ∧ closing.advance =
        { closing with pool := closing.pool.take.2, next := closing.pool.take.1 } := by
  unfold advance
  split
  · rename_i state rest transient
    exact .inl ⟨state, rest, transient, rfl⟩
  · rename_i transient
    exact .inr ⟨transient, rfl⟩

/-- Whether the waiting transient states are the next state and those on the
stack, where nothing else is on the stack or comes before it. -/
structure Stacks (waits : StateId → Prop) (transient : StateId → Bool) (closing : Closing) :
    Prop where
  stacked {state : StateId} : state ∈ closing.transient → waits state ∧ transient state = true
  waiting {state : StateId} : waits state → transient state = true →
    state ∈ closing.next.toList ++ closing.transient
  first : closing.transient ≠ [] → ∃ state, closing.next = some state ∧ transient state = true

/-- Popping the stack keeps what was on it. -/
theorem stacks_advance {waits : StateId → Prop} {transient : StateId → Bool} {closing : Closing}
    (stack : ∀ state, state ∈ closing.transient ↔ waits state ∧ transient state = true) :
    Stacks waits transient closing.advance := by
  rcases advance_cases closing with ⟨top, rest, popped, moved⟩ | ⟨empty, moved⟩
  · rw [popped] at stack
    rw [moved]
    constructor
    · exact fun {state} member => (stack state).1 (List.mem_cons_of_mem top member)
    · exact fun {state} waits isTransient => (stack state).2 ⟨waits, isTransient⟩
    · exact fun _ => ⟨top, rfl, ((stack top).1 List.mem_cons_self).2⟩
  · rw [moved]
    constructor
    · exact fun {state} member => (stack state).1 member
    · exact fun {state} waits isTransient =>
        List.mem_append_right _ ((stack state).2 ⟨waits, isTransient⟩)
    · exact fun nonempty => absurd empty nonempty

variable [Acceptor R A]

/-- The applications of a step queue what they have created. That a state is
transient can be asked at the end, for it never changes. -/
theorem applyAndQueue_eq_enqueueAll {state : StateId} {count : Nat} {closing queued : Closing}
    {run later : Exploration R A} (history : run.space.HasHistory)
    (outcome : applyAndQueue state count closing run = (.ok (), queued, later)) :
    ∃ all, Exploration.applyFirst state count run = (.ok all, later) ∧
      queued = closing.enqueueAll later.space (all.flatMap Applied.created) := by
  induction count generalizing closing run with
  | zero =>
      cases outcome
      exact ⟨[], rfl, rfl⟩
  | succ count inductionHypothesis =>
      unfold applyAndQueue at outcome
      unfold Exploration.applyFirst
      cases first : run.applyMatch state 0 with
      | mk result next =>
          rw [first] at outcome
          cases result with
          | error failure => cases outcome
          | ok applied =>
              have advances := Exploration.advances_applyMatch run state 0
              rw [first] at advances
              have historyNext := history.evolves advances.space
              obtain ⟨others, rest, queues⟩ := inductionHypothesis historyNext outcome
              have evolves := (Exploration.advances_applyFirst state count next).space
              rw [rest] at evolves
              have kept := (evolves.continues historyNext.wellFormed).kept
              have expands := (Exploration.applyMatch_expands history first).2
              have one : (if applied.fresh then closing.enqueue next.space applied.target
                  else closing) = closing.enqueueAll next.space applied.created := by
                unfold Applied.created
                split <;> rfl
              have same : closing.enqueueAll later.space applied.created =
                  closing.enqueueAll next.space applied.created :=
                enqueueAll_congr
                  (fun _ member => kept.isTransient (expands.contains.2 (.inr member))) closing
              refine ⟨applied :: others, by simp only [rest], ?_⟩
              rw [List.flatMap_cons, enqueueAll_append, same, ← one]
              exact queues

/-- What a successful step does to a strategy with any pool: it queues the
states `added` and moves on. -/
structure Serves (closing : Closing) (run : Exploration R A) (state : StateId)
    (added : List StateId) (after : Closing) (later : Exploration R A) : Prop where
  evolves : run.space.Evolves later.space
  moves : after = (closing.enqueueAll later.space added).advance
  distinct : added.Nodup
  adds (other : StateId) : other ∈ added ↔
    (run.isKnown other = true ∧ run.space.Leads state other) ∨
      (run.space.contains other = false ∧ later.space.contains other = true)
  known (other : StateId) : later.isKnown other = true ↔
    run.isKnown other = true ∧ ¬ run.space.Leads state other

theorem doNext_serves {closing after : Closing} {run later : Exploration R A}
    {state result : StateId} (history : run.space.HasHistory) (next : closing.next = some state)
    (contained : run.space.contains state = true)
    (inside : ∀ other, run.isKnown other = true → run.space.contains other = true)
    (step : closing.doNext run = (.ok result, after, later)) :
    result = state ∧ ∃ added, closing.Serves run state added after later := by
  obtain ⟨claimed, known, claims, distinct, members, stillKnown⟩ :=
    claimAll_eq_enqueueAll ((run.space.outgoing state).map (·.2.target)) closing run
  simp only [mem_targets] at members
  let claiming : Exploration R A := { run with known := known }
  have historyCounted := history.evolves (Exploration.advances_pendingCount claiming state).space
  unfold doNext at step
  simp only [next, claims] at step
  cases outcome : applyAndQueue state (claiming.pendingCount state).1
      (closing.enqueueAll run.space claimed) (claiming.pendingCount state).2 with
  | mk answer rest =>
      obtain ⟨queued, final⟩ := rest
      rw [outcome] at step
      cases answer with
      | error failure => cases step
      | ok _ =>
          cases step
          obtain ⟨all, applies, queues⟩ := applyAndQueue_eq_enqueueAll historyCounted outcome
          have closes : claiming.closeState state = (.ok all, later) := applies
          have advances := Exploration.advances_closeState claiming state
          rw [closes] at advances
          have evolves : run.space.Evolves later.space := advances.space
          have kept := (evolves.continues history.wellFormed).kept
          have expands : run.space.Expands state (all.flatMap Applied.created) later.space :=
            @Exploration.closeState_expands _ _ _ claiming _ _ history contained _ closes
          have claimedInside : ∀ {other}, other ∈ claimed → run.space.contains other = true :=
            fun member => inside _ ((members _).1 member).2
          have same : closing.enqueueAll later.space claimed =
              closing.enqueueAll run.space claimed :=
            enqueueAll_congr (fun _ member => kept.isTransient (claimedInside member)) closing
          refine ⟨rfl, claimed ++ all.flatMap Applied.created, evolves, ?_, ?_, ?_, ?_⟩
          · rw [enqueueAll_append, same, queues]
          · refine List.nodup_append.2 ⟨distinct, expands.distinct, ?_⟩
            rintro other isClaimed _ isCreated rfl
            have absent := (expands.fresh isCreated).1
            rw [claimedInside isClaimed] at absent
            cases absent
          · intro other
            rw [List.mem_append, members, expands.contains, and_comm]
            refine or_congr_right ⟨fun isCreated => ?_, fun ⟨absent, present⟩ => ?_⟩
            · exact ⟨(expands.fresh isCreated).1, .inr isCreated⟩
            · exact present.resolve_left (by simp [absent])
          · intro other
            rw [Exploration.isKnown, advances.known, ← Exploration.isKnown, stillKnown, members]
            tauto

theorem doNext_evolves (closing : Closing) (run : Exploration R A) :
    run.space.Evolves (closing.doNext run).2.2.space := by
  cases next : closing.next with
  | none =>
      unfold doNext
      rw [next]
  | some state =>
      obtain ⟨known, _, sameRun⟩ := doNext_eq next run
      rw [sameRun]
      exact (Exploration.advances_closeState { run with known := known } state).space

omit [Acceptor R A] in
/-- The states found by a step are among those found before and those added. -/
theorem Serves.found_subperm {closing after : Closing} {run later : Exploration R A}
    {state : StateId} {added : List StateId} (serves : closing.Serves run state added after later)
    (next : closing.next = some state) (visited : List StateId) :
    ((visited ++ [state]) ++ after.queue).Subperm (added ++ (visited ++ closing.queue)) := by
  let stack := (added.filter later.space.isTransient).reverse
  let plain := added.filter fun other => !later.space.isTransient other
  have moved : after.queue =
      (stack ++ closing.transient) ++ (closing.pool.putAll plain).waiting := by
    rw [serves.moves, (queue_advance _).1, enqueueAll_eq]
  have parts : (stack ++ plain).Perm added :=
    ((List.reverse_perm _).append_right _).trans (List.filter_append_perm _ added)
  have waiting : after.queue.Subperm (added ++ (closing.transient ++ closing.pool.waiting)) := by
    rw [moved]
    refine ((List.subperm_append_left _).2 (closing.pool.waiting_putAll_subperm plain)).trans ?_
    refine List.Perm.subperm ?_
    rw [List.append_assoc]
    refine ((List.perm_append_comm_assoc _ _ _).append_left stack).trans ?_
    rw [← List.append_assoc]
    exact parts.append_right _
  have through := (List.subperm_append_left (visited ++ [state])).2 waiting
  refine through.trans (List.Perm.subperm ?_)
  rw [queue_of_next next, List.append_cons visited state (closing.transient ++ _)]
  exact List.perm_append_comm_assoc _ _ _

/-! ## The whole run -/

/-- The invariant of a run that was `begun` before it was prepared. -/
structure Orderly (begun : Exploration R A) (stages : List (Stage R Closing A))
    (closing : Closing) (run : Exploration R A) : Prop where
  evolves : begun.space.Evolves run.space
  distinct : (stages.map (·.state) ++ closing.queue).Nodup
  found {state : StateId} : state ∈ stages.map (·.state) ++ closing.queue →
    run.space.contains state = true ∧ run.isKnown state = false
  known (state : StateId) : run.isKnown state = true ↔ Unclaimed begun stages state
  present {state : StateId} : Waits begun stages state → run.space.contains state = true
  stack : closing.Stacks (Waits begun stages) run.space.isTransient

namespace Orderly

section State

variable {begun run : Exploration R A} {stages : List (Stage R Closing A)} {closing : Closing}

omit [Acceptor R A]

theorem contains_of_known (orderly : Orderly begun stages closing run)
    (history : begun.space.HasHistory) {state : StateId} (known : run.isKnown state = true) :
    run.space.contains state = true :=
  (orderly.evolves.continues history.wellFormed).kept.contains ((orderly.known state).1 known).1

theorem next_contained (orderly : Orderly begun stages closing run) {state : StateId}
    (isNext : closing.next = some state) : run.space.contains state = true := by
  have waiting : state ∈ closing.queue := queue_of_next isNext ▸ List.mem_cons_self
  exact (orderly.found (List.mem_append_right _ waiting)).1

/-- While a transient state waits, the next state is transient. -/
theorem next_transient (orderly : Orderly begun stages closing run) {state : StateId}
    (waits : Waits begun stages state) (transient : run.space.isTransient state = true) :
    ∃ next, closing.next = some next ∧ run.space.isTransient next = true := by
  rcases List.mem_append.1 (orderly.stack.waiting waits transient) with isNext | inStack
  · exact ⟨state, Option.mem_toList.1 isNext, transient⟩
  · exact orderly.stack.first (List.ne_nil_of_mem inStack)

end State

section Step

variable {begun : Exploration R A} {earlier : List (Stage R Closing A)}
  {stage : Stage R Closing A} {added : List StateId} {state : StateId}

omit [Acceptor R A]

theorem mem_added_iff (orderly : Orderly begun earlier stage.before stage.run)
    (serves : stage.before.Serves stage.run stage.state added stage.after stage.later) :
    state ∈ added ↔ stage.Queues begun earlier state := by
  rw [serves.adds, orderly.known]
  constructor
  · rintro (⟨unclaimed, leads⟩ | ⟨absent, present⟩)
    · exact .reached unclaimed leads
    · exact .created absent present
  · rintro (⟨absent, present⟩ | ⟨unclaimed, leads⟩)
    · exact .inr ⟨absent, present⟩
    · exact .inl ⟨unclaimed, leads⟩

/-- What a stage queues has not been found before. -/
theorem not_found_of_queues (orderly : Orderly begun earlier stage.before stage.run)
    (queues : stage.Queues begun earlier state) :
    state ∉ earlier.map (·.state) ++ stage.before.queue := by
  intro found
  obtain ⟨contained, unknown⟩ := orderly.found found
  cases queues with
  | created absent _ =>
      rw [contained] at absent
      cases absent
  | reached unclaimed _ =>
      rw [(orderly.known state).2 unclaimed] at unknown
      cases unknown

/-- What a stage queues waits until it is processed. -/
theorem waits_until (orderly : Orderly begun earlier stage.before stage.run)
    (next : stage.before.next = some stage.state) (queues : stage.Queues begun earlier state)
    {between : List (Stage R Closing A)} (unprocessed : state ∉ between.map (·.state)) :
    Waits begun (earlier ++ stage :: between) state := by
  have notFound := orderly.not_found_of_queues queues
  rw [queue_of_next next, List.mem_append, List.mem_cons, not_or, not_or] at notFound
  refine ⟨⟨earlier, stage, between, rfl, queues⟩, ?_⟩
  rw [List.map_append, List.map_cons, List.mem_append, List.mem_cons, not_or, not_or]
  exact ⟨notFound.1, notFound.2.1, unprocessed⟩

theorem added_present (orderly : Orderly begun earlier stage.before stage.run)
    (history : begun.space.HasHistory)
    (serves : stage.before.Serves stage.run stage.state added stage.after stage.later)
    (member : state ∈ added) :
    stage.later.space.contains state = true ∧ stage.later.isKnown state = false := by
  have historyNow := history.evolves orderly.evolves
  have kept := (serves.evolves.continues historyNow.wellFormed).kept
  rw [Bool.eq_false_iff, ne_eq, serves.known]
  rcases (serves.adds state).1 member with ⟨known, leads⟩ | ⟨absent, present⟩
  · exact ⟨kept.contains (orderly.contains_of_known history known), fun ⟨_, never⟩ => never leads⟩
  · refine ⟨present, fun ⟨known, _⟩ => ?_⟩
    rw [orderly.contains_of_known history known] at absent
    cases absent

/-- A state is on the stack, before one is popped, exactly if it is transient
and waits. -/
theorem mem_stack_iff (orderly : Orderly begun earlier stage.before stage.run)
    (history : stage.run.space.HasHistory) (next : stage.before.next = some stage.state)
    (serves : stage.before.Serves stage.run stage.state added stage.after stage.later) :
    state ∈ (stage.before.enqueueAll stage.later.space added).transient ↔
      Waits begun (earlier ++ [stage]) state ∧ stage.later.space.isTransient state = true := by
  have kept := (serves.evolves.continues history.wellFormed).kept
  rw [enqueueAll_eq, List.mem_append, List.mem_reverse, List.mem_filter,
    orderly.mem_added_iff serves]
  constructor
  · rintro (⟨queues, transient⟩ | old)
    · exact ⟨orderly.waits_until next queues List.not_mem_nil, transient⟩
    · obtain ⟨waits, transient⟩ := orderly.stack.stacked old
      have different : state ≠ stage.state := by
        rintro rfl
        have distinct := (List.nodup_append.1 orderly.distinct).2.1
        rw [queue_of_next next] at distinct
        exact (List.nodup_cons.1 distinct).1 (List.mem_append_left _ old)
      rw [kept.isTransient (orderly.present waits), transient]
      exact ⟨waits_concat.2 ⟨.inl waits, different⟩, rfl⟩
  · rintro ⟨waits, transient⟩
    obtain ⟨old | ⟨queues, _⟩, different⟩ := waits_concat.1 waits
    · rw [kept.isTransient (orderly.present old)] at transient
      have member := orderly.stack.waiting old transient
      rw [next, Option.toList_some, List.singleton_append, List.mem_cons] at member
      exact .inr (member.resolve_left different)
    · exact .inl ⟨queues, transient⟩

/-- A step keeps the invariant. -/
theorem served (orderly : Orderly begun earlier stage.before stage.run)
    (history : begun.space.HasHistory) (next : stage.before.next = some stage.state)
    (serves : stage.before.Serves stage.run stage.state added stage.after stage.later) :
    Orderly begun (earlier ++ [stage]) stage.after stage.later := by
  have historyNow := history.evolves orderly.evolves
  have kept := (serves.evolves.continues historyNow.wellFormed).kept
  have foundBefore := serves.found_subperm next (earlier.map (·.state))
  have mapped : (earlier ++ [stage]).map (·.state) = earlier.map (·.state) ++ [stage.state] :=
    List.map_append
  exact {
    evolves := orderly.evolves.trans serves.evolves
    distinct := by
      rw [mapped]
      obtain ⟨sorted, same, sublist⟩ := foundBefore
      refine same.nodup_iff.1 (sublist.nodup ?_)
      refine List.nodup_append.2 ⟨serves.distinct, orderly.distinct, ?_⟩
      rintro other isAdded _ old rfl
      exact orderly.not_found_of_queues ((orderly.mem_added_iff serves).1 isAdded) old
    found := by
      intro other member
      rw [mapped] at member
      rcases List.mem_append.1 (foundBefore.subset member) with isAdded | old
      · exact orderly.added_present history serves isAdded
      · obtain ⟨contained, unknown⟩ := orderly.found old
        refine ⟨kept.contains contained, Bool.eq_false_iff.2 fun known => ?_⟩
        rw [((serves.known other).1 known).1] at unknown
        cases unknown
    known := by
      intro other
      rw [serves.known, orderly.known, unclaimed_concat]
    present := by
      intro other waits
      rcases (waits_concat.1 waits).1 with old | ⟨isQueued, _⟩
      · exact kept.contains (orderly.present old)
      · have isAdded := (orderly.mem_added_iff serves).2 isQueued
        exact (orderly.added_present history serves isAdded).1
    stack := by
      rw [serves.moves]
      exact stacks_advance fun _ => orderly.mem_stack_iff historyNow next serves }

/-- What one stage does with the pool. -/
theorem pool_spec {transient : StateId → Bool}
    (orderly : Orderly begun earlier stage.before stage.run) (history : begun.space.HasHistory)
    (next : stage.before.next = some stage.state)
    (serves : stage.before.Serves stage.run stage.state added stage.after stage.later)
    (same : ∀ state, stage.later.space.contains state = true →
      transient state = stage.later.space.isTransient state) :
    ((∀ state, Waits begun (earlier ++ [stage]) state → transient state = false) →
        (stage.after.next, stage.after.pool) =
          (stage.before.pool.putAll (added.filter fun state => !transient state)).take) ∧
      ∀ state, Waits begun (earlier ++ [stage]) state → transient state = true →
        stage.after.pool = stage.before.pool.putAll (added.filter fun state => !transient state) ∧
          ∃ top, stage.after.next = some top ∧ transient top = true := by
  have after := orderly.served history next serves
  have stack : ∀ state, state ∈ (stage.before.enqueueAll stage.later.space added).transient ↔
      Waits begun (earlier ++ [stage]) state ∧ transient state = true := by
    intro state
    rw [orderly.mem_stack_iff (history.evolves orderly.evolves) next serves]
    exact and_congr_right fun waits => by rw [same state (after.present waits)]
  have filled : (stage.before.enqueueAll stage.later.space added).pool =
      stage.before.pool.putAll (added.filter fun state => !transient state) := by
    rw [enqueueAll_eq]
    refine congrArg _ (List.filter_congr fun state member => ?_)
    rw [same state (orderly.added_present history serves member).1]
  rw [← filled, serves.moves]
  rcases advance_cases (stage.before.enqueueAll stage.later.space added) with
    ⟨top, rest, popped, moved⟩ | ⟨empty, moved⟩
  · obtain ⟨waits, isTransient⟩ := (stack top).1 (popped ▸ List.mem_cons_self)
    rw [moved]
    refine ⟨fun plain => ?_, fun _ _ _ => ⟨rfl, top, rfl, isTransient⟩⟩
    rw [plain top waits] at isTransient
    cases isTransient
  · rw [moved]
    refine ⟨fun _ => rfl, fun state waits isTransient => ?_⟩
    have member := (stack state).2 ⟨waits, isTransient⟩
    rw [empty] at member
    cases member

end Step

end Orderly

omit [Acceptor R A] in
theorem prepare_orderly {closing : Closing} {run : Exploration R A}
    (contained : run.space.contains run.start = true)
    (fresh : ∀ state, run.isKnown state = run.space.contains state) :
    Orderly run [] (closing.prepare run).1 (closing.prepare run).2 := by
  have queue_ := closing.queue_prepare run
  have known := closing.isKnown_prepare fresh
  have nothing : ∀ {state}, ¬ Waits run ([] : List (Stage R Closing A)) state := by
    rintro state ⟨⟨earlier, stage, later, split_, _⟩, _⟩
    exact List.append_ne_nil_of_right_ne_nil earlier (List.cons_ne_nil stage later) split_.symm
  refine ⟨.refl, ?_, ?_, ?_, fun waits => absurd waits nothing, ⟨?_,
    fun waits => absurd waits nothing, fun nonempty => absurd rfl nonempty⟩⟩
  · simp [queue_]
  · intro state member
    rw [List.map_nil, List.nil_append, queue_, List.mem_singleton] at member
    rw [Bool.eq_false_iff, ne_eq, known, member]
    exact ⟨contained, fun isOther => isOther.2 rfl⟩
  · intro state
    simp [known, Unclaimed]
  · intro state member
    cases member

section Run

variable {closing current : Closing} {begun now : Exploration R A}
  {stages earlier later : List (Stage R Closing A)} {stage : Stage R Closing A}

/-- Every step queues states and moves on. -/
theorem Orderly.step_serves {run after : Exploration R A} {next : Closing} {result : StateId}
    (orderly : Orderly begun stages closing run) (history : begun.space.HasHistory)
    (more : Strategy.hasNext R closing = true)
    (step : Strategy.doNext closing run = (.ok result, next, after)) :
    closing.next = some result ∧ ∃ added, closing.Serves run result added next after := by
  obtain ⟨state, isNext⟩ := Option.isSome_iff_exists.1 more
  obtain ⟨rfl, serves⟩ := doNext_serves (history.evolves orderly.evolves) isNext
    (orderly.next_contained isNext) (fun _ known => orderly.contains_of_known history known) step
  exact ⟨isNext, serves⟩

theorem staged_orderly (history : begun.space.HasHistory)
    (contained : begun.space.contains begun.start = true)
    (fresh : ∀ state, begun.isKnown state = begun.space.contains state)
    (staged : Staged closing begun stages current now) : Orderly begun stages current now := by
  induction staged with
  | prepared prepare =>
      cases prepare
      exact prepare_orderly contained fresh
  | observed change _ inductionHypothesis => exact { inductionHypothesis with }
  | stepped _ more step inductionHypothesis =>
      obtain ⟨isNext, added, serves⟩ := inductionHypothesis.step_serves history more step
      exact inductionHypothesis.served history isNext serves

/-- The state space of a stage evolves into all later ones. -/
theorem staged_evolves (staged : Staged closing begun stages current now)
    (split_ : stages = earlier ++ stage :: later) :
    stage.run.space.Evolves stage.later.space ∧ stage.later.space.Evolves now.space := by
  induction staged generalizing later with
  | prepared _ => simp at split_
  | observed _ _ inductionHypothesis => exact inductionHypothesis split_
  | @stepped _ current _ now _ _ _ _ step inductionHypothesis =>
      have grows := doNext_evolves current now
      rw [show current.doNext now = _ from step] at grows
      rcases split_concat split_ with ⟨_, rfl, rfl⟩ | ⟨between, _, rfl⟩
      · exact ⟨grows, .refl⟩
      · obtain ⟨during, onward⟩ := inductionHypothesis rfl
        exact ⟨during, onward.trans grows⟩

/-- What holds at every stage. That a state is transient never changes, so it
can be asked at the end. -/
theorem orderly_at_stage (history : begun.space.HasHistory)
    (contained : begun.space.contains begun.start = true)
    (fresh : ∀ state, begun.isKnown state = begun.space.contains state)
    (staged : Staged closing begun stages current now)
    (split_ : stages = earlier ++ stage :: later) :
    Orderly begun earlier stage.before stage.run ∧ stage.before.next = some stage.state ∧
      (∃ added, stage.before.Serves stage.run stage.state added stage.after stage.later) ∧
      stage.run.space.Extends now.space ∧ stage.later.space.Extends now.space := by
  obtain ⟨stagedHere, more, step⟩ := staged.at_stage split_
  obtain ⟨during, onward⟩ := staged_evolves staged split_
  have orderly := staged_orderly history contained fresh stagedHere
  have historyHere := history.evolves orderly.evolves
  obtain ⟨isNext, serves⟩ := orderly.step_serves history more step
  have kept := (onward.continues (historyHere.evolves during).wellFormed).kept
  exact ⟨orderly, isNext, serves, (during.continues historyHere.wellFormed).kept.trans kept, kept⟩

end Run

/-- Transient states come first: in the stages of a run, up to the strategy and
the run that they have led to. This is about transient states that are queued.
One from before the run which the stages reach only by transitions of their own
waits for nothing and may never be processed. -/
structure TransientFirst (begun : Exploration R A) (stages : List (Stage R Closing A))
    (closing : Closing) (run : Exploration R A) : Prop where
  /-- No state is processed twice. -/
  once : (stages.map (·.state)).Nodup
  /-- From the stage after the one that queues a transient state to the one that
  processes it, all stages process transient states. -/
  through {earlier between later : List (Stage R Closing A)} {stage last : Stage R Closing A}
    {state : StateId} : stages = earlier ++ stage :: (between ++ last :: later) →
    stage.Queues begun earlier state → run.space.isTransient state = true →
    state ∉ between.map (·.state) → run.space.isTransient last.state = true
  /-- The pool gets what is queued and not transient. It is asked for the next
  state exactly if no transient state waits. -/
  pool {earlier later : List (Stage R Closing A)} {stage : Stage R Closing A} :
    stages = earlier ++ stage :: later → ∃ (added : List StateId) (filled : Pool),
      added.Nodup ∧
      (∀ state, state ∈ added ↔ stage.Queues begun earlier state) ∧
      filled = stage.before.pool.putAll (added.filter fun state => !run.space.isTransient state) ∧
      ((∀ state, Waits begun (earlier ++ [stage]) state → run.space.isTransient state = false) →
        (stage.after.next, stage.after.pool) = filled.take) ∧
      ∀ state, Waits begun (earlier ++ [stage]) state → run.space.isTransient state = true →
        stage.after.pool = filled ∧
          ∃ next, stage.after.next = some next ∧ run.space.isTransient next = true
  /-- The run does not come to an end while a transient state waits. -/
  last {state : StateId} : closing.next = none → Waits begun stages state →
    run.space.isTransient state = false

theorem staged_transientFirst {closing current : Closing} {begun now : Exploration R A}
    {stages : List (Stage R Closing A)} (history : begun.space.HasHistory)
    (contained : begun.space.contains begun.start = true)
    (fresh : ∀ state, begun.isKnown state = begun.space.contains state)
    (staged : Staged closing begun stages current now) :
    TransientFirst begun stages current now := by
  have orderly := staged_orderly history contained fresh staged
  constructor
  · exact (List.nodup_append.1 orderly.distinct).1
  · intro earlier between later stage last state split_ queues transient unprocessed
    have splitLast : stages = (earlier ++ stage :: between) ++ last :: later := by simp [split_]
    obtain ⟨here, isNextHere, _⟩ := orderly_at_stage history contained fresh staged split_
    obtain ⟨atLast, isNextLast, _, kept, _⟩ :=
      orderly_at_stage history contained fresh staged splitLast
    have waits := here.waits_until isNextHere queues unprocessed
    rw [kept.isTransient (atLast.present waits)] at transient
    obtain ⟨next, isNext, nextTransient⟩ := atLast.next_transient waits transient
    cases isNextLast.symm.trans isNext
    rw [kept.isTransient (atLast.next_contained isNextLast)]
    exact nextTransient
  · intro earlier later stage split_
    obtain ⟨here, isNext, ⟨added, serves⟩, _, kept⟩ :=
      orderly_at_stage history contained fresh staged split_
    exact ⟨added, _, serves.distinct, fun _ => here.mem_added_iff serves, rfl,
      here.pool_spec history isNext serves fun _ inside => kept.isTransient inside⟩
  · intro state ended waits
    refine Bool.eq_false_iff.2 fun transient => ?_
    obtain ⟨next, isNext, _⟩ := orderly.next_transient waits transient
    rw [ended] at isNext
    cases isNext

/-- Whatever the rules, the history of the state space, the start state and the
pool: transient states come first in every sequence of successful steps. -/
theorem transient_states_come_first {explorer : Explorer} {space : StateSpace R}
    {start : Option StateId} {acceptor : A} {closing current : Closing}
    {begun now : Exploration R A} {trail : List (Closing × StateId)}
    (history : space.HasHistory) (begins : explorer.Begins space start acceptor begun)
    (made : Made closing begun trail current now) :
    ∃ stages, Staged closing begun stages current now ∧
      stages.map (fun stage => (stage.before, stage.state)) = trail ∧
      TransientFirst begun stages current now := by
  obtain ⟨drained, _, _, contained, fresh⟩ := begins.spec
  have historyBegun : begun.space.HasHistory := by
    rw [drained]
    exact history.evolves (.single (.drain space))
  obtain ⟨stages, staged, same⟩ := made.staged
  exact ⟨stages, staged, same, staged_transientFirst historyBegun contained fresh staged⟩

end Closing

/-- A crossing whose passage and bend are transient. -/
def crossingSystem : LabelledSystem :=
  { nodes := #[{ name := "door" }, { name := "room" }, { name := "passage", transient := true },
      { name := "bend", transient := true }, { name := "yard" }]
    edges := #[⟨⟨0⟩, "enter", ⟨1⟩⟩, ⟨⟨0⟩, "pass", ⟨2⟩⟩, ⟨⟨2⟩, "leave", ⟨4⟩⟩, ⟨⟨2⟩, "turn", ⟨3⟩⟩] }

/-- The room and the passage are there before the run. -/
def crossingSpace : StateSpace crossingSystem.rules :=
  let created := StateSpace.create crossingSystem.rules crossingSystem.interruptions
  ((created.applyMatch ⟨0⟩ 0).2.applyMatch ⟨0⟩ 0).2

def crossingRun : Exploration crossingSystem.rules CounterExamples :=
  { space := crossingSpace.drainEvents.2
    acceptor := {}
    config := {}
    start := StateSpace.startState
    known := #[true, true, true]
    progress := none
    stopRequested := false }

/-- So many steps of a breadth-first run. -/
def crossingSteps (count : Nat) : List (Closing × Except Failure StateId) × Closing ×
    Exploration crossingSystem.rules CounterExamples :=
  attempted (Closing.breadthFirst.prepare crossingRun).1
    (Closing.breadthFirst.prepare crossingRun).2 count

theorem crossing_transient_first :
    crossingSpace.HasHistory ∧ crossingSpace.size = 3 ∧
      [⟨0⟩, ⟨1⟩, ⟨2⟩, ⟨3⟩, ⟨4⟩].filter (crossingSteps 5).2.2.space.isTransient = [⟨2⟩, ⟨4⟩] ∧
      ∃ stages, Staged Closing.breadthFirst crossingRun stages (crossingSteps 5).2.1
          (crossingSteps 5).2.2 ∧
        stages.map (·.state) = [⟨0⟩, ⟨2⟩, ⟨4⟩, ⟨1⟩, ⟨3⟩] ∧
        Closing.TransientFirst crossingRun stages (crossingSteps 5).2.1
          (crossingSteps 5).2.2 := by
  have history : crossingSpace.HasHistory :=
    ⟨crossingSystem.interruptions, (Relation.ReflTransGen.single (.apply _ ⟨0⟩ 0)).tail
      (.apply _ ⟨0⟩ 0)⟩
  have begins : Explorer.Begins {} crossingSpace none {} crossingRun := rfl
  have order : processed crossingSystem.rules (crossingSteps 5).1 =
      [⟨0⟩, ⟨2⟩, ⟨4⟩, ⟨1⟩, ⟨3⟩] := by decide +kernel
  obtain ⟨trail, made, states⟩ := made_attempted rfl 5 (congrArg List.length order)
  obtain ⟨stages, staged, same, transientFirst⟩ :=
    Closing.transient_states_come_first history begins made
  exact ⟨history, rfl, by decide +kernel, stages, staged,
    (states_of_trail same).trans (states.trans order), transientFirst⟩

end OnTheFly
