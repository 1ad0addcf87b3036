import OnTheFly.Proofs.RuleSystem.Labelled
import OnTheFly.Proofs.StateSpace.Layers
import OnTheFly.Proofs.Strategy.TransientFirst

/-!
Contract: exploring a single state closes its transient closure.

Owns: the graphs and the states that are reached from the start by way of
transient ones only, the invariant of a run whose pool accepts nothing but the
start state, and what an exhausted play leaves of a state space that held the
start state alone.
Does not own: the order in which transient states are processed.

The pool refuses every state that such a run finds, and the stack takes the
transient ones. So what is left aside is exactly what is not transient.
-/

set_option autoImplicit false

namespace OnTheFly

/-! ## The transient closure -/

/-- The graphs to which steps lead from the start graph by way of transient
graphs, the last one included. -/
inductive RuleSystem.TransientClosure (R : RuleSystem) (Step : R.Graph → R.Graph → Prop) :
    R.Graph → Prop where
  | start : R.TransientClosure Step R.startGraph
  | step {graph target : R.Graph} (before : R.TransientClosure Step graph)
      (step : Step graph target) (transient : R.isTransient target = true) :
      R.TransientClosure Step target

theorem RuleSystem.TransientClosure.mono {R : RuleSystem} {Step Other : R.Graph → R.Graph → Prop}
    (weaker : ∀ graph target, Step graph target → Other graph target) {graph : R.Graph}
    (closure : R.TransientClosure Step graph) : R.TransientClosure Other graph := by
  induction closure with
  | start => exact .start
  | step _ step transient inductionHypothesis =>
      exact inductionHypothesis.step (weaker _ _ step) transient

namespace StateSpace

variable {R : RuleSystem}

/-- Whether transitions lead to the state from the start state, such that all
states on the way but the first are transient. -/
def InTransientClosure (space : StateSpace R) (state : StateId) : Prop :=
  Relation.ReflTransGen
    (fun source target => space.Leads source target ∧ space.isTransient target = true)
    startState state

theorem isTransient_of_graph? {space : StateSpace R} {state : StateId} {graph : R.Graph}
    (stored : space.graph? state = some graph) : space.isTransient state = R.isTransient graph := by
  rw [isTransient, stored, Option.any_some]

/-- A state whose matches nobody has asked for is open and leads nowhere. -/
theorem HasHistory.of_unasked {space : StateSpace R} (history : space.HasHistory)
    {state : StateId} {info : StateInfo R} (present : space.info? state = some info)
    (unasked : info.pending = none) : info.closed = false ∧ space.out state = [] := by
  obtain ⟨log, chronicle⟩ := history.chronicle
  constructor
  · rw [Bool.eq_false_iff]
    intro closed
    rw [history.wellFormed.closed_done present closed] at unasked
    cases unasked
  · rw [chronicle.accounted.out, chronicle.accounted.untried present unasked]
    rfl

/-- Every state but the start state is a successor of an older one. -/
theorem HasHistory.entered {space : StateSpace R} (history : space.HasHistory) {state : StateId}
    (contained : space.contains state = true) (later : state ≠ startState) :
    ∃ source, source.index < state.index ∧ space.Leads source state := by
  cases incoming : space.incoming? state with
  | none => exact absurd (history.rooted.of_incoming?_none contained incoming).1 later
  | some entering =>
      obtain ⟨log, chronicle⟩ := history.chronicle
      obtain ⟨handle, _, first, target, older, _⟩ :=
        history.rooted.of_incoming?_some contained incoming
      obtain ⟨listed, _, _⟩ := chronicle.accounted.ends first.1
      exact ⟨entering.source, older, handle, entering, mem_outgoing.2 ⟨listed, first.1⟩, target⟩

/-- A state space in which `states` are what exploring the start state has
closed, and nothing else was even asked for its matches. -/
structure ClosesTransientClosure (space : StateSpace R) (states : List StateId) : Prop where
  distinct : states.Nodup
  processed (state : StateId) : state ∈ states ↔ space.InTransientClosure state
  closed (state : StateId) : space.isClosed state = true ↔ state ∈ states
  /-- What was found and left aside. -/
  others {state : StateId} : space.contains state = true → state ∉ states →
    (∃ source ∈ states, space.Leads source state) ∧
      ∃ info, space.info? state = some info ∧ info.closed = false ∧ info.pending = none
  /-- The graphs of the closed states, by the applications that were made. -/
  graphs (graph : R.Graph) : R.TransientClosure space.Permits graph ↔
    ∃ state ∈ states, space.graph? state = some graph
  /-- If results do not depend on what the engine remembers, by all applications. -/
  applications (graph : R.Graph) : R.Functional → (R.TransientClosure R.Applies graph ↔
    ∃ state ∈ states, space.graph? state = some graph)

/-- Whether `states` are the start state and all transient ones, all of them
closed, and the others are as they were created. -/
structure SetsAside (space : StateSpace R) (states : List StateId) : Prop where
  distinct : states.Nodup
  found (state : StateId) : state ∈ states ↔
    space.contains state = true ∧ (state = startState ∨ space.isTransient state = true)
  closed {state : StateId} : state ∈ states → space.isClosed state = true
  unasked {state : StateId} {info : StateInfo R} : state ∉ states →
    space.info? state = some info → info.pending = none

namespace SetsAside

variable {space : StateSpace R} {states : List StateId}

theorem mem_of_leads (aside : space.SetsAside states) (history : space.HasHistory)
    {source target : StateId} (leads : space.Leads source target) : source ∈ states := by
  obtain ⟨handle, transition, member, _⟩ := leads
  obtain ⟨listed, _⟩ := mem_outgoing.1 member
  obtain ⟨info, present, _⟩ := mem_out.1 listed
  by_contra other
  rw [(history.of_unasked present (aside.unasked other present)).2] at listed
  cases listed

theorem mem_iff (aside : space.SetsAside states) (history : space.HasHistory) (state : StateId) :
    state ∈ states ↔ space.InTransientClosure state := by
  constructor
  · -- The source of the transition that created a state is older and leads somewhere.
    induction index : state.index using Nat.strongRecOn generalizing state with
    | ind position inductionHypothesis =>
        intro member
        obtain ⟨contained, isStart | transient⟩ := (aside.found state).1 member
        · rw [isStart]
          exact .refl
        · by_cases isStart : state = startState
          · rw [isStart]
            exact .refl
          · obtain ⟨source, older, leads⟩ := history.entered contained isStart
            have before := inductionHypothesis source.index (index ▸ older) source rfl
              (aside.mem_of_leads history leads)
            exact before.tail ⟨leads, transient⟩
  · intro reached
    cases reached with
    | refl => exact (aside.found _).2 ⟨history.contains_startState, .inl rfl⟩
    | tail _ step =>
        exact (aside.found _).2 ⟨history.wellFormed.contains_of_leads step.1, .inr step.2⟩

theorem transientClosure_iff (aside : space.SetsAside states) (history : space.HasHistory)
    (graph : R.Graph) :
    R.TransientClosure space.Permits graph ↔
      ∃ state ∈ states, space.graph? state = some graph := by
  simp only [aside.mem_iff history]
  constructor
  · intro closure
    induction closure with
    | start => exact ⟨startState, .refl, history.graph?_startState⟩
    | step _ step transient inductionHypothesis =>
        obtain ⟨source, reached, stored⟩ := inductionHypothesis
        have closed := aside.closed ((aside.mem_iff history source).2 reached)
        obtain ⟨next, leads, storedNext⟩ := step.2 source stored closed
        have isTransient := (isTransient_of_graph? storedNext).trans transient
        exact ⟨next, reached.tail ⟨leads, isTransient⟩, storedNext⟩
  · rintro ⟨state, reached, stored⟩
    induction reached generalizing graph with
    | refl =>
        rw [history.graph?_startState] at stored
        cases stored
        exact .start
    | tail _ step inductionHypothesis =>
        obtain ⟨before, target, storedBefore, storedTarget, permits⟩ :=
          history.permits_of_leads step.1
        rw [stored] at storedTarget
        cases storedTarget
        exact (inductionHypothesis before storedBefore).step permits
          ((isTransient_of_graph? stored).symm.trans step.2)

theorem closesTransientClosure (aside : space.SetsAside states) (history : space.HasHistory) :
    space.ClosesTransientClosure states := by
  have graphs := aside.transientClosure_iff history
  refine ⟨aside.distinct, aside.mem_iff history, fun state => ⟨fun isClosed => ?_, aside.closed⟩,
    ?_, graphs, ?_⟩
  · obtain ⟨info, present, infoClosed⟩ := isClosed_iff.1 isClosed
    by_contra other
    have isOpen := (history.of_unasked present (aside.unasked other present)).1
    exact Bool.false_ne_true (isOpen.symm.trans infoClosed)
  · intro state contained other
    have notStart : state ≠ startState := fun isStart =>
      other ((aside.found state).2 ⟨contained, .inl isStart⟩)
    obtain ⟨source, _, leads⟩ := history.entered contained notStart
    obtain ⟨info, present⟩ := contains_iff.1 contained
    have unasked := aside.unasked other present
    exact ⟨⟨source, aside.mem_of_leads history leads, leads⟩, info, present,
      (history.of_unasked present unasked).1, unasked⟩
  · intro graph functional
    rw [← graphs]
    exact ⟨.mono fun _ _ => history.permits_of_applies functional,
      .mono fun _ _ permits => permits.1⟩

end SetsAside

end StateSpace

/-! ## One step -/

/-- A pool that accepts one state refuses the others. -/
theorem Pool.putAll_single {accepts slot : Option StateId} {states : List StateId}
    (refused : ∀ state ∈ states, accepts ≠ some state) :
    (Pool.single accepts slot).putAll states = .single accepts slot := by
  induction states with
  | nil => rfl
  | cons state states inductionHypothesis =>
      obtain ⟨first, others⟩ := List.forall_mem_cons.1 refused
      have unfolded : (Pool.single accepts slot).putAll (state :: states) =
          ((Pool.single accepts slot).put state).putAll states := rfl
      rw [unfolded, Pool.put, if_neg first, inductionHypothesis others]

namespace Closing

/-- There is nothing to take from a pool that holds nothing. -/
theorem pool_advance_of_single {closing : Closing} {accepts : Option StateId}
    (empty : closing.pool = .single accepts none) :
    closing.advance.pool = .single accepts none := by
  rcases closing.advance_cases with ⟨_, _, _, moved⟩ | ⟨_, moved⟩ <;> rw [moved]
  · exact empty
  · rw [empty]
    rfl

variable {R : RuleSystem} {A : Type} [Acceptor R A]

/-- A successful step closes its state, whatever the pool, and leaves the others
alone. -/
theorem doNext_expands {closing after : Closing} {run later : Exploration R A}
    {state result : StateId} (history : run.space.HasHistory) (next : closing.next = some state)
    (contained : run.space.contains state = true)
    (step : closing.doNext run = (.ok result, after, later)) :
    later.space.isClosed state = true ∧
      ∃ created, run.space.Expands state created later.space := by
  obtain ⟨known, sameResult, sameRun⟩ := doNext_eq next run
  let claimed : Exploration R A := { run with known := known }
  have historyClaimed : claimed.space.HasHistory := history
  have containedClaimed : claimed.space.contains state = true := contained
  rw [step] at sameResult sameRun
  cases closes : (claimed.closeState state).1 with
  | error failure =>
      change _ = Except.map _ (claimed.closeState state).1 at sameResult
      rw [closes] at sameResult
      cases sameResult
  | ok all =>
      have outcome : claimed.closeState state = (.ok all, later) := Prod.ext closes sameRun.symm
      have closed := (Exploration.closeState_closes historyClaimed containedClaimed).1 all closes
      rw [outcome] at closed
      exact ⟨closed, _, Exploration.closeState_expands historyClaimed containedClaimed outcome⟩

/-! ## The whole run -/

/-- The invariant of a run that was `begun` in a state space of one state. -/
structure Secluded (begun : Exploration R A) (visited : List StateId) (closing : Closing)
    (run : Exploration R A) : Prop where
  evolves : begun.space.Evolves run.space
  unknown (state : StateId) : run.isKnown state = false
  pool : closing.pool = .single (some StateSpace.startState) none
  distinct : (visited ++ closing.queue).Nodup
  found (state : StateId) : state ∈ visited ++ closing.queue ↔
    run.space.contains state = true ∧
      (state = StateSpace.startState ∨ run.space.isTransient state = true)
  closed {state : StateId} : state ∈ visited → run.space.isClosed state = true
  unasked {state : StateId} {info : StateInfo R} : state ∉ visited →
    state ≠ StateSpace.startState → run.space.info? state = some info → info.pending = none
  idle : closing.next = none → closing.queue = []

namespace Secluded

variable {begun run later : Exploration R A} {visited added : List StateId}
  {closing after : Closing} {state : StateId}

omit [Acceptor R A]

theorem next_contained (secluded : Secluded begun visited closing run)
    (next : closing.next = some state) : run.space.contains state = true := by
  have waiting : state ∈ closing.queue := queue_of_next next ▸ List.mem_cons_self
  exact ((secluded.found state).1 (List.mem_append_right _ waiting)).1

/-- A step adds the states that are new. -/
theorem mem_added (secluded : Secluded begun visited closing run)
    (serves : closing.Serves run state added after later) (other : StateId) :
    other ∈ added ↔ run.space.contains other = false ∧ later.space.contains other = true := by
  rw [serves.adds, secluded.unknown]
  simp

/-- So the pool stays empty, and the transient ones among them go to the stack. -/
theorem moved (secluded : Secluded begun visited closing run) (history : begun.space.HasHistory)
    (serves : closing.Serves run state added after later) :
    after.pool = .single (some StateSpace.startState) none ∧
      after.queue = (added.filter later.space.isTransient).reverse ++ closing.transient ∧
      (after.next = none → after.queue = []) := by
  have refused : ∀ other ∈ added.filter (fun other => !later.space.isTransient other),
      some StateSpace.startState ≠ some other := by
    rintro other member same
    cases same
    have absent := ((secluded.mem_added serves _).1 (List.mem_filter.1 member).1).1
    rw [(history.evolves secluded.evolves).contains_startState] at absent
    cases absent
  have queued := closing.enqueueAll_eq later.space added
  rw [secluded.pool, Pool.putAll_single refused] at queued
  rw [serves.moves, queued]
  refine ⟨?_, ?_, (queue_advance _).2⟩
  · exact pool_advance_of_single rfl
  · rw [(queue_advance _).1]
    exact List.append_nil _

/-- The found states are those found before and the transient ones among the new. -/
theorem found_perm (secluded : Secluded begun visited closing run)
    (history : begun.space.HasHistory) (next : closing.next = some state)
    (serves : closing.Serves run state added after later) :
    ((visited ++ [state]) ++ after.queue).Perm
      (added.filter later.space.isTransient ++ (visited ++ closing.queue)) := by
  have before : closing.queue = state :: closing.transient := by
    rw [queue_of_next next, secluded.pool]
    exact congrArg (state :: ·) (List.append_nil _)
  let stack := added.filter later.space.isTransient
  rw [(secluded.moved history serves).2.1, before, List.append_assoc, List.singleton_append]
  calc List.Perm (visited ++ state :: (stack.reverse ++ closing.transient))
        (visited ++ (stack.reverse ++ state :: closing.transient)) :=
        List.perm_middle.symm.append_left visited
    List.Perm _ (stack.reverse ++ (visited ++ state :: closing.transient)) :=
        List.perm_append_comm_assoc _ _ _
    List.Perm _ (stack ++ (visited ++ state :: closing.transient)) :=
        stack.reverse_perm.append_right _

theorem step (secluded : Secluded begun visited closing run) (history : begun.space.HasHistory)
    (next : closing.next = some state) (serves : closing.Serves run state added after later)
    (closed : later.space.isClosed state = true) {created : List StateId}
    (expands : run.space.Expands state created later.space) :
    Secluded begun (visited ++ [state]) after later := by
  have historyNow := history.evolves secluded.evolves
  have kept := (serves.evolves.continues historyNow.wellFormed).kept
  obtain ⟨pool, _, idle⟩ := secluded.moved history serves
  have sorted := secluded.found_perm history next serves
  exact {
    evolves := secluded.evolves.trans serves.evolves
    unknown := by
      intro other
      rw [Bool.eq_false_iff, ne_eq, serves.known, secluded.unknown]
      simp
    pool
    distinct := by
      rw [sorted.nodup_iff, List.nodup_append]
      refine ⟨serves.distinct.filter _, secluded.distinct, ?_⟩
      rintro other isNew _ old rfl
      have absent := ((secluded.mem_added serves _).1 (List.mem_filter.1 isNew).1).1
      rw [((secluded.found _).1 old).1] at absent
      cases absent
    found := by
      intro other
      rw [sorted.mem_iff, List.mem_append, List.mem_filter, secluded.mem_added serves,
        secluded.found]
      cases inside : run.space.contains other with
      | true => simp [kept.contains inside, kept.isTransient inside]
      | false =>
          have notStart : other ≠ StateSpace.startState := by
            rintro rfl
            rw [historyNow.contains_startState] at inside
            cases inside
          simp [notStart]
    closed := by
      intro other member
      rcases List.mem_append.1 member with old | isState
      · exact (kept.closed (secluded.closed old)).1
      · rw [List.mem_singleton.1 isState]
        exact closed
    unasked := by
      intro other info unvisited notStart present
      rw [List.mem_append, List.mem_singleton, not_or] at unvisited
      rcases expands.contains.1 (StateSpace.contains_of_info? present) with inside | isCreated
      · obtain ⟨old, presentBefore⟩ := StateSpace.contains_iff.1 inside
        rw [expands.others unvisited.2 presentBefore] at present
        cases present
        exact secluded.unasked unvisited.1 notStart presentBefore
      · obtain ⟨_, fresh, presentFresh, _, unasked⟩ := expands.fresh isCreated
        rw [present] at presentFresh
        cases presentFresh
        exact unasked
    idle }

/-- In the end the visited states are set aside from all others. -/
theorem setsAside (secluded : Secluded begun visited closing run)
    (history : begun.space.HasHistory) (stopped : closing.next = none) :
    run.space.SetsAside visited := by
  have distinct := secluded.distinct
  have found := secluded.found
  rw [secluded.idle stopped, List.append_nil] at distinct found
  refine ⟨distinct, found, secluded.closed, fun {state info} unvisited present => ?_⟩
  refine secluded.unasked unvisited ?_ present
  rintro rfl
  exact unvisited ((found _).2 ⟨(history.evolves secluded.evolves).contains_startState, .inl rfl⟩)

end Secluded

omit [Acceptor R A] in
theorem prepare_secluded {closing : Closing} {accepts slot : Option StateId}
    (single : closing.pool = .single accepts slot) {run : Exploration R A}
    (history : run.space.HasHistory) (alone : run.space.size = 1)
    (contained : run.space.contains run.start = true)
    (fresh : ∀ state, run.isKnown state = run.space.contains state) :
    Secluded run [] (closing.prepare run).1 (closing.prepare run).2 := by
  have atStart := StateSpace.eq_startState alone contained
  have only : ∀ {state}, run.space.contains state = true → state = StateSpace.startState :=
    fun inside => StateSpace.eq_startState alone inside
  have queue_ := closing.queue_prepare run
  constructor
  · exact .refl
  · intro state
    rw [Bool.eq_false_iff, ne_eq, isKnown_prepare _ fresh]
    rintro ⟨inside, different⟩
    exact different ((only inside).trans atStart.symm)
  · change closing.pool.clear run.start = _
    rw [single, atStart]
    rfl
  · simp [queue_]
  · intro state
    rw [List.nil_append, queue_, List.mem_singleton, atStart]
    constructor
    · rintro rfl
      exact ⟨history.contains_startState, .inl rfl⟩
    · exact fun ⟨inside, _⟩ => only inside
  · intro state member
    cases member
  · intro state info _ notStart present
    exact absurd (only (StateSpace.contains_of_info? present)) notStart
  · intro stopped
    cases stopped

theorem made_secluded {closing current : Closing} {accepts slot : Option StateId}
    (single : closing.pool = .single accepts slot) {begun now : Exploration R A}
    {trail : List (Closing × StateId)} (history : begun.space.HasHistory)
    (alone : begun.space.size = 1) (contained : begun.space.contains begun.start = true)
    (fresh : ∀ state, begun.isKnown state = begun.space.contains state)
    (made : Made closing begun trail current now) :
    Secluded begun (trail.map (·.2)) current now := by
  induction made with
  | prepared prepare =>
      cases prepare
      exact prepare_secluded single history alone contained fresh
  | observed change _ inductionHypothesis => exact { inductionHypothesis with }
  | stepped _ more step inductionHypothesis =>
      obtain ⟨state, isNext⟩ := Option.isSome_iff_exists.1 more
      have historyNow := history.evolves inductionHypothesis.evolves
      have inside := inductionHypothesis.next_contained isNext
      obtain ⟨rfl, added, serves⟩ := doNext_serves historyNow isNext inside
        (fun other known => by simp [inductionHypothesis.unknown other] at known) step
      obtain ⟨closed, created, expands⟩ := doNext_expands historyNow isNext inside step
      rw [List.map_append]
      exact inductionHypothesis.step history isNext serves closed expands

/-! ## Plays -/

/-- **Exploring a single state.** An exhausted play in a state space of one state
has processed the transient closure of that state, each state once. It has
closed these states only, and found nothing but their successors. -/
theorem single_state_play_closes_transient_closure {closing : Closing}
    {accepts slot : Option StateId} (single : closing.pool = .single accepts slot)
    {space : StateSpace R} (history : space.HasHistory) (alone : space.size = 1)
    {explorer : Explorer} {allowance : Nat} {start : Option StateId} {acceptor : A}
    {outcome : Outcome}
    (ended : (explorer.play allowance closing space start acceptor).outcome =
      some (.ok outcome)) (exhausted : outcome.termination = .exhausted) :
    ∃ begun trail final, explorer.Begins space start acceptor begun ∧
      Made closing begun trail
        (explorer.play allowance closing space start acceptor).strategy final ∧
      final.space = (explorer.play allowance closing space start acceptor).space ∧
      outcome.steps = trail.length ∧
      (explorer.play allowance closing space start acceptor).space.ClosesTransientClosure
        (trail.map (·.2)) := by
  obtain ⟨begun, trail, final, begins, made, sameSpace, length, finished⟩ :=
    Explorer.play_made ended exhausted
  obtain ⟨atSpace, _, _, contained, fresh⟩ := begins.spec
  have historyBegun := Exploration.history_of_begin history begins
  have aloneBegun : begun.space.size = 1 := by
    rw [atSpace]
    exact alone
  have secluded := made_secluded single historyBegun aloneBegun contained fresh made
  have stopped := Option.not_isSome_iff_eq_none.1 (Bool.eq_false_iff.1 finished)
  refine ⟨begun, trail, final, begins, made, sameSpace, length.symm, ?_⟩
  rw [← sameSpace]
  exact (secluded.setsAside historyBegun stopped).closesTransientClosure
    (historyBegun.evolves secluded.evolves)

end Closing

/-- A yard with a passage that bends and comes back to the yard. A hall opens off
the passage. -/
def arcadeSystem : LabelledSystem :=
  { nodes := #[{ name := "yard" }, { name := "room" }, { name := "passage", transient := true },
      { name := "hall" }, { name := "bend", transient := true }, { name := "cell" }]
    edges := #[⟨⟨0⟩, "enter", ⟨1⟩⟩, ⟨⟨0⟩, "pass", ⟨2⟩⟩, ⟨⟨2⟩, "enter", ⟨3⟩⟩, ⟨⟨2⟩, "turn", ⟨4⟩⟩,
      ⟨⟨4⟩, "turn", ⟨2⟩⟩, ⟨⟨4⟩, "leave", ⟨0⟩⟩, ⟨⟨3⟩, "enter", ⟨5⟩⟩] }

def arcadePlay : Played arcadeSystem.rules Closing CounterExamples :=
  ({} : Explorer).play 10 .singleState (StateSpace.create arcadeSystem.rules {}) none {}

theorem arcadePlay_exhausted :
    arcadePlay.outcome = some (.ok ⟨.exhausted, 3, 5, "no counterexample found"⟩) := by
  decide +kernel

/-- The play closes the yard, the passage and the bend. The room and the hall
are found and left open, and the cell is not found. -/
theorem arcadePlay_closes_transient_closure :
    (StateSpace.create arcadeSystem.rules {}).HasHistory ∧
      (StateSpace.create arcadeSystem.rules {}).size = 1 ∧
      arcadePlay.outcome = some (.ok ⟨.exhausted, 3, 5, "no counterexample found"⟩) ∧
      arcadePlay.space.stateIds.filter arcadePlay.space.isClosed = [⟨0⟩, ⟨2⟩, ⟨4⟩] ∧
      ∃ states, states.length = 3 ∧ arcadePlay.space.ClosesTransientClosure states := by
  have history : (StateSpace.create arcadeSystem.rules {}).HasHistory := ⟨{}, .refl⟩
  obtain ⟨_, trail, _, _, _, _, steps, closes⟩ :=
    Closing.single_state_play_closes_transient_closure
      (rfl : Closing.singleState.pool = .single none none) history rfl arcadePlay_exhausted rfl
  exact ⟨history, rfl, arcadePlay_exhausted, by decide +kernel, _,
    (List.length_map _).trans steps.symm, closes⟩

end OnTheFly
