import OnTheFly.Proofs.RuleSystem.Labelled
import OnTheFly.Proofs.StateSpace.Layers
import OnTheFly.Proofs.Strategy.Closing
import OnTheFly.Proofs.Strategy.Resumption

/-!
Contract: breadth-first exploration finds shortest paths.

Owns: that a breadth-first run over a state space with nothing but its start
state processes the states in the order in which they were created, however
often its steps fail and are made again, and what follows for the depths.

Does not own: why closing states in that order keeps the layers.
-/

set_option autoImplicit false

namespace OnTheFly

variable {R : RuleSystem}

/-- An application appends the state that it has created to the list of all. -/
theorem StateSpace.WellFormed.stateIds_applyMatch {space : StateSpace R}
    (wellFormed : space.WellFormed) (state : StateId) (position : Nat) :
    (∀ applied, (space.applyMatch state position).1 = .ok applied →
      (space.applyMatch state position).2.stateIds = space.stateIds ++ applied.created) ∧
      ∀ failure, (space.applyMatch state position).1 = .error failure →
        (space.applyMatch state position).2.stateIds = space.stateIds := by
  have sameSize := (StateSpace.ensureMatches_frame space state).2.1
  rcases wellFormed.applyMatch_cases state position with
    ⟨_, _, _, made, later, _, _, _, outcome, records⟩ | ⟨_, _, outcome⟩
  · rw [outcome]
    refine ⟨?_, fun _ failed => by cases failed⟩
    rintro applied same
    cases same
    unfold Applied.created
    cases fresh : made.fresh with
    | false => simp [StateSpace.stateIds, (records.known fresh).1, sameSize]
    | true =>
        obtain ⟨target, size, _⟩ := records.created fresh
        simp [StateSpace.stateIds, size, target, sameSize, List.range_succ]
  · rw [outcome]
    refine ⟨fun _ succeeded => (by cases succeeded), fun _ _ => ?_⟩
    simp [StateSpace.stateIds, sameSize]

namespace Exploration

variable {A : Type} [Acceptor R A]

theorem pendingCount_evolvesAt (run : Exploration R A) (state : StateId) :
    Relation.ReflTransGen (StateSpace.GrowsAt state) run.space
      (run.pendingCount state).2.space := by
  rw [pendingCount, dispatch_space]
  exact .tail (.single (.ask run.space)) (.drain _)

theorem applyMatch_evolvesAt (run : Exploration R A) (state : StateId) (position : Nat) :
    Relation.ReflTransGen (StateSpace.GrowsAt state) run.space
      (run.applyMatch state position).2.space := by
  have applied : Relation.ReflTransGen (StateSpace.GrowsAt state) run.space
      (run.space.applyMatch state position).2 := .single (.apply run.space position)
  unfold applyMatch
  split <;> rename_i outcome <;> rw [outcome] at applied
  · rw [dispatch_space]
    exact applied.tail (.drain _)
  · rw [dispatch_space]
    exact applied.tail (.drain _)
  · exact applied

theorem stateIds_pendingCount (run : Exploration R A) (state : StateId) :
    (run.pendingCount state).2.space.stateIds = run.space.stateIds := by
  rw [pendingCount, dispatch_space]
  simp [StateSpace.stateIds, StateSpace.drainEvents, StateSpace.pendingCount,
    (StateSpace.ensureMatches_frame run.space state).2.1]

theorem stateIds_applyMatch {run : Exploration R A} (history : run.space.HasHistory)
    (state : StateId) (position : Nat) :
    (∀ applied, (run.applyMatch state position).1 = .ok applied →
      (run.applyMatch state position).2.space.stateIds =
        run.space.stateIds ++ applied.created) ∧
      ∀ failure, (run.applyMatch state position).1 = .error failure →
        (run.applyMatch state position).2.space.stateIds = run.space.stateIds := by
  obtain ⟨succeeds, fails⟩ := history.wellFormed.stateIds_applyMatch state position
  unfold applyMatch
  split <;> rename_i outcome <;> rw [outcome] at succeeds fails
  · rw [dispatch_space]
    exact ⟨fun applied same => succeeds applied (by cases same; rfl), fun _ same => by cases same⟩
  · rw [dispatch_space]
    exact ⟨fun _ same => (by cases same), fun _ _ => fails _ rfl⟩
  · exact ⟨fun _ same => (by cases same), fun _ _ => fails _ rfl⟩

end Exploration

namespace Closing

variable {A : Type}

/-! ## The invariant -/

/-- The invariant of a breadth-first run that has processed `visited`. -/
structure Spreads (visited : List StateId) (closing : Closing) (run : Exploration R A) : Prop where
  history : run.space.HasHistory
  layered : run.space.Layered visited.length
  /-- The states are processed in the order in which they were created. -/
  found : visited ++ closing.queue = run.space.stateIds
  breadth : ∃ waiting, closing.pool = .breadth waiting
  untransient : closing.transient = []
  unclaimed (state : StateId) : run.isKnown state = false
  idle : closing.next = none → closing.queue = []

namespace Spreads

variable {visited : List StateId} {closing after : Closing} {run later : Exploration R A}
  {state : StateId}

/-- The next state is the oldest one that has not been processed. -/
theorem next_eq (spreads : Spreads visited closing run) (next : closing.next = some state) :
    state = ⟨visited.length⟩ ∧ run.space.contains state = true := by
  have waiting : closing.queue = state :: (closing.transient ++ closing.pool.waiting) := by
    rw [queue, next]
    rfl
  have found := spreads.found
  rw [waiting] at found
  have member : state ∈ run.space.stateIds := by
    rw [← found]
    simp
  have atPosition : run.space.stateIds[visited.length]? = some state := by
    rw [← found]
    simp
  refine ⟨?_, StateSpace.mem_stateIds.1 member⟩
  unfold StateSpace.stateIds at atPosition
  rw [List.getElem?_map] at atPosition
  obtain ⟨position, inRange, rfl⟩ := Option.map_eq_some_iff.1 atPosition
  obtain ⟨_, same⟩ := List.getElem?_eq_some_iff.1 inRange
  rw [← same, List.getElem_range]

/-- Nothing is transient, so a new state goes to the end of the queue. -/
theorem enqueue (plain : ∀ graph, R.Reachable graph → R.isTransient graph = false)
    (spreads : Spreads visited closing run) (space : StateSpace R) (history : space.HasHistory)
    (state : StateId) :
    ∃ waiting, closing.enqueue space state = { closing with pool := .breadth waiting } ∧
      (closing.enqueue space state).queue = closing.queue ++ [state] := by
  obtain ⟨waiting, pool⟩ := spreads.breadth
  have notTransient : space.isTransient state = false := by
    unfold StateSpace.isTransient
    cases stored : space.graph? state with
    | none => rfl
    | some graph => exact plain graph (history.wellFormed.reachable stored)
  have enqueued : closing.enqueue space state =
      { closing with pool := .breadth (waiting ++ [state]) } := by
    rw [Closing.enqueue, notTransient, if_neg Bool.false_ne_true, pool]
    rfl
  refine ⟨_, enqueued, ?_⟩
  rw [enqueued, queue, queue, pool]
  simp [Pool.waiting]

/-- Work on the next state that adds no state. -/
theorem worked (spreads : Spreads visited closing run) (next : closing.next = some state)
    (evolves : Relation.ReflTransGen (StateSpace.GrowsAt state) run.space later.space)
    (known : later.known = run.known) (same : later.space.stateIds = run.space.stateIds) :
    Spreads visited closing later := by
  obtain ⟨rfl, _⟩ := spreads.next_eq next
  obtain ⟨layered, history⟩ := spreads.layered.evolvesAt spreads.history evolves
  refine ⟨history, layered, spreads.found.trans same.symm, spreads.breadth, spreads.untransient, ?_,
    spreads.idle⟩
  intro other
  rw [Exploration.isKnown, known]
  exact spreads.unclaimed other

/-- Work on the next state that adds the state `target`, which is queued. -/
theorem added (plain : ∀ graph, R.Reachable graph → R.isTransient graph = false)
    (spreads : Spreads visited closing run) (next : closing.next = some state)
    (evolves : Relation.ReflTransGen (StateSpace.GrowsAt state) run.space later.space)
    (known : later.known = run.known) {target : StateId}
    (more : later.space.stateIds = run.space.stateIds ++ [target]) :
    Spreads visited (closing.enqueue later.space target) later := by
  obtain ⟨rfl, _⟩ := spreads.next_eq next
  obtain ⟨layered, history⟩ := spreads.layered.evolvesAt spreads.history evolves
  obtain ⟨waiting, enqueued, queued⟩ := spreads.enqueue plain later.space history target
  constructor
  · exact history
  · exact layered
  · rw [queued, ← List.append_assoc, spreads.found, more]
  · exact ⟨waiting, by rw [enqueued]⟩
  · rw [enqueued]
    exact spreads.untransient
  · intro other
    rw [Exploration.isKnown, known]
    exact spreads.unclaimed other
  · intro stopped
    rw [next_enqueue, next] at stopped
    cases stopped

/-- When its state is closed, the run moves on to the next one. -/
theorem advance (spreads : Spreads visited closing run) (next : closing.next = some state)
    (closed : run.space.isClosed state = true) :
    Spreads (visited ++ [state]) closing.advance run := by
  obtain ⟨rfl, _⟩ := spreads.next_eq next
  obtain ⟨waiting, pool⟩ := spreads.breadth
  have advanced : closing.advance =
      { closing with pool := .breadth waiting.tail, next := waiting.head? } := by
    rw [Closing.advance, spreads.untransient, pool]
    cases waiting <;> rfl
  have rest : closing.advance.queue = waiting := by
    rw [advanced, queue, spreads.untransient]
    cases waiting <;> rfl
  constructor
  · exact spreads.history
  · rw [List.length_append]
    exact spreads.layered.next closed
  · have found := spreads.found
    rw [queue, next, spreads.untransient, pool] at found
    rw [rest, List.append_assoc]
    exact found
  · exact ⟨_, by rw [advanced]⟩
  · rw [advanced]
    exact spreads.untransient
  · exact spreads.unclaimed
  · intro stopped
    rw [advanced] at stopped
    rw [rest]
    exact List.head?_eq_none_iff.1 stopped

variable [Acceptor R A]

/-- The applications of a step keep the invariant, whether or not they all
succeed. -/
theorem applyAndQueue (plain : ∀ graph, R.Reachable graph → R.isTransient graph = false)
    (spreads : Spreads visited closing run) (next : closing.next = some state) (count : Nat) :
    Spreads visited (applyAndQueue state count closing run).2.1
        (applyAndQueue state count closing run).2.2 ∧
      (applyAndQueue state count closing run).2.1.next = some state := by
  induction count generalizing closing run with
  | zero => exact ⟨spreads, next⟩
  | succ count inductionHypothesis =>
      have evolves := run.applyMatch_evolvesAt state 0
      have known := (Exploration.advances_applyMatch run state 0).known
      obtain ⟨succeeds, fails⟩ := Exploration.stateIds_applyMatch spreads.history state 0
      unfold Closing.applyAndQueue
      cases outcome : run.applyMatch state 0 with
      | mk result later =>
          rw [outcome] at evolves known succeeds fails
          cases result with
          | error failure => exact ⟨spreads.worked next evolves known (fails failure rfl), next⟩
          | ok applied =>
              have more := succeeds applied rfl
              unfold Applied.created at more
              simp only
              split at more
              · rename_i fresh
                rw [if_pos fresh]
                exact inductionHypothesis (spreads.added plain next evolves known more)
                  ((next_enqueue closing later.space applied.target).trans next)
              · rename_i old
                rw [if_neg old]
                rw [List.append_nil] at more
                exact inductionHypothesis (spreads.worked next evolves known more) next

/-- A step processes its state, or it fails and can be made again. -/
theorem doNext (plain : ∀ graph, R.Reachable graph → R.isTransient graph = false)
    (spreads : Spreads visited closing run) (next : closing.next = some state) :
    (∃ failure, (closing.doNext run).1 = .error failure ∧
      Spreads visited (closing.doNext run).2.1 (closing.doNext run).2.2) ∨
      (closing.doNext run).1 = .ok state ∧
        Spreads (visited ++ [state]) (closing.doNext run).2.1 (closing.doNext run).2.2 := by
  obtain ⟨_, contained⟩ := spreads.next_eq next
  have counted := spreads.worked next (run.pendingCount_evolvesAt state)
    (Exploration.advances_pendingCount run state).known (run.stateIds_pendingCount state)
  obtain ⟨applied, stillNext⟩ := counted.applyAndQueue plain next (run.pendingCount state).1
  obtain ⟨sameResult, sameRun⟩ := applyAndQueue_eq state (run.pendingCount state).1 closing
    (run.pendingCount state).2
  have closes := (Exploration.closeState_closes spreads.history contained).1
  rw [doNext_of_unclaimed next spreads.unclaimed]
  cases outcome : Closing.applyAndQueue state (run.pendingCount state).1 closing
      (run.pendingCount state).2 with
  | mk result rest =>
      obtain ⟨queued, later⟩ := rest
      rw [outcome] at applied stillNext sameResult sameRun
      cases result with
      | error failure => exact .inl ⟨failure, rfl, applied⟩
      | ok _ =>
          have closed : later.space.isClosed state = true := by
            cases all : ((run.pendingCount state).2.applyFirst state
                (run.pendingCount state).1).1 with
            | error failure =>
                rw [all] at sameResult
                cases sameResult
            | ok all_ =>
                have isClosed := closes all_ all
                change later = _ at sameRun
                rw [sameRun]
                exact isClosed
          exact .inr ⟨rfl, applied.advance stillNext closed⟩

end Spreads

/-! ## The whole run -/

theorem prepare_spreads {closing : Closing} {waiting : List StateId}
    (breadth : closing.pool = .breadth waiting) {run : Exploration R A}
    (history : run.space.HasHistory) (alone : run.space.size = 1)
    (contained : run.space.contains run.start = true)
    (known : ∀ state, run.isKnown state = run.space.contains state) :
    Spreads [] (closing.prepare run).1 (closing.prepare run).2 := by
  have atStart := StateSpace.eq_startState alone contained
  constructor
  · exact history
  · exact .of_size_eq_one history alone
  · have one : run.space.states.size = 1 := alone
    simp [queue, prepare, breadth, Pool.clear, Pool.waiting, StateSpace.stateIds,
      Exploration.forgetKnown, one, atStart, StateSpace.startState]
  · exact ⟨[], by rw [prepare, breadth]; rfl⟩
  · rfl
  · intro state
    rw [prepare, Bool.eq_false_iff, ne_eq, Exploration.isKnown_forgetKnown, known]
    rintro ⟨inside, different⟩
    exact different ((StateSpace.eq_startState alone inside).trans atStart.symm)
  · intro stopped
    cases stopped

/-- However often its steps fail and are made again, a breadth-first run keeps
the invariant. -/
theorem attempts_spreads [Acceptor R A]
    (plain : ∀ graph, R.Reachable graph → R.isTransient graph = false)
    {closing current : Closing} {run now : Exploration R A}
    {trail : List (Closing × Except Failure StateId)}
    (attempts : Attempts closing run trail current now)
    (ready : Spreads [] (closing.prepare run).1 (closing.prepare run).2) :
    run.space.Evolves now.space ∧ Spreads (processed R trail) current now := by
  induction attempts with
  | prepared prepare =>
      cases prepare
      exact ⟨.refl, ready⟩
  | observed progress stopRequested _ inductionHypothesis =>
      obtain ⟨evolves, spreads⟩ := inductionHypothesis
      exact ⟨evolves, { spreads with }⟩
  | @attempted trail current later now _ result _ step inductionHypothesis =>
      obtain ⟨evolves, spreads⟩ := inductionHypothesis
      have advances := current.advances_doNext spreads.unclaimed
      have made : current.doNext now = (result, later, _) := step
      rw [made] at advances
      refine ⟨evolves.trans advances.space, ?_⟩
      rw [processed, List.filterMap_append, ← processed]
      cases next : current.next with
      | none =>
          have resting : Strategy.hasNext R current = false := congrArg Option.isSome next
          have still : current.doNext now = (.ok now.start, current, now) := by
            rw [Closing.doNext, next]
          cases still.symm.trans step
          simpa [resting] using spreads
      | some state =>
          have working : Strategy.hasNext R current = true := congrArg Option.isSome next
          have kept := spreads.doNext plain next
          rw [made] at kept
          rcases kept with ⟨failure, rfl, same⟩ | ⟨rfl, more⟩
          · simpa [Except.toOption] using same
          · simpa [working, Except.toOption] using more

end Closing

/-! ## Shortest paths -/

/-- **Breadth-first order is shortest-path order.** Let a breadth-first run begin
with nothing but the start state, over rules that make no graph transient, and
let its steps be made again as often as they fail. The states that it processes
get no shallower. At every moment the depth of a state is the length of a
shortest sequence of applications that leads from the start graph to its graph,
so its discovery path is a shortest path. -/
theorem breadth_first_finds_shortest_paths {A : Type} [Acceptor R A]
    (plain : ∀ graph, R.Reachable graph → R.isTransient graph = false)
    {closing : Closing} {waiting : List StateId} (breadth : closing.pool = .breadth waiting)
    {space : StateSpace R} (history : space.HasHistory) (alone : space.size = 1)
    {explorer : Explorer} {start : Option StateId} {acceptor : A} {begun : Exploration R A}
    (begins : explorer.Begins space start acceptor begun)
    {trail : List (Closing × Except Failure StateId)} {current : Closing} {now : Exploration R A}
    (attempts : Attempts closing begun trail current now) :
    ((processed R trail).map now.space.depth).Pairwise (· ≤ ·) ∧
      begun.space.Evolves now.space ∧
      ∀ moment, begun.space.Evolves moment → moment.Evolves now.space →
        ∀ state graph, moment.graph? state = some graph →
          R.Distance now.space.Permits graph (moment.depth state) ∧
          (R.Functional → R.Distance R.Applies graph (moment.depth state)) ∧
          moment.IsDiscoveryPath state (moment.traceTo state) ∧
          ∀ path : List StateId, path.head? = some StateSpace.startState →
            path.getLast? = some state → path.IsChain now.space.Leads →
            (moment.traceTo state).length ≤ path.length := by
  obtain ⟨sameSpace, _, _, contained, known⟩ := begins.spec
  have historyBegun := Exploration.history_of_begin history begins
  have aloneBegun : begun.space.size = 1 := by
    rw [sameSpace]
    exact alone
  obtain ⟨evolves, spreads⟩ := Closing.attempts_spreads plain attempts
    (Closing.prepare_spreads breadth historyBegun aloneBegun contained known)
  have historyNow := spreads.history
  refine ⟨?_, evolves, ?_⟩
  · have prefixed : (processed R trail).Sublist now.space.stateIds := by
      rw [← spreads.found]
      exact List.sublist_append_left _ _
    exact spreads.layered.pairwise_depth.sublist (prefixed.map _)
  · intro moment before after state graph stored
    have historyMoment := historyBegun.evolves before
    obtain ⟨info, present, _⟩ := StateSpace.graph?_eq_some.1 stored
    have inside := StateSpace.contains_of_info? present
    have storedNow := (after.continues historyMoment.wellFormed).kept.graph stored
    have sameDepth := StateSpace.Evolves.depth_kept historyMoment after inside
    have discovery := (historyMoment.walksBack_traceTo inside).isDiscoveryPath historyMoment inside
    have distance := spreads.layered.distance historyNow storedNow
    rw [discovery.length, ← sameDepth]
    refine ⟨distance, fun functional => ⟨?_, fun length derives => ?_⟩, discovery, ?_⟩
    · exact distance.1.mono fun _ _ permits => permits.1
    · exact distance.2 length
        (derives.mono fun _ _ applies => historyNow.permits_of_applies functional applies)
    · intro path starts ends chain
      obtain ⟨rest, rfl⟩ := List.head?_eq_some_iff.1 starts
      have down := spreads.layered.depth_le_of_path historyNow.wellFormed chain ends
      rw [historyNow.depth_startState] at down
      rw [List.length_cons]
      omega

/-- A chain of steps with a short cut. The first rule is interrupted once. -/
def shortcutSystem : LabelledSystem :=
  { nodes := #[{ name := "gate" }, { name := "yard" }, { name := "hall" }, { name := "tower" }]
    edges := #[⟨⟨0⟩, "walk", ⟨1⟩⟩, ⟨⟨1⟩, "walk", ⟨2⟩⟩, ⟨⟨0⟩, "jump", ⟨2⟩⟩, ⟨⟨2⟩, "walk", ⟨3⟩⟩]
    interruptions := ⟨[("walk", 1)]⟩ }

def shortcutSpace : StateSpace shortcutSystem.rules :=
  StateSpace.create shortcutSystem.rules shortcutSystem.interruptions

def shortcutRun : Exploration shortcutSystem.rules CounterExamples :=
  { space := shortcutSpace.drainEvents.2
    acceptor := {}
    config := {}
    start := StateSpace.startState
    known := #[true]
    progress := none
    stopRequested := false }

/-- Five attempts, of which the first one is interrupted. -/
def shortcutAttempts : List (Closing × Except Failure StateId) × Closing ×
    Exploration shortcutSystem.rules CounterExamples :=
  attempted (Closing.breadthFirst.prepare shortcutRun).1
    (Closing.breadthFirst.prepare shortcutRun).2 5

theorem shortcutAttempts_find_shortest_path :
    shortcutSpace.HasHistory ∧ shortcutSpace.size = 1 ∧
      shortcutAttempts.1.map (·.2) = [.error .interrupted, .ok ⟨0⟩, .ok ⟨1⟩, .ok ⟨2⟩, .ok ⟨3⟩] ∧
      shortcutAttempts.2.2.space.traceTo ⟨3⟩ =
        [(⟨0⟩, none), (⟨2⟩, some "jump"), (⟨3⟩, some "walk")] ∧
      shortcutSystem.rules.Distance shortcutSystem.rules.Applies (⟨3⟩ : NodeId) 2 := by
  have history : shortcutSpace.HasHistory := ⟨shortcutSystem.interruptions, .refl⟩
  have begins : Explorer.Begins {} shortcutSpace none {} shortcutRun := rfl
  have attempts : Attempts Closing.breadthFirst shortcutRun shortcutAttempts.1
      shortcutAttempts.2.1 shortcutAttempts.2.2 := attempts_attempted rfl 5
  have plain : ∀ graph, shortcutSystem.rules.Reachable graph →
      shortcutSystem.rules.isTransient graph = false := by
    intro graph _
    have solid : ∀ node ∈ shortcutSystem.nodes.toList, node.transient = false := by decide
    change (shortcutSystem.nodes[graph.index]?).any (·.transient) = false
    cases found : shortcutSystem.nodes[graph.index]? with
    | none => rfl
    | some node => exact solid node (Array.mem_toList_iff.2 (Array.mem_of_getElem? found))
  obtain ⟨_, evolves, shortest⟩ :=
    breadth_first_finds_shortest_paths plain rfl history rfl begins attempts
  have stored : shortcutAttempts.2.2.space.graph? ⟨3⟩ = some (⟨3⟩ : NodeId) := rfl
  have depth : shortcutAttempts.2.2.space.depth ⟨3⟩ = 2 := by decide +kernel
  obtain ⟨_, distance, _⟩ := shortest _ evolves .refl ⟨3⟩ _ stored
  exact ⟨history, rfl, by decide +kernel, by decide +kernel,
    depth ▸ distance shortcutSystem.functional⟩

end OnTheFly
