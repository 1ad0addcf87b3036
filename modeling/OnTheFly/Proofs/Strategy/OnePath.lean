import OnTheFly.Proofs.Exploration.Stages
import OnTheFly.Proofs.ModelCheck.Exactness
import OnTheFly.Proofs.Strategy.Any
import OnTheFly.Proofs.Strategy.Exhaustion

/-!
Contract: linear exploration follows one path of states that are new.

Owns: what a stage of linear exploration applies and adds, that the processed
states are distinct and each but the first is created by the stage before it,
where the path ends, and that it ends if the reachable graphs are finitely many.

Nothing here depends on how the match is chosen, nor on what the state space
held before: a state that was there cannot be gone to, so no state comes twice.
-/

set_option autoImplicit false

namespace OnTheFly

/-! ## What a stage applies -/

section Applying

variable {R : RuleSystem} {S A : Type}

/-- The pending matches of the state that a stage processes. -/
def Stage.offered (stage : Stage R S A) : List R.Match :=
  (stage.run.space.ensureMatches stage.state).pending stage.state

/-- A stage that applies the match at `position`, and no other one. -/
structure Stage.Applies (stage : Stage R S A) (position : Nat) (target : StateId) : Prop where
  application : ∃ candidate graph result, stage.offered[position]? = some candidate ∧
    stage.run.space.graph? stage.state = some graph ∧
    (R.apply stage.run.space.engine graph candidate).1 = .ok result ∧
    stage.later.space.engine = (R.apply stage.run.space.engine graph candidate).2 ∧
    stage.later.space.graph? target = some (R.canonicalize result) ∧
    stage.later.space.transitions =
      stage.run.space.transitions.push ⟨stage.state, target, R.ruleName candidate⟩
  others : stage.later.space.pending stage.state = stage.offered.eraseIdx position

/-- A stage whose one application has created `target`. -/
structure Stage.Creates (stage : Stage R S A) (position : Nat) (target : StateId) : Prop where
  applies : stage.Applies position target
  absent : stage.run.space.contains target = false
  size : stage.later.space.size = stage.run.space.size + 1
  /-- The new state remembers the new transition. -/
  incoming : (stage.later.space.info? target).bind (·.incoming) =
    some ⟨stage.run.space.transitions.size⟩

/-- A stage after which there is no new state to go to. -/
inductive Stage.Ends (stage : Stage R S A) (position : Nat) : Prop where
  | stuck (nothing : stage.offered = [])
      (engine : stage.later.space.engine = stage.run.space.engine)
      (transitions : stage.later.space.transitions = stage.run.space.transitions)
      (size : stage.later.space.size = stage.run.space.size)
  | returned {target : StateId} (applies : stage.Applies position target)
      (present : stage.run.space.contains target = true)
      (size : stage.later.space.size = stage.run.space.size)

variable [Acceptor R A]

/-- A match that is applied once the matches are counted is one that was pending
before. -/
theorem Exploration.applyMatch_counted {run later : Exploration R A} {state : StateId}
    {position : Nat} {applied : Applied} (history : run.space.HasHistory)
    (contained : run.space.contains state = true)
    (outcome : (run.pendingCount state).2.applyMatch state position = (.ok applied, later)) :
    ∃ candidate info result, (run.space.ensureMatches state).info? state = some info ∧
      ((run.space.ensureMatches state).pending state)[position]? = some candidate ∧
      (R.apply run.space.engine info.graph candidate).1 = .ok result ∧
      later.space.engine = (R.apply run.space.engine info.graph candidate).2 ∧
      (run.space.ensureMatches state).Records state position (R.ruleName candidate) result
        applied later.space := by
  have counts := advances_pendingCount run state
  have counted : (run.pendingCount state).2.space =
      (run.space.ensureMatches state).drainEvents.2 := by
    rw [pendingCount, dispatch_space]
    rfl
  have engine : (run.pendingCount state).2.space.engine = run.space.engine := by
    rw [counted]
    exact StateSpace.engine_ensureMatches run.space state
  have unchanged := (pendingCount_asked history contained).1.ensureMatches
  have ok : ((run.pendingCount state).2.applyMatch state position).1 = .ok applied :=
    congrArg Prod.fst outcome
  have space := applyMatch_space_of_ok ok
  rw [outcome] at space
  rcases (history.evolves counts.space).wellFormed.applyMatch_cases state position with
    ⟨candidate, info, result, same, next, present, found, applies, applied_, records⟩ |
    ⟨failure, _, refused⟩
  · have recorded := (applyMatch_ok_iff _ state position applied).1 ok
    have asksOnce := StateSpace.engine_applyMatch_eq present found
    rw [applied_] at recorded space asksOnce
    cases recorded
    rw [unchanged] at present found records
    rw [engine] at applies asksOnce
    rw [counted] at present found records
    rw [space]
    exact ⟨candidate, info, result, present, found, applies, asksOnce, { records with }⟩
  · have recorded := (applyMatch_ok_iff _ state position applied).1 ok
    rw [refused] at recorded
    cases recorded

/-- Such an application creates its target, or there is no new state to go to. -/
theorem Stage.applied_cases (stage : Stage R S A) {position : Nat} {applied : Applied}
    (history : stage.run.space.HasHistory)
    (contained : stage.run.space.contains stage.state = true)
    (outcome : (stage.run.pendingCount stage.state).2.applyMatch stage.state position =
      (.ok applied, stage.later)) :
    (applied.fresh = true → stage.Creates position applied.target) ∧
      (applied.fresh = false → stage.Ends position) := by
  obtain ⟨candidate, info, result, present, found, succeeds, engine, records⟩ :=
    Exploration.applyMatch_counted history contained outcome
  obtain ⟨sameTransitions, sameSize, _⟩ := stage.run.space.ensureMatches_frame stage.state
  have stored : stage.run.space.graph? stage.state = some info.graph := by
    rw [← StateSpace.graph?_ensureMatches _ stage.state]
    exact StateSpace.graph?_eq_some.2 ⟨info, present, rfl⟩
  have pushed := records.transitions_eq
  rw [sameTransitions] at pushed
  have applies : stage.Applies position applied.target := by
    refine ⟨⟨candidate, info.graph, result, found, stored, succeeds, engine, records.stored,
      pushed⟩, ?_⟩
    have waiting : stage.offered = info.pending.getD [] := StateSpace.pending_of_info? present
    cases pending : info.pending with
    | none =>
        rw [← Stage.offered, waiting, pending] at found
        cases found
    | some candidates =>
        rw [StateSpace.pending_of_info? (records.source present pending), waiting, pending]
        rfl
  constructor
  · intro fresh
    obtain ⟨target, size, created⟩ := records.created fresh
    rw [sameSize] at target size
    refine ⟨applies, ?_, size, ?_⟩
    · rw [target]
      exact decide_eq_false (Nat.lt_irrefl _)
    · rw [created, Option.bind_some, records.handle, sameTransitions]
  · intro known
    obtain ⟨size, storedBefore⟩ := records.known known
    rw [sameSize] at size
    rw [StateSpace.graph?_ensureMatches] at storedBefore
    obtain ⟨before, presentBefore, _⟩ := StateSpace.graph?_eq_some.1 storedBefore
    exact .returned applies (StateSpace.contains_of_info? presentBefore) size

end Applying

/-! ## Stages of linear exploration -/

section Stages

variable {R : RuleSystem} {G A : Type} [Chooser G]

/-- The position that linear exploration chooses in a stage: the first one, or
that of the chooser. -/
def Stage.choice (stage : Stage R (Linear G) A) : Nat :=
  (stage.before.position stage.offered.length).1

/-- What linear exploration does in a stage. -/
structure Stage.Walks (stage : Stage R (Linear G) A) : Prop where
  next : stage.before.next = some stage.state
  mode : stage.after.random = stage.before.random
  creates {target : StateId} : stage.after.next = some target →
    stage.Creates stage.choice target
  ends : stage.after.next = none → stage.Ends stage.choice

@[simp] theorem Linear.random_position (linear : Linear G) (count : Nat) :
    (linear.position count).2.random = linear.random := by
  unfold position
  split <;> rfl

variable [Acceptor R A]

theorem Stage.walks (stage : Stage R (Linear G) A) (history : stage.run.space.HasHistory)
    {state : StateId} (next : stage.before.next = some state)
    (contained : stage.run.space.contains state = true)
    (step : stage.before.doNext stage.run = (.ok stage.state, stage.after, stage.later)) :
    stage.Walks := by
  unfold Linear.doNext at step
  rw [next] at step
  simp only at step
  split at step
  · rename_i nothing
    obtain ⟨sameTransitions, sameSize, _⟩ := stage.run.space.ensureMatches_frame state
    have counted : (stage.run.pendingCount state).2.space =
        (stage.run.space.ensureMatches state).drainEvents.2 := Exploration.dispatch_space _
    simp only [Prod.mk.injEq, Except.ok.injEq] at step
    obtain ⟨rfl, after, later⟩ := step
    rw [later] at counted
    refine ⟨next, by rw [← after], by simp [← after], fun _ => ?_⟩
    refine .stuck (List.length_eq_zero_iff.1 nothing) ?_ ?_ ?_ <;> rw [counted]
    · exact stage.run.space.engine_ensureMatches stage.state
    · exact sameTransitions
    · exact sameSize
  · split at step
    · cases step
    · rename_i applied later outcome
      simp only [Prod.mk.injEq, Except.ok.injEq] at step
      obtain ⟨rfl, after, rfl⟩ := step
      obtain ⟨creates, ends⟩ := stage.applied_cases history contained outcome
      refine ⟨next, by simp [← after], ?_, ?_⟩
      · intro target found
        cases fresh : applied.fresh <;> simp [← after, fresh] at found
        exact found ▸ creates fresh
      · intro found
        cases fresh : applied.fresh <;> simp [← after, fresh] at found
        exact ends fresh

/-! ## The path -/

/-- The `stages` of linear exploration from `start`, with the state that would
come `next`. -/
structure FollowsOnePath (linear : Linear G) (start : StateId)
    (stages : List (Stage R (Linear G) A)) (next : Option StateId) : Prop where
  /-- All choices are made in one way. -/
  mode {stage : Stage R (Linear G) A} : stage ∈ stages → stage.before.random = linear.random
  first : (stages.map (·.state) ++ next.toList).head? = some start
  distinct : (stages.map (·.state) ++ next.toList).Nodup
  /-- A stage that is followed by another one has created the state of that. -/
  onward {earlier later : List (Stage R (Linear G) A)} {stage following : Stage R (Linear G) A} :
    stages = earlier ++ stage :: following :: later →
      stage.Creates stage.choice following.state
  created {earlier : List (Stage R (Linear G) A)} {stage : Stage R (Linear G) A}
    {target : StateId} : stages = earlier ++ [stage] → next = some target →
      stage.Creates stage.choice target
  ended {earlier : List (Stage R (Linear G) A)} {stage : Stage R (Linear G) A} :
    stages = earlier ++ [stage] → next = none → stage.Ends stage.choice

omit [Acceptor R A] in
theorem FollowsOnePath.concat {linear : Linear G} {start : StateId}
    {stages : List (Stage R (Linear G) A)} {stage : Stage R (Linear G) A}
    (path : FollowsOnePath linear start stages (some stage.state)) (walks : stage.Walks)
    (mode : stage.before.random = linear.random)
    (fresh : ∀ target, stage.after.next = some target →
      target ∉ stages.map (·.state) ++ [stage.state]) :
    FollowsOnePath linear start (stages ++ [stage]) stage.after.next where
  mode member := by
    rcases List.mem_append.1 member with before | isLast
    · exact path.mode before
    · rw [List.mem_singleton.1 isLast]
      exact mode
  first := by
    have first := path.first
    rw [Option.toList_some] at first
    rw [List.map_append, List.map_singleton, List.head?_append, first]
    rfl
  distinct := by
    have distinct := path.distinct
    rw [Option.toList_some] at distinct
    rw [List.map_append, List.map_singleton]
    cases next : stage.after.next with
    | none => rwa [Option.toList_none, List.append_nil]
    | some target =>
        rw [Option.toList_some, ← List.concat_eq_append]
        exact distinct.concat (fresh target next)
  onward {earlier later source following} same := by
    rcases split_concat same with ⟨nothing, _⟩ | ⟨between, rest, rfl⟩
    · cases nothing
    · cases between with
      | nil =>
          cases rest
          exact path.created rfl rfl
      | cons next others =>
          cases rest
          exact path.onward rfl
  created {earlier source target} same next := by
    cases (List.append_inj' same rfl).2
    exact walks.creates next
  ended {earlier source} same next := by
    cases (List.append_inj' same rfl).2
    exact walks.ends next

/-- What the stages of a run leave behind. -/
structure Walking (linear : Linear G) (begun : Exploration R A)
    (stages : List (Stage R (Linear G) A)) (current : Linear G) (now : Exploration R A) :
    Prop where
  advances : begun.Advances now
  mode : current.random = linear.random
  path : FollowsOnePath linear begun.start stages current.next
  inside {state : StateId} : state ∈ stages.map (·.state) ++ current.next.toList →
    now.space.contains state = true

variable {linear current : Linear G} {begun now : Exploration R A}
  {stages : List (Stage R (Linear G) A)}

theorem Walking.step {after : Linear G} {later : Exploration R A} {state : StateId}
    (walking : Walking linear begun stages current now) (history : begun.space.HasHistory)
    (more : current.next.isSome = true) (step : current.doNext now = (.ok state, after, later)) :
    Walking linear begun (stages ++ [⟨current, now, state, after, later⟩]) after later := by
  have historyNow := history.evolves walking.advances.space
  have advances := current.advances_doNext now
  rw [step] at advances
  obtain ⟨source, next⟩ := Option.isSome_iff_exists.1 more
  have walks := Stage.walks ⟨current, now, state, after, later⟩ historyNow next
    (walking.inside (by simp [next])) step
  have next : current.next = some state := walks.next
  have path := walking.path
  have inside := @walking.inside
  rw [next] at path inside
  have kept := (advances.space.continues historyNow.wellFormed).kept
  refine ⟨walking.advances.trans advances, walks.mode.trans walking.mode,
    path.concat walks walking.mode fun target found member => ?_, fun {other} member => ?_⟩
  · -- What is new was not there, and everything processed was.
    have absent := (walks.creates found).absent
    rw [inside member] at absent
    cases absent
  · rw [List.map_append, List.map_singleton] at member
    rcases List.mem_append.1 member with before | isNext
    · exact kept.contains (inside before)
    · obtain ⟨_, _, _, _, _, _, _, stored, _⟩ :=
        (walks.creates (Option.mem_toList.1 isNext)).applies.application
      obtain ⟨info, present, _⟩ := StateSpace.graph?_eq_some.1 stored
      exact StateSpace.contains_of_info? present

theorem Staged.walking (history : begun.space.HasHistory)
    (contained : begun.space.contains begun.start = true)
    (staged : Staged linear begun stages current now) :
    Walking linear begun stages current now := by
  induction staged with
  | prepared prepare =>
      cases prepare
      refine ⟨.refl begun, rfl, ⟨by simp, rfl, List.nodup_singleton _, by simp, by simp, by simp⟩,
        fun {state} member => ?_⟩
      rw [List.mem_singleton.1 member]
      exact contained
  | stepped _ more step inductionHypothesis => exact inductionHypothesis.step history more step
  | observed change _ inductionHypothesis =>
      exact { inductionHypothesis with
        advances := inductionHypothesis.advances.trans (Exploration.advances_track _ change) }

omit [Acceptor R A] in
/-- A path is at most as long as there are reachable graphs. -/
theorem Walking.length_le (walking : Walking linear begun stages current now)
    (history : begun.space.HasHistory) (finite : { graph | R.Reachable graph }.Finite) :
    stages.length ≤ { graph | R.Reachable graph }.ncard := by
  have inside : stages.map (·.state) ⊆ now.space.stateIds := fun state member =>
    StateSpace.mem_stateIds.2 (walking.inside (List.mem_append_left _ member))
  calc stages.length = (stages.map (·.state)).length := (List.length_map _).symm
    _ ≤ now.space.stateIds.length :=
        ((List.nodup_append.1 walking.path.distinct).1.subperm inside).length_le
    _ = now.space.size := now.space.length_stateIds
    _ ≤ _ := (history.evolves walking.advances.space).size_le finite

theorem Linear.doNext_succeeds {run : Exploration R A} (history : run.space.HasHistory)
    (succeeds : R.Succeeds run.space.engine) : ∃ state, (linear.doNext run).1 = .ok state := by
  unfold Linear.doNext
  cases linear.next with
  | none => exact ⟨_, rfl⟩
  | some state =>
      simp only
      split
      · exact ⟨_, rfl⟩
      · rename_i some_
        have counted := Exploration.advances_pendingCount run state
        obtain ⟨applied, ok⟩ := (history.evolves counted.space).wellFormed.applyMatch_succeeds
          (succeeds.after counted.engine) (linear.position_inRange history some_)
        have runOk := (Exploration.applyMatch_ok_iff _ _ _ _).2 ok
        split <;> rename_i outcome <;> rw [outcome] at runOk
        · cases runOk
        · exact ⟨_, rfl⟩

end Stages

/-! ## Plays -/

section Plays

variable {R : RuleSystem} {G A : Type} [Chooser G] [Acceptor R A] {explorer : Explorer}
  {space : StateSpace R} {start : Option StateId} {acceptor : A} {begun now : Exploration R A}
  {linear current : Linear G} {trail : List (Linear G × StateId)}

theorem Explorer.Begins.walking (begins : explorer.Begins space start acceptor begun)
    (history : space.HasHistory) (made : Made linear begun trail current now) :
    ∃ stages, Staged linear begun stages current now ∧
      stages.map (fun stage => (stage.before, stage.state)) = trail ∧
      Walking linear begun stages current now := by
  obtain ⟨_, _, _, contained, _⟩ := begins.spec
  obtain ⟨stages, staged, same⟩ := made.staged
  exact ⟨stages, staged, same,
    staged.walking (Exploration.history_of_begin history begins) contained⟩

theorem Explorer.Begins.length_le_of_linear (begins : explorer.Begins space start acceptor begun)
    (history : space.HasHistory) (finite : { graph | R.Reachable graph }.Finite)
    (made : Made linear begun trail current now) :
    trail.length ≤ { graph | R.Reachable graph }.ncard := by
  obtain ⟨stages, _, rfl, walking⟩ := begins.walking history made
  rw [List.length_map]
  exact walking.length_le (Exploration.history_of_begin history begins) finite

/-- If the reachable graphs are finitely many and all matches can be applied, the
path comes to its end. -/
theorem Explorer.Begins.linear_play_ends (begins : explorer.Begins space start acceptor begun)
    (history : space.HasHistory) (finite : { graph | R.Reachable graph }.Finite)
    (succeeds : R.Succeeds space.engine) {allowance : Nat}
    (enough : { graph | R.Reachable graph }.ncard < allowance) :
    ∃ outcome, (explorer.play allowance linear space start acceptor).outcome = some (.ok outcome) ∧
      outcome.steps ≤ { graph | R.Reachable graph }.ncard ∧
      (Acceptor.done (R := R)
          (explorer.play allowance linear space start acceptor).acceptor = false →
        (explorer.config.heedsStop &&
          (explorer.play allowance linear space start acceptor).explorer.stopRequested) =
            false →
        outcome.termination = .exhausted) := by
  obtain ⟨atSpace, _, config, _, _⟩ := begins.spec
  have historyBegun := Exploration.history_of_begin history begins
  have succeedsBegun : R.Succeeds begun.space.engine := by
    rw [atSpace]
    exact succeeds
  have advances : ∀ {trail last final}, Made linear begun trail last final →
      begun.Advances final := by
    intro trail last final made
    obtain ⟨_, _, _, walking⟩ := begins.walking history made
    exact walking.advances
  have few : ∀ trail last final, Made linear begun trail last final → trail.length < allowance :=
    fun _ _ _ made => Nat.lt_of_le_of_lt (begins.length_le_of_linear history finite made) enough
  obtain ⟨outcome, trail, final, ended, made, _, _, steps, ends⟩ :=
    begins.play_ends allowance linear rfl few fun _ _ _ made _ =>
      Linear.doNext_succeeds (historyBegun.evolves (advances made).space)
        (succeedsBegun.after (advances made).engine)
  refine ⟨outcome, ended, ?_, fun notDone notStopped => ends notDone ?_⟩
  · rw [steps]
    exact begins.length_le_of_linear history finite made
  · rw [(advances made).config, config]
    exact notStopped

/-- **Linear exploration follows one path.** Its states are distinct, and each is
created by the one application of the stage before. It is exhausted at a state
that has nothing pending or from where it has come back to a state that was
there, and it has an outcome if the reachable graphs are finitely many. -/
theorem linear_play_follows_one_path {space : StateSpace R} (history : space.HasHistory)
    (explorer : Explorer) (start : Option StateId) (acceptor : A) (linear : Linear G) :
    (∀ begun trail current now, explorer.Begins space start acceptor begun →
      Made linear begun trail current now →
      ∃ stages, Staged linear begun stages current now ∧
        stages.map (fun stage => (stage.before, stage.state)) = trail ∧
        FollowsOnePath linear (start.getD StateSpace.startState) stages current.next) ∧
      (∀ allowance outcome,
        (explorer.play allowance linear space start acceptor).outcome = some (.ok outcome) →
        outcome.termination = .exhausted →
        ∃ begun stages last final, explorer.Begins space start acceptor begun ∧
          Staged linear begun (stages ++ [last])
            (explorer.play allowance linear space start acceptor).strategy final ∧
          final.space = (explorer.play allowance linear space start acceptor).space ∧
          outcome.steps = stages.length + 1 ∧
          FollowsOnePath linear (start.getD StateSpace.startState) (stages ++ [last]) none ∧
          last.Ends last.choice) ∧
      ({ graph | R.Reachable graph }.Finite → ∀ allowance,
        { graph | R.Reachable graph }.ncard < allowance →
        (∃ result,
          (explorer.play allowance linear space start acceptor).outcome = some result) ∧
        (space.contains (start.getD StateSpace.startState) = true → R.Succeeds space.engine →
          ∃ outcome,
            (explorer.play allowance linear space start acceptor).outcome = some (.ok outcome) ∧
            outcome.steps ≤ { graph | R.Reachable graph }.ncard ∧
            (Acceptor.done (R := R)
                (explorer.play allowance linear space start acceptor).acceptor = false →
              (explorer.config.heedsStop &&
                (explorer.play allowance linear space start acceptor).explorer.stopRequested) =
                  false →
              outcome.termination = .exhausted))) := by
  have atStart : ∀ {begun}, explorer.Begins space start acceptor begun →
      begun.start = start.getD StateSpace.startState := fun begins => begins.spec.2.1
  refine ⟨?_, ?_, ?_⟩
  · intro begun trail current now begins made
    obtain ⟨stages, staged, same, walking⟩ := begins.walking history made
    exact ⟨stages, staged, same, atStart begins ▸ walking.path⟩
  · intro allowance outcome ended exhausted
    obtain ⟨begun, trail, final, begins, made, sameSpace, length, finished⟩ :=
      Explorer.play_made ended exhausted
    obtain ⟨all, staged, same, walking⟩ := begins.walking history made
    have path := walking.path
    have stopped : (explorer.play allowance linear space start acceptor).strategy.next = none :=
      Option.not_isSome_iff_eq_none.1 (Bool.eq_false_iff.1 finished)
    rw [stopped, atStart begins] at path
    rcases List.eq_nil_or_concat all with rfl | ⟨stages, last, rfl⟩
    · -- Without a stage the start state would still be next.
      have first := path.first
      cases first
    · rw [List.concat_eq_append] at staged path same
      refine ⟨begun, stages, last, final, begins, staged, sameSpace, ?_, path,
        path.ended rfl rfl⟩
      rw [← length, ← same, List.length_map, List.length_append, List.length_singleton]
  · intro finite allowance enough
    refine ⟨Explorer.play_answers fun _ _ _ _ begins made =>
      Nat.lt_of_le_of_lt (begins.length_le_of_linear history finite made) enough, ?_⟩
    intro contained succeeds
    obtain ⟨begun, begins⟩ := explorer.begins_of_contains acceptor contained
    exact begins.linear_play_ends history finite succeeds enough

/-- A camp from which one way leads to a lake, and others around it. -/
def climbSystem : LabelledSystem :=
  { nodes := #[{ name := "camp" }, { name := "lake" }, { name := "ridge" }, { name := "hut" }]
    edges := #[⟨⟨0⟩, "descend", ⟨1⟩⟩, ⟨⟨0⟩, "climb", ⟨2⟩⟩, ⟨⟨2⟩, "slip", ⟨1⟩⟩,
      ⟨⟨2⟩, "follow", ⟨3⟩⟩, ⟨⟨3⟩, "descend", ⟨1⟩⟩] }

/-- The way to the lake has been taken before. -/
def climbBegun : StateSpace climbSystem.rules :=
  ((StateSpace.create climbSystem.rules {}).applyMatch ⟨0⟩ 0).2

def climbRun : Exploration climbSystem.rules CounterExamples :=
  { space := climbBegun.drainEvents.2
    acceptor := {}
    config := {}
    start := StateSpace.startState
    known := #[true, true]
    progress := none
    stopRequested := false }

/-- So many steps along the last matches. -/
def climbSteps (count : Nat) : List (Linear EndChoice × Except Failure StateId) ×
    Linear EndChoice × Exploration climbSystem.rules CounterExamples :=
  attempted (Linear.prepare (.create true) climbRun) climbRun count

/-- The walk takes the last match of the ridge, and ends where it meets the lake. -/
theorem climb_follows_one_path :
    climbBegun.HasHistory ∧ { graph | climbSystem.rules.Reachable graph }.Finite ∧
      { graph | climbSystem.rules.Reachable graph }.ncard < 10 ∧
      climbSystem.rules.Succeeds climbBegun.engine ∧
      (({} : Explorer).play 10 (.create true : Linear EndChoice) climbBegun none
        ({} : CounterExamples)).outcome =
          some (.ok ⟨.exhausted, 3, 4, "no counterexample found"⟩) ∧
      (climbSteps 3).2.2.space.transitions = #[⟨⟨0⟩, ⟨1⟩, "descend"⟩, ⟨⟨0⟩, ⟨2⟩, "climb"⟩,
        ⟨⟨2⟩, ⟨3⟩, "follow"⟩, ⟨⟨3⟩, ⟨1⟩, "descend"⟩] ∧
      ∃ stages, Staged (.create true) climbRun stages (climbSteps 3).2.1 (climbSteps 3).2.2 ∧
        stages.map (·.state) = [⟨0⟩, ⟨2⟩, ⟨3⟩] ∧
        FollowsOnePath (.create true) StateSpace.startState stages none := by
  have history : climbBegun.HasHistory := ⟨{}, .single (.apply _ ⟨0⟩ 0)⟩
  have begins : Explorer.Begins {} climbBegun none {} climbRun := rfl
  have order : processed climbSystem.rules (climbSteps 3).1 = [⟨0⟩, ⟨2⟩, ⟨3⟩] := by decide +kernel
  have ended : (climbSteps 3).2.1.next = none := by decide +kernel
  obtain ⟨trail, made, states⟩ : ∃ trail,
      Made (.create true) climbRun trail (climbSteps 3).2.1 (climbSteps 3).2.2 ∧
        trail.map (·.2) = processed climbSystem.rules (climbSteps 3).1 :=
    made_attempted rfl 3 (congrArg List.length order)
  obtain ⟨follows, _⟩ := linear_play_follows_one_path history {} none ({} : CounterExamples)
    (.create true : Linear EndChoice)
  obtain ⟨stages, staged, same, path⟩ := follows climbRun _ _ _ begins made
  rw [ended] at path
  refine ⟨history, LabelledSystem.finite_reachable,
    Nat.lt_of_le_of_lt LabelledSystem.ncard_reachable_le (by decide),
    LabelledSystem.succeeds_of_calm fun rule => by rfl, by decide +kernel, by decide +kernel,
    stages, staged, (states_of_trail same).trans (states.trans order), path⟩

end Plays

end OnTheFly
