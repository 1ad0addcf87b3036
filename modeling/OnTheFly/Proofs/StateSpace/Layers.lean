import OnTheFly.Proofs.StateSpace.Discovery

/-!
Contract: depths as distances from the start graph.

Owns: sequences of applications and the length of a shortest one, operations on
one state only, and the invariant of a state space that is closed state by
state in order of creation: depths ascend with the handles, and the depth of a
state is the length of a shortest sequence of applications that leads to it.
-/

set_option autoImplicit false

namespace OnTheFly

/-! ## Sequences of applications -/

namespace RuleSystem

/-- Whether an application leads from one graph to another, whatever the engine
remembers. -/
def Applies (R : RuleSystem) (graph target : R.Graph) : Prop :=
  ∃ candidate ∈ R.matchesOf graph, ∃ engine outcome,
    (R.apply engine graph candidate).1 = .ok outcome ∧ R.canonicalize outcome = target

/-- The graphs to which so many steps lead from the start graph. -/
inductive Derives (R : RuleSystem) (Step : R.Graph → R.Graph → Prop) : Nat → R.Graph → Prop where
  | start : R.Derives Step 0 R.startGraph
  | step {length : Nat} {graph target : R.Graph} (before : R.Derives Step length graph)
      (step : Step graph target) : R.Derives Step (length + 1) target

/-- Whether a shortest sequence of steps from the start graph is so long. -/
def Distance (R : RuleSystem) (Step : R.Graph → R.Graph → Prop) (graph : R.Graph)
    (length : Nat) : Prop :=
  R.Derives Step length graph ∧ ∀ other, R.Derives Step other graph → length ≤ other

theorem Derives.mono {R : RuleSystem} {Step Other : R.Graph → R.Graph → Prop}
    (weaker : ∀ graph target, Step graph target → Other graph target) {length : Nat}
    {graph : R.Graph} (derives : R.Derives Step length graph) : R.Derives Other length graph := by
  induction derives with
  | start => exact .start
  | step _ step inductionHypothesis => exact inductionHypothesis.step (weaker _ _ step)

end RuleSystem

namespace StateSpace

variable {R : RuleSystem}

/-- Whether a step from one graph to another is an application, and one of those
that were made, if the first graph is that of a closed state. An engine that
answers one question in two ways could lead elsewhere from there. -/
def Permits (space : StateSpace R) (graph target : R.Graph) : Prop :=
  R.Applies graph target ∧ ∀ state, space.graph? state = some graph →
    space.isClosed state = true → ∃ next, space.Leads state next ∧ space.graph? next = some target

/-- The matches in the log were offered. -/
theorem Accounted.offered {log : List (Application R)} {space : StateSpace R}
    (accounted : Accounted log space) {entry : Application R} (member : entry ∈ log)
    {graph : R.Graph} (stored : space.graph? entry.state = some graph) :
    entry.candidate ∈ R.matchesOf graph := by
  obtain ⟨info, present, rfl⟩ := graph?_eq_some.1 stored
  have applied : entry ∈ applicationsAt log entry.state := List.mem_filter.2 ⟨member, by simp⟩
  cases pending : info.pending with
  | none =>
      rw [accounted.untried present pending] at applied
      cases applied
  | some candidates =>
      rw [(accounted.shared present pending).mem_iff]
      exact List.mem_append_right _ (List.mem_map_of_mem applied)

/-- Every transition stands for an application from its source to its target. -/
theorem HasHistory.permits_of_leads {space : StateSpace R} (history : space.HasHistory)
    {source target : StateId} (leads : space.Leads source target) :
    ∃ graph reached, space.graph? source = some graph ∧ space.graph? target = some reached ∧
      space.Permits graph reached := by
  obtain ⟨log, chronicle⟩ := history.chronicle
  have accounted := chronicle.accounted
  obtain ⟨handle, transition, member, rfl⟩ := leads
  obtain ⟨listed, found⟩ := mem_outgoing.1 member
  rw [accounted.out] at listed
  obtain ⟨entry, atSource, rfl⟩ := List.mem_map.1 listed
  obtain ⟨inLog, isSource⟩ := List.mem_filter.1 atSource
  obtain rfl : entry.state = source := by simpa using isSource
  obtain ⟨graph, outcome, engine, target, stored, succeeded, recorded, reached⟩ :=
    accounted.recorded inLog
  rw [found] at recorded
  cases recorded
  refine ⟨graph, _, stored, reached,
    ⟨_, accounted.offered inLog stored, engine, outcome, succeeded, rfl⟩, ?_⟩
  intro state storedAgain _
  obtain rfl := history.wellFormed.stored_once stored storedAgain
  exact ⟨_, ⟨entry.transition, _, member, rfl⟩, reached⟩

/-- If results do not depend on what the engine remembers, a step is just an
application. -/
theorem HasHistory.permits_of_applies {space : StateSpace R} (history : space.HasHistory)
    (functional : R.Functional) {graph target : R.Graph} (applies : R.Applies graph target) :
    space.Permits graph target := by
  refine ⟨applies, fun state stored closed => ?_⟩
  obtain ⟨log, chronicle⟩ := history.chronicle
  obtain ⟨candidate, offered, engine, outcome, succeeded, rfl⟩ := applies
  have all := chronicle.applied_of_isClosed stored closed
  obtain ⟨entry, member, rfl⟩ := List.mem_map.1 (all.mem_iff.1 offered)
  obtain ⟨inLog, atState⟩ := List.mem_filter.1 member
  obtain rfl : entry.state = state := by simpa using atState
  obtain ⟨_, result, _, next, storedAgain, ok, recorded, reached⟩ :=
    chronicle.accounted.recorded inLog
  rw [stored] at storedAgain
  cases storedAgain
  rw [functional succeeded ok]
  exact ⟨next, chronicle.accounted.leads inLog recorded, reached⟩

theorem HasHistory.depth_startState {space : StateSpace R} (history : space.HasHistory) :
    space.depth startState = 0 := by
  have contained := history.contains_startState
  cases incoming : space.incoming? startState with
  | none => exact (history.rooted.of_incoming?_none contained incoming).2
  | some entering =>
      obtain ⟨_, _, _, _, older, _⟩ := history.rooted.of_incoming?_some contained incoming
      exact absurd older (Nat.not_lt_zero _)

/-- The discovery path of a state is a sequence of applications. -/
theorem HasHistory.derives_depth {space : StateSpace R} (history : space.HasHistory)
    {state : StateId} {graph : R.Graph} (stored : space.graph? state = some graph) :
    R.Derives space.Permits (space.depth state) graph := by
  obtain ⟨log, chronicle⟩ := history.chronicle
  -- The source of the transition that created a state is older than the state.
  induction index : state.index using Nat.strongRecOn generalizing state graph with
  | ind position inductionHypothesis =>
      obtain ⟨info, present, _⟩ := graph?_eq_some.1 stored
      have contained := contains_of_info? present
      cases incoming : space.incoming? state with
      | none =>
          obtain ⟨rfl, atZero⟩ := history.rooted.of_incoming?_none contained incoming
          rw [history.graph?_startState] at stored
          cases stored
          rw [atZero]
          exact .start
      | some entering =>
          obtain ⟨handle, _, first, rfl, older, deeper⟩ :=
            history.rooted.of_incoming?_some contained incoming
          have listed := (chronicle.accounted.ends first.1).1
          obtain ⟨source, reached, storedSource, storedTarget, permits⟩ :=
            history.permits_of_leads ⟨handle, entering, mem_outgoing.2 ⟨listed, first.1⟩, rfl⟩
          rw [stored] at storedTarget
          cases storedTarget
          rw [deeper]
          exact (inductionHypothesis entering.source.index (index ▸ older) storedSource rfl).step
            permits

/-! ## Operations on one state -/

/-- One operation that works on no other state. -/
inductive GrowsAt (state : StateId) : StateSpace R → StateSpace R → Prop where
  | ask (space : StateSpace R) : GrowsAt state space (space.ensureMatches state)
  | apply (space : StateSpace R) (position : Nat) :
      GrowsAt state space (space.applyMatch state position).2
  | drain (space : StateSpace R) : GrowsAt state space space.drainEvents.2

theorem GrowsAt.grows {space later : StateSpace R} {state : StateId}
    (grows : space.GrowsAt state later) : space.Grows later := by
  cases grows with
  | ask => exact .ask space state
  | apply position => exact .apply space state position
  | drain => exact .drain space

/-- No operation changes the depth of a state. -/
theorem Grows.depth_kept {space later : StateSpace R} (wellFormed : space.WellFormed)
    (grows : space.Grows later) {state : StateId} (contained : space.contains state = true) :
    later.depth state = space.depth state := by
  cases grows with
  | ask other => exact depth_ensureMatches space other state
  | drain => rfl
  | remind engine => rfl
  | apply other position =>
      rcases wellFormed.applyMatch_cases other position with
        ⟨candidate, info, _, _, _, present, waiting, _, outcome, records⟩ | ⟨_, _, outcome⟩
      · rw [outcome]
        cases pending : info.pending with
        | none => simp [pending_of_info? present, pending] at waiting
        | some candidates =>
            have stillContained := (wellFormed.ensureMatches other).kept.contains contained
            exact (records.depth_kept present pending stillContained).trans
              (depth_ensureMatches space other state)
      · rw [outcome]
        exact depth_ensureMatches space other state

theorem Evolves.depth_kept {space later : StateSpace R} (history : space.HasHistory)
    (evolves : space.Evolves later) {state : StateId} (contained : space.contains state = true) :
    later.depth state = space.depth state := by
  induction evolves with
  | refl => rfl
  | tail before grows inductionHypothesis =>
      have continues := Evolves.continues history.wellFormed before
      exact (grows.depth_kept continues.wellFormed (continues.kept.contains contained)).trans
        inductionHypothesis

theorem eq_startState {space : StateSpace R} (alone : space.size = 1) {state : StateId}
    (contained : space.contains state = true) : state = startState := by
  rw [contains, decide_eq_true_eq] at contained
  exact congrArg StateId.mk (by unfold size at alone; omega : state.index = 0)

/-! ## Layers -/

/-- Whether the states before `front` are closed and all others are at most one
application away from it. -/
structure Layered (space : StateSpace R) (front : Nat) : Prop where
  closed {state : StateId} : state.index < front → space.contains state = true →
    space.isClosed state = true
  /-- Depths ascend with the handles. -/
  ascending {first second : StateId} : first.index ≤ second.index →
    space.contains second = true → space.depth first ≤ space.depth second
  near {state : StateId} : space.contains ⟨front⟩ = true → space.contains state = true →
    space.depth state ≤ space.depth ⟨front⟩ + 1
  short {handle : TransitionId} {transition : Transition} :
    space.transition? handle = some transition →
      space.depth transition.target ≤ space.depth transition.source + 1

/-- A state is as deep as before, or it is new and one deeper than the state of
the match. -/
theorem Records.depth_cases {space later : StateSpace R} {state : StateId} {position : Nat}
    {rule : String} {graph : R.Graph} {applied : Applied} {info : StateInfo R}
    {candidates : List R.Match}
    (records : space.Records state position rule graph applied later)
    (present : space.info? state = some info) (pending : info.pending = some candidates)
    {other : StateId} (contained : later.contains other = true) :
    (space.contains other = true ∧ later.depth other = space.depth other) ∨
      (other = ⟨space.states.size⟩ ∧ later.depth other = space.depth state + 1) := by
  have old (before : space.contains other = true) :=
    And.intro before (records.depth_kept present pending before)
  by_cases same : other = state
  · exact .inl (old (same ▸ contains_of_info? present))
  · obtain ⟨otherInfo, presentOther⟩ := contains_iff.1 contained
    rcases records.info?_cases same presentOther with before | ⟨fresh, rfl, rfl⟩
    · exact .inl (old (contains_of_info? before))
    · exact .inr ⟨(records.created fresh).1, depth_of_info? presentOther⟩

namespace Layered

variable {space later : StateSpace R} {front : Nat}

/-- A change that adds no state and no transition keeps the layers. -/
theorem of_same_depths (layered : space.Layered front) (continues : space.Continues later)
    (size : later.states.size = space.states.size) (depths : later.depth = space.depth)
    (transitions : later.transitions = space.transitions) : later.Layered front := by
  have sameContains : later.contains = space.contains := by
    funext state
    rw [contains, size, contains]
  have sameTransition : later.transition? = space.transition? := by
    funext handle
    rw [transition?, transitions, transition?]
  constructor
  · intro state before contained
    rw [sameContains] at contained
    exact (continues.kept.closed (layered.closed before contained)).1
  · rw [sameContains, depths]
    exact layered.ascending
  · rw [sameContains, depths]
    exact layered.near
  · rw [sameTransition, depths]
    exact layered.short

theorem ask (layered : space.Layered front) (wellFormed : space.WellFormed) (state : StateId) :
    (space.ensureMatches state).Layered front := by
  obtain ⟨transitions, size, _⟩ := ensureMatches_frame space state
  exact layered.of_same_depths (wellFormed.ensureMatches state) size
    (funext (depth_ensureMatches space state)) transitions

/-- An application at the front leads to a state at most one deeper. -/
theorem records (layered : space.Layered front) (history : space.HasHistory) {position : Nat}
    {rule : String} {graph : R.Graph} {applied : Applied} {info : StateInfo R}
    {candidates : List R.Match}
    (present : space.info? ⟨front⟩ = some info) (pending : info.pending = some candidates)
    (records : space.Records ⟨front⟩ position rule graph applied later) :
    later.Layered front := by
  have frontContained := contains_of_info? present
  have frontDepth : later.depth ⟨front⟩ = space.depth ⟨front⟩ :=
    records.depth_kept present pending frontContained
  have near : ∀ {state}, later.contains state = true →
      later.depth state ≤ later.depth ⟨front⟩ + 1 := by
    intro state contained
    rw [frontDepth]
    rcases records.depth_cases present pending contained with ⟨before, same⟩ | ⟨_, deeper⟩
    · rw [same]
      exact layered.near frontContained before
    · exact deeper.le
  constructor
  · intro state before _
    have contained : space.contains state = true := contains_of_le frontContained before.le
    obtain ⟨old, presentOld, isClosed⟩ := isClosed_iff.1 (layered.closed before contained)
    have different : state ≠ ⟨front⟩ := fun same => Nat.ne_of_lt before (congrArg _ same)
    exact isClosed_iff.2 ⟨old, records.others different presentOld, isClosed⟩
  · intro first second ordered contained
    rcases records.depth_cases present pending contained with ⟨before, same⟩ | ⟨isNew, deeper⟩
    · rw [same, records.depth_kept present pending (contains_of_le before ordered)]
      exact layered.ascending ordered before
    · rw [deeper, ← frontDepth]
      exact near (contains_of_le contained ordered)
  · intro state _ contained
    exact near contained
  · intro handle transition found
    obtain ⟨log, chronicle⟩ := history.chronicle
    rw [records.transition] at found
    split at found
    · cases found
      obtain ⟨_, presentTarget, _⟩ := graph?_eq_some.1 records.stored
      exact near (contains_of_info? presentTarget)
    · obtain ⟨_, sourceContained, targetContained⟩ := chronicle.accounted.ends found
      rw [records.depth_kept present pending sourceContained,
        records.depth_kept present pending targetContained]
      exact layered.short found

theorem growsAt (layered : space.Layered front) (history : space.HasHistory)
    (grows : space.GrowsAt ⟨front⟩ later) : later.Layered front := by
  have wellFormed := history.wellFormed
  cases grows with
  | ask => exact layered.ask wellFormed ⟨front⟩
  | drain =>
      exact layered.of_same_depths (wellFormed.continues_of_same_entries rfl rfl rfl) rfl rfl rfl
  | apply position =>
      have asked := wellFormed.ensureMatches ⟨front⟩
      rcases wellFormed.applyMatch_cases ⟨front⟩ position with
        ⟨candidate, info, _, _, _, present, waiting, _, outcome, records⟩ | ⟨_, _, outcome⟩
      · rw [outcome]
        cases pending : info.pending with
        | none => simp [pending_of_info? present, pending] at waiting
        | some candidates =>
            exact (layered.ask wellFormed ⟨front⟩).records
              (history.evolves (.single (.ask space ⟨front⟩))) present pending records
      · rw [outcome]
        exact (layered.ask wellFormed ⟨front⟩).of_same_depths
          (asked.wellFormed.continues_of_same_entries rfl rfl rfl) rfl rfl rfl

theorem evolvesAt (layered : space.Layered front) (history : space.HasHistory)
    (evolves : Relation.ReflTransGen (GrowsAt ⟨front⟩) space later) :
    later.Layered front ∧ later.HasHistory := by
  induction evolves with
  | refl => exact ⟨layered, history⟩
  | tail _ grows inductionHypothesis =>
      obtain ⟨layeredNow, historyNow⟩ := inductionHypothesis
      exact ⟨layeredNow.growsAt historyNow grows, historyNow.evolves (.single grows.grows)⟩

/-- Once the state at the front is closed, the next one is the front. -/
theorem next (layered : space.Layered front) (closed : space.isClosed ⟨front⟩ = true) :
    space.Layered (front + 1) where
  closed {state} before contained := by
    by_cases atFront : state.index = front
    · obtain rfl : state = ⟨front⟩ := congrArg StateId.mk atFront
      exact closed
    · exact layered.closed (by omega) contained
  ascending := layered.ascending
  near {state} nextContained contained := by
    have frontContained : space.contains ⟨front⟩ = true :=
      contains_of_le nextContained (Nat.le_succ front)
    have further := layered.ascending (Nat.le_succ front) nextContained
    exact (layered.near frontContained contained).trans (Nat.add_le_add_right further 1)
  short := layered.short

/-- A state space with one state has one layer. -/
theorem of_size_eq_one (history : space.HasHistory) (alone : space.size = 1) :
    space.Layered 0 := by
  have only {state : StateId} (contained : space.contains state = true) : state = startState :=
    eq_startState alone contained
  constructor
  · intro state before
    exact absurd before (Nat.not_lt_zero _)
  · intro first second ordered contained
    rw [only contained, only (contains_of_le contained ordered)]
  · intro state _ contained
    rw [only contained]
    exact Nat.le_succ _
  · intro handle transition found
    obtain ⟨log, chronicle⟩ := history.chronicle
    obtain ⟨_, sourceContained, targetContained⟩ := chronicle.accounted.ends found
    rw [only sourceContained, only targetContained]
    exact Nat.le_succ _

theorem pairwise_depth (layered : space.Layered front) :
    (space.stateIds.map space.depth).Pairwise (· ≤ ·) := by
  have ordered : space.stateIds.Pairwise fun first second => first.index < second.index :=
    List.Pairwise.map StateId.mk (fun _ _ less => less) List.pairwise_lt_range
  rw [List.pairwise_map]
  refine ordered.imp_of_mem ?_
  intro first second _ member less
  exact layered.ascending less.le (mem_stateIds.1 member)

theorem depth_le_of_leads (layered : space.Layered front) (wellFormed : space.WellFormed)
    {source target : StateId} (leads : space.Leads source target) :
    space.depth target ≤ space.depth source + 1 := by
  obtain ⟨handle, transition, member, rfl⟩ := leads
  obtain ⟨listed, found⟩ := mem_outgoing.1 member
  obtain ⟨_, foundAgain, atSource, _⟩ := wellFormed.out_valid listed
  rw [found] at foundAgain
  cases foundAgain
  exact atSource ▸ layered.short found

/-- A path is no shorter than the way down that it makes. -/
theorem depth_le_of_path (layered : space.Layered front) (wellFormed : space.WellFormed)
    {first last : StateId} {rest : List StateId}
    (path : (first :: rest).IsChain space.Leads) (ends : (first :: rest).getLast? = some last) :
    space.depth last ≤ space.depth first + rest.length := by
  induction rest generalizing first with
  | nil =>
      cases ends
      exact Nat.le_refl _
  | cons second others inductionHypothesis =>
      obtain ⟨leads, remaining⟩ := List.isChain_cons_cons.1 path
      rw [List.getLast?_cons_cons] at ends
      have down := inductionHypothesis remaining ends
      have one := layered.depth_le_of_leads wellFormed leads
      rw [List.length_cons]
      omega

/-- Every sequence of applications leads to a state that is no deeper than the
sequence is long, or beyond the front. -/
theorem derives_cases (layered : space.Layered front) (history : space.HasHistory) {length : Nat}
    {graph : R.Graph} (derives : R.Derives space.Permits length graph) :
    (∃ state, space.graph? state = some graph ∧ space.depth state ≤ length) ∨
      (space.contains ⟨front⟩ = true ∧ space.depth ⟨front⟩ < length) := by
  induction derives with
  | start =>
      exact .inl ⟨startState, history.graph?_startState, history.depth_startState.le⟩
  | @step length graph target _ permits inductionHypothesis =>
      rcases inductionHypothesis with ⟨state, stored, shallow⟩ | ⟨contained, beyond⟩
      · obtain ⟨info, present, _⟩ := graph?_eq_some.1 stored
        have inside := contains_of_info? present
        cases closed : space.isClosed state with
        | true =>
            obtain ⟨next, leads, reached⟩ := permits.2 state stored closed
            have short := layered.depth_le_of_leads history.wellFormed leads
            exact .inl ⟨next, reached, by omega⟩
        | false =>
            have behind : front ≤ state.index := by
              by_contra before
              rw [layered.closed (by omega) inside] at closed
              cases closed
            have shallower := layered.ascending behind inside
            exact .inr ⟨contains_of_le inside behind, by omega⟩
      · exact .inr ⟨contained, by omega⟩

/-- The depth of a state is the length of a shortest sequence of applications
that leads to it. -/
theorem distance (layered : space.Layered front) (history : space.HasHistory) {state : StateId}
    {graph : R.Graph} (stored : space.graph? state = some graph) :
    R.Distance space.Permits graph (space.depth state) := by
  refine ⟨history.derives_depth stored, fun length derives => ?_⟩
  rcases layered.derives_cases history derives with
    ⟨other, storedOther, shallow⟩ | ⟨contained, beyond⟩
  · rw [history.wellFormed.stored_once stored storedOther]
    exact shallow
  · obtain ⟨info, present, _⟩ := graph?_eq_some.1 stored
    exact (layered.near contained (contains_of_info? present)).trans beyond

end Layered

end StateSpace

end OnTheFly
