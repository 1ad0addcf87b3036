import OnTheFly.Proofs.RuleSystem.Labelled
import OnTheFly.Proofs.StateSpace.Chronicle

/-!
Contract: the path on which a state was discovered.

Owns: where each state comes from, that no operation changes it, the walk back
from a state to the start state, and that the discovery path of a state is this
walk: a path of transitions over ever older states, as long as the depth says.
-/

set_option autoImplicit false

namespace OnTheFly

variable {R : RuleSystem}

@[simp] theorem StateInfo.depth_asked (info : StateInfo R) : info.asked.depth = info.depth := by
  unfold asked
  split <;> rfl

@[simp] theorem StateInfo.incoming_asked (info : StateInfo R) :
    info.asked.incoming = info.incoming := by
  unfold asked
  split <;> rfl

namespace StateSpace

/-- Every transition is listed at its source, and both its ends are states. -/
theorem Accounted.ends {log : List (Application R)} {space : StateSpace R}
    (accounted : Accounted log space) {handle : TransitionId} {transition : Transition}
    (found : space.transition? handle = some transition) :
    handle ∈ space.out transition.source ∧ space.contains transition.source = true ∧
      space.contains transition.target = true := by
  have inside : handle.index < space.transitions.size := (Array.getElem?_eq_some_iff.1 found).1
  have logged : handle ∈ log.map (·.transition) := by
    rw [accounted.handles]
    exact List.mem_map.2 ⟨handle.index, List.mem_range.2 inside, rfl⟩
  obtain ⟨entry, member, rfl⟩ := List.mem_map.1 logged
  obtain ⟨_, _, _, target, stored, _, recorded, reached⟩ := accounted.recorded member
  rw [found] at recorded
  cases recorded
  obtain ⟨_, presentSource, _⟩ := graph?_eq_some.1 stored
  obtain ⟨_, presentTarget, _⟩ := graph?_eq_some.1 reached
  refine ⟨?_, contains_of_info? presentSource, contains_of_info? presentTarget⟩
  rw [accounted.out]
  exact List.mem_map_of_mem (List.mem_filter.2 ⟨member, by simp⟩)

/-! ## Where a state comes from -/

/-- Whether no older transition leads to the target of this one. -/
def FirstInto (space : StateSpace R) (handle : TransitionId) (transition : Transition) : Prop :=
  space.transition? handle = some transition ∧
    ∀ other rival, space.transition? other = some rival → rival.target = transition.target →
      handle.index ≤ other.index

/-- Where a state comes from, by its entry. The start state comes from nowhere,
any other state from an older one, by the first transition that led to it. -/
inductive Originates (space : StateSpace R) : StateId → StateInfo R → Prop where
  | start {info : StateInfo R} (incoming : info.incoming = none) (depth : info.depth = 0) :
      Originates space startState info
  | entered {info : StateInfo R} {handle : TransitionId} {transition : Transition}
      (incoming : info.incoming = some handle) (first : space.FirstInto handle transition)
      (older : transition.source.index < transition.target.index)
      (depth : info.depth = space.depth transition.source + 1) :
      Originates space transition.target info

/-- Whether every state comes from somewhere. -/
def Rooted (space : StateSpace R) : Prop :=
  ∀ state info, space.info? state = some info → space.Originates state info

theorem depth_of_info? {space : StateSpace R} {state : StateId} {info : StateInfo R}
    (present : space.info? state = some info) : space.depth state = info.depth := by
  simp [depth, present]

theorem contains_of_le {space : StateSpace R} {state other : StateId}
    (contained : space.contains state = true) (ordered : other.index ≤ state.index) :
    space.contains other = true := by
  simp only [contains, decide_eq_true_eq] at contained ⊢
  omega

/-- A change that keeps transitions and depths keeps where a state comes from. -/
theorem Originates.kept {space later : StateSpace R} {state : StateId} {info after : StateInfo R}
    (originates : space.Originates state info) (contained : space.contains state = true)
    (incoming : after.incoming = info.incoming) (depth : after.depth = info.depth)
    (depths : ∀ other, space.contains other = true → later.depth other = space.depth other)
    (transitions : ∀ handle transition, space.transition? handle = some transition →
      later.transition? handle = some transition)
    (added : ∀ handle transition, later.transition? handle = some transition →
      space.transition? handle = some transition ∨ space.transitions.size ≤ handle.index) :
    later.Originates state after := by
  cases originates with
  | start noIncoming atZero => exact .start (incoming.trans noIncoming) (depth.trans atZero)
  | @entered _ handle transition entering first older deeper =>
      obtain ⟨found, earliest⟩ := first
      have inside : handle.index < space.transitions.size := (Array.getElem?_eq_some_iff.1 found).1
      refine .entered (incoming.trans entering) ⟨transitions _ _ found, ?_⟩ older ?_
      · intro other rival foundOther sameTarget
        rcases added other rival foundOther with before | new
        · exact earliest other rival before sameTarget
        · omega
      · rw [depth, deeper, depths _ (contains_of_le contained older.le)]

/-- Where a state comes from does not depend on the engine or on the events. -/
theorem Rooted.of_same_entries {space later : StateSpace R} (rooted : space.Rooted)
    (states : later.states = space.states) (transitions : later.transitions = space.transitions) :
    later.Rooted := by
  intro state info present
  have sameInfo : later.info? = space.info? := by
    funext other
    simp [info?, states]
  have sameTransition : later.transition? = space.transition? := by
    funext handle
    simp [transition?, transitions]
  rw [sameInfo] at present
  refine (rooted state info present).kept (contains_of_info? present) rfl rfl ?_ ?_ ?_
  · intro other _
    rw [depth, sameInfo, depth]
  · intro handle transition found
    rw [sameTransition, found]
  · intro handle transition found
    exact .inl (sameTransition ▸ found)

theorem rooted_create (engine : R.Engine) : (create R engine).Rooted := by
  intro state info present
  rw [create, info?_addState] at present
  split at present
  · rename_i atStart
    cases present
    subst atStart
    exact .start rfl rfl
  · simp [info?] at present

theorem depth_ensureMatches (space : StateSpace R) (state other : StateId) :
    (space.ensureMatches state).depth other = space.depth other := by
  rw [depth, info?_ensureMatches, depth]
  split
  · cases space.info? other <;> simp
  · rfl

theorem Rooted.ensureMatches {space : StateSpace R} (rooted : space.Rooted) (state : StateId) :
    (space.ensureMatches state).Rooted := by
  intro other info present
  have kept {before : StateInfo R} (presentBefore : space.info? other = some before)
      (incoming : info.incoming = before.incoming) (depth : info.depth = before.depth) :
      (space.ensureMatches state).Originates other info := by
    refine (rooted other before presentBefore).kept (contains_of_info? presentBefore) incoming depth
      (fun _ _ => depth_ensureMatches space state _) ?_ ?_
    · intro handle transition found
      rw [transition?_ensureMatches, found]
    · intro handle transition found
      rw [transition?_ensureMatches] at found
      exact .inl found
  rw [info?_ensureMatches] at present
  split at present
  · obtain ⟨before, presentBefore, rfl⟩ := Option.map_eq_some_iff.1 present
    exact kept presentBefore before.incoming_asked before.depth_asked
  · exact kept present rfl rfl

/-- A recorded application changes the depth of no state. -/
theorem Records.depth_kept {space later : StateSpace R} {state : StateId} {position : Nat}
    {rule : String} {graph : R.Graph} {applied : Applied} {info : StateInfo R}
    {candidates : List R.Match}
    (records : space.Records state position rule graph applied later)
    (present : space.info? state = some info) (pending : info.pending = some candidates)
    {other : StateId} (contained : space.contains other = true) :
    later.depth other = space.depth other := by
  by_cases same : other = state
  · subst same
    rw [depth_of_info? (records.source present pending), depth_of_info? present]
  · obtain ⟨before, presentBefore⟩ := contains_iff.1 contained
    rw [depth_of_info? (records.others same presentBefore), depth_of_info? presentBefore]

/-- The target that an application creates comes from the state of the match. -/
theorem Rooted.records {space later : StateSpace R} (rooted : space.Rooted)
    (history : space.HasHistory) {state : StateId} {position : Nat} {rule : String}
    {graph : R.Graph} {applied : Applied} {info : StateInfo R} {candidates : List R.Match}
    (present : space.info? state = some info) (pending : info.pending = some candidates)
    (records : space.Records state position rule graph applied later) : later.Rooted := by
  have added : ∀ handle transition, later.transition? handle = some transition →
      space.transition? handle = some transition ∨ space.transitions.size ≤ handle.index := by
    intro handle transition found
    rw [records.transition] at found
    split at found
    · rename_i isNew
      rw [isNew, records.handle]
      exact .inr (Nat.le_refl _)
    · exact .inl found
  have kept {other : StateId} {before after : StateInfo R}
      (presentBefore : space.info? other = some before)
      (incoming : after.incoming = before.incoming) (depth : after.depth = before.depth) :
      later.Originates other after :=
    (rooted other before presentBefore).kept (contains_of_info? presentBefore) incoming depth
      (fun _ contained => records.depth_kept present pending contained)
      (fun _ _ found => records.transition?_kept found) added
  intro other otherInfo presentOther
  by_cases same : other = state
  · subst same
    rw [records.source present pending] at presentOther
    cases presentOther
    exact kept present rfl rfl
  · rcases records.info?_cases same presentOther with before | ⟨fresh, rfl, rfl⟩
    · exact kept before rfl rfl
    · have isNew := (records.created fresh).1
      have inside : state.index < space.states.size := by
        simpa [contains] using contains_of_info? present
      refine @Originates.entered _ _ _ _ ⟨state, applied.target, rule⟩ rfl
        ⟨records.transition?_added, ?_⟩ ?_ ?_
      · intro handle rival found sameTarget
        rcases added handle rival found with before | new
        · -- No transition of before leads to a state that was not there.
          obtain ⟨log, chronicle⟩ := history.chronicle
          have contained := (chronicle.accounted.ends before).2.2
          rw [sameTarget, isNew] at contained
          simp [contains] at contained
        · rw [records.handle]
          exact new
      · rw [isNew]
        exact inside
      · rw [records.depth_kept present pending (contains_of_info? present)]

theorem Grows.rooted {space later : StateSpace R} (history : space.HasHistory)
    (rooted : space.Rooted) (grows : space.Grows later) : later.Rooted := by
  cases grows with
  | ask state => exact rooted.ensureMatches state
  | drain => exact rooted.of_same_entries rfl rfl
  | remind engine => exact rooted.of_same_entries rfl rfl
  | apply state position =>
      rcases history.wellFormed.applyMatch_cases state position with
        ⟨candidate, info, _, _, _, present, waiting, _, outcome, records⟩ | ⟨_, _, outcome⟩
      · rw [outcome]
        cases pending : info.pending with
        | none => simp [pending_of_info? present, pending] at waiting
        | some candidates =>
            exact (rooted.ensureMatches state).records
              (history.evolves (.single (.ask space state))) present pending records
      · rw [outcome]
        exact (rooted.ensureMatches state).of_same_entries rfl rfl

theorem HasHistory.rooted {space : StateSpace R} (history : space.HasHistory) : space.Rooted := by
  obtain ⟨engine, evolves⟩ := history
  induction evolves with
  | refl => exact rooted_create engine
  | tail before grows inductionHypothesis => exact grows.rooted ⟨engine, before⟩ inductionHypothesis

/-! ## The walk back -/

/-- The walk from a state back along the transitions that created states, until
one has no such transition, with its states in the order from the last one on. -/
inductive WalksBack (space : StateSpace R) : StateId → List (StateId × Option String) → Prop where
  | arrived {state : StateId} (noIncoming : space.incoming? state = none) :
      WalksBack space state [(state, none)]
  | back {state : StateId} {entering : Transition} {trace : List (StateId × Option String)}
      (incoming : space.incoming? state = some entering)
      (before : WalksBack space entering.source trace) :
      WalksBack space state (trace ++ [(state, some entering.rule)])

theorem WalksBack.unique {space : StateSpace R} {state : StateId}
    {first second : List (StateId × Option String)} (walk : space.WalksBack state first)
    (again : space.WalksBack state second) : first = second := by
  induction walk generalizing second with
  | arrived noIncoming =>
      cases again with
      | arrived _ => rfl
      | back incoming _ =>
          rw [noIncoming] at incoming
          cases incoming
  | back incoming _ inductionHypothesis =>
      cases again with
      | arrived noIncoming =>
          rw [noIncoming] at incoming
          cases incoming
      | back incomingAgain before =>
          rw [incoming] at incomingAgain
          cases incomingAgain
          rw [inductionHypothesis before]

theorem Rooted.of_incoming?_none {space : StateSpace R} (rooted : space.Rooted) {state : StateId}
    (contained : space.contains state = true) (noIncoming : space.incoming? state = none) :
    state = startState ∧ space.depth state = 0 := by
  obtain ⟨info, present⟩ := contains_iff.1 contained
  rw [incoming?, present, Option.bind_some] at noIncoming
  cases rooted state info present with
  | start incoming depth => exact ⟨rfl, (depth_of_info? present).trans depth⟩
  | entered incoming first older depth =>
      rw [incoming, Option.bind_some, first.1] at noIncoming
      cases noIncoming

theorem Rooted.of_incoming?_some {space : StateSpace R} (rooted : space.Rooted) {state : StateId}
    {entering : Transition} (contained : space.contains state = true)
    (incoming : space.incoming? state = some entering) :
    ∃ handle, (space.info? state).bind (·.incoming) = some handle ∧
      space.FirstInto handle entering ∧ entering.target = state ∧
      entering.source.index < state.index ∧
      space.depth state = space.depth entering.source + 1 := by
  obtain ⟨info, present⟩ := contains_iff.1 contained
  have recorded : (space.info? state).bind (·.incoming) = info.incoming := by
    rw [present, Option.bind_some]
  rw [incoming?, recorded] at incoming
  cases rooted state info present with
  | start noIncoming depth =>
      rw [noIncoming, Option.bind_none] at incoming
      cases incoming
  | @entered _ handle transition isHandle first older depth =>
      rw [isHandle, Option.bind_some, first.1] at incoming
      cases incoming
      exact ⟨handle, recorded.trans isHandle, first, rfl, older,
        (depth_of_info? present).trans depth⟩

/-- The walk back visits fewer states than there are handles up to its state. -/
theorem Rooted.walksBack_traceWithin {space : StateSpace R} (rooted : space.Rooted)
    {length : Nat} {state : StateId} (contained : space.contains state = true)
    (enough : state.index < length) : space.WalksBack state (space.traceWithin length state) := by
  induction length generalizing state with
  | zero => omega
  | succ length inductionHypothesis =>
      rw [traceWithin]
      cases incoming : space.incoming? state with
      | none => exact .arrived incoming
      | some entering =>
          obtain ⟨_, _, _, _, older, _⟩ := rooted.of_incoming?_some contained incoming
          exact .back incoming
            (inductionHypothesis (contains_of_le contained older.le) (by omega))

/-! ## The discovery path -/

/-- Whether the second entry of a path continues the first one by the transition
on which its state was discovered, the first one that led there. -/
def Discovers (space : StateSpace R) (before entry : StateId × Option String) : Prop :=
  ∃ handle rule, entry.2 = some rule ∧ handle ∈ space.out before.1 ∧
    space.FirstInto handle ⟨before.1, entry.1, rule⟩ ∧
    (space.info? entry.1).bind (·.incoming) = some handle

/-- What the discovery path of a state is like. -/
structure IsDiscoveryPath (space : StateSpace R) (state : StateId)
    (trace : List (StateId × Option String)) : Prop where
  starts : trace.head? = some (startState, none)
  ends : trace.getLast?.map Prod.fst = some state
  steps : trace.IsChain space.Discovers
  ascending : (trace.map Prod.fst).Pairwise fun before after => before.index < after.index
  distinct : (trace.map Prod.fst).Nodup
  length : trace.length = space.depth state + 1

/-- A walk back leads to no younger state. -/
theorem WalksBack.index_le {space : StateSpace R} (rooted : space.Rooted) {state : StateId}
    {trace : List (StateId × Option String)} (walk : space.WalksBack state trace)
    (contained : space.contains state = true) {entry : StateId × Option String}
    (member : entry ∈ trace) : entry.1.index ≤ state.index := by
  induction walk with
  | arrived _ => rw [List.mem_singleton.1 member]
  | @back state entering trace incoming _ inductionHypothesis =>
      obtain ⟨_, _, _, _, older, _⟩ := rooted.of_incoming?_some contained incoming
      rcases List.mem_append.1 member with before | last
      · exact (inductionHypothesis (contains_of_le contained older.le) before).trans older.le
      · rw [List.mem_singleton.1 last]

theorem WalksBack.isDiscoveryPath {space : StateSpace R} (history : space.HasHistory)
    {state : StateId} {trace : List (StateId × Option String)}
    (walk : space.WalksBack state trace) (contained : space.contains state = true) :
    space.IsDiscoveryPath state trace := by
  have rooted := history.rooted
  obtain ⟨log, chronicle⟩ := history.chronicle
  induction walk with
  | @arrived state noIncoming =>
      obtain ⟨rfl, atZero⟩ := rooted.of_incoming?_none contained noIncoming
      constructor
      · rfl
      · rfl
      · exact .singleton _
      · exact List.pairwise_singleton _ _
      · exact List.nodup_singleton _
      · rw [atZero]
        rfl
  | @back state entering trace incoming before inductionHypothesis =>
      obtain ⟨handle, recorded, first, target, older, deeper⟩ :=
        rooted.of_incoming?_some contained incoming
      have sourceContained := contains_of_le contained older.le
      have path := inductionHypothesis sourceContained
      have ascending : ((trace ++ [(state, some entering.rule)]).map Prod.fst).Pairwise
          fun before after => before.index < after.index := by
        rw [List.map_append, List.pairwise_append]
        refine ⟨path.ascending, List.pairwise_singleton _ _, ?_⟩
        intro visited inTrace last isLast
        obtain ⟨entry, member, rfl⟩ := List.mem_map.1 inTrace
        rw [List.mem_singleton.1 isLast]
        exact (before.index_le rooted sourceContained member).trans_lt older
      constructor
      · rw [List.head?_append, path.starts]
        rfl
      · rw [List.getLast?_concat]
        rfl
      · rw [List.isChain_append]
        refine ⟨path.steps, .singleton _, ?_⟩
        rintro last isLast _ ⟨⟩
        have atSource : last.1 = entering.source := by
          have ends := path.ends
          rw [isLast] at ends
          exact Option.some.inj ends
        obtain ⟨source, _, rule⟩ := entering
        cases target
        exact ⟨handle, rule, rfl, atSource ▸ (chronicle.accounted.ends first.1).1,
          atSource ▸ first, recorded⟩
      · exact ascending
      · exact ascending.imp fun less same => Nat.ne_of_lt less (congrArg StateId.index same)
      · rw [List.length_append, path.length, deeper]
        rfl

theorem HasHistory.walksBack_traceTo {space : StateSpace R} (history : space.HasHistory)
    {state : StateId} (contained : space.contains state = true) :
    space.WalksBack state (space.traceTo state) :=
  history.rooted.walksBack_traceWithin contained (Nat.lt_succ_self _)

/-- **Discovery paths.** The walk back from any state ends, and the discovery
path is this walk. It leads from the start state to the state by the first
transition into each of its states, over ever younger states, and its length is
the depth. No state but the start state lacks such a transition. -/
theorem traceTo_is_discovery_path {space : StateSpace R} (history : space.HasHistory)
    {state : StateId} (contained : space.contains state = true) :
    (∀ trace, space.WalksBack state trace ↔ trace = space.traceTo state) ∧
      space.IsDiscoveryPath state (space.traceTo state) ∧
      ((space.info? state).bind (·.incoming) = none ↔ state = startState) := by
  have walk := history.walksBack_traceTo contained
  refine ⟨fun trace => ⟨fun other => other.unique walk, fun same => same ▸ walk⟩,
    walk.isDiscoveryPath history contained, ?_⟩
  obtain ⟨info, present⟩ := contains_iff.1 contained
  rw [present, Option.bind_some]
  cases history.rooted state info present with
  | start incoming _ => exact ⟨fun _ => rfl, fun _ => incoming⟩
  | @entered _ handle transition incoming _ older _ =>
      constructor
      · intro noIncoming
        rw [incoming] at noIncoming
        cases noIncoming
      · intro atStart
        rw [atStart] at older
        exact absurd older (Nat.not_lt_zero _)

/-- A long way and a short cut to the same node, and a way back from there. -/
def windingSystem : LabelledSystem :=
  { nodes := #[{ name := "foot" }, { name := "bend" }, { name := "top" }]
    edges := #[⟨⟨0⟩, "walk", ⟨1⟩⟩, ⟨⟨0⟩, "climb", ⟨2⟩⟩, ⟨⟨1⟩, "walk", ⟨2⟩⟩, ⟨⟨2⟩, "slide", ⟨1⟩⟩] }

/-- The space in which the short cut was taken last. -/
def windingSpace : StateSpace windingSystem.rules :=
  let space := create windingSystem.rules ⟨[]⟩
  let space := (space.applyMatch ⟨0⟩ 0).2
  let space := (space.applyMatch ⟨1⟩ 0).2
  let space := (space.applyMatch ⟨2⟩ 0).2
  (space.applyMatch ⟨0⟩ 0).2

theorem windingSpace_discovery_path :
    windingSpace.HasHistory ∧ windingSpace.contains ⟨2⟩ = true ∧
      windingSpace.traceTo ⟨2⟩ = [(⟨0⟩, none), (⟨1⟩, some "walk"), (⟨2⟩, some "walk")] ∧
      windingSpace.IsDiscoveryPath ⟨2⟩ (windingSpace.traceTo ⟨2⟩) := by
  have history : windingSpace.HasHistory :=
    ⟨⟨[]⟩, .tail (.tail (.tail (.single (.apply _ ⟨0⟩ 0)) (.apply _ ⟨1⟩ 0)) (.apply _ ⟨2⟩ 0))
      (.apply _ ⟨0⟩ 0)⟩
  have contained : windingSpace.contains ⟨2⟩ = true := by decide +kernel
  exact ⟨history, contained, by decide +kernel, (traceTo_is_discovery_path history contained).2.1⟩

end StateSpace

end OnTheFly
