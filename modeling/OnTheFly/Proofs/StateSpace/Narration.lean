import Mathlib.Data.List.Nodup
import OnTheFly.Proofs.StateSpace.Application

/-!
Contract: the events that a state space queues tell of all its changes.

Owns: what each event says of the change that it tells of, logs that list the
changes of a state space one by one, what can be read off such a log, and that
the queued events continue it through every operation.
Does not own: who takes the events.

A change that has no event changes neither the number of states, nor the
transitions, nor which states are closed.
-/

set_option autoImplicit false

namespace OnTheFly

namespace Event

def addedState? : Event → Option StateId
  | .stateAdded state => some state
  | _ => none

def addedTransition? : Event → Option TransitionId
  | .transitionAdded transition => some transition
  | _ => none

def closedState? : Event → Option StateId
  | .stateClosed state => some state
  | _ => none

variable {log : List Event}

theorem mem_filterMap {Subject : Type} {subject? : Event → Option Subject} {tell : Subject → Event}
    (tells : ∀ event subject, subject? event = some subject ↔ event = tell subject)
    {subject : Subject} : subject ∈ log.filterMap subject? ↔ tell subject ∈ log := by
  simp [List.mem_filterMap, tells]

theorem mem_addedState {state : StateId} :
    state ∈ log.filterMap addedState? ↔ .stateAdded state ∈ log :=
  mem_filterMap fun event _ => by cases event <;> simp [addedState?]

theorem mem_addedTransition {transition : TransitionId} :
    transition ∈ log.filterMap addedTransition? ↔ .transitionAdded transition ∈ log :=
  mem_filterMap fun event _ => by cases event <;> simp [addedTransition?]

theorem mem_closedState {state : StateId} :
    state ∈ log.filterMap closedState? ↔ .stateClosed state ∈ log :=
  mem_filterMap fun event _ => by cases event <;> simp [closedState?]

end Event

namespace StateSpace

variable {R : RuleSystem}

/-! ## Changes and logs -/

/-- Whether two state spaces differ in nothing that an event could tell of. -/
structure Alike (space later : StateSpace R) : Prop where
  size : later.size = space.size
  transitions : later.transitions = space.transitions
  closed (state : StateId) : later.isClosed state = space.isClosed state

/-- One change of a state space, as an event tells of it. -/
inductive Happens (space later : StateSpace R) : Event → Prop where
  | stateAdded (size : later.size = space.size + 1)
      (transitions : later.transitions = space.transitions)
      (closed : ∀ state, later.isClosed state = space.isClosed state) :
      Happens space later (.stateAdded ⟨space.size⟩)
  | transitionAdded {added : Transition} (size : later.size = space.size)
      (transitions : later.transitions = space.transitions.push added)
      (closed : ∀ state, later.isClosed state = space.isClosed state)
      (target : space.contains added.target = true)
      (source : space.isClosed added.source = false) :
      Happens space later (.transitionAdded ⟨space.transitions.size⟩)
  | stateClosed {state : StateId} (size : later.size = space.size)
      (transitions : later.transitions = space.transitions)
      (wasOpen : space.isClosed state = false) (isClosed : later.isClosed state = true)
      (others : ∀ other, other ≠ state → later.isClosed other = space.isClosed other) :
      Happens space later (.stateClosed state)

/-- Whether the log lists, one by one, the changes since `origin`. -/
inductive Narrates (origin : StateSpace R) : List Event → StateSpace R → Prop where
  | nothing : Narrates origin [] origin
  | unseen {log : List Event} {space later : StateSpace R} (before : Narrates origin log space)
      (alike : space.Alike later) : Narrates origin log later
  | happened {log : List Event} {space later : StateSpace R} {event : Event}
      (before : Narrates origin log space) (happens : space.Happens later event) :
      Narrates origin (log ++ [event]) later

/-! ## What a log tells -/

/-- Whether a log tells exactly what became of `origin`: each new state and each
new transition once and in order, a new target before the transition that leads
to it, and each closed state once, after its transitions. -/
structure Tells (origin later : StateSpace R) (log : List Event) : Prop where
  size_le : origin.size ≤ later.size
  count_le : origin.transitions.size ≤ later.transitions.size
  stillClosed {state : StateId} : origin.isClosed state = true → later.isClosed state = true
  states : log.filterMap Event.addedState? =
    (List.range' origin.size (later.size - origin.size)).map StateId.mk
  transitions : log.filterMap Event.addedTransition? =
    (List.range' origin.transitions.size
      (later.transitions.size - origin.transitions.size)).map TransitionId.mk
  closings : (log.filterMap Event.closedState?).Nodup
  closed {state : StateId} : state ∈ log.filterMap Event.closedState? ↔
    origin.isClosed state = false ∧ later.isClosed state = true
  target_first {handle : TransitionId} {transition : Transition} :
    later.transition? handle = some transition → origin.transitions.size ≤ handle.index →
      origin.size ≤ transition.target.index →
        [.stateAdded transition.target, .transitionAdded handle].Sublist log
  source_last {handle : TransitionId} {transition : Transition} :
    later.transition? handle = some transition → origin.transitions.size ≤ handle.index →
      origin.isClosed transition.source = false → later.isClosed transition.source = true →
        [.transitionAdded handle, .stateClosed transition.source].Sublist log

theorem transition?_congr {space later : StateSpace R}
    (same : later.transitions = space.transitions) (handle : TransitionId) :
    later.transition? handle = space.transition? handle := by
  rw [transition?, same, transition?]

namespace Tells

variable {origin space later : StateSpace R} {log : List Event}

theorem nothing (origin : StateSpace R) : origin.Tells origin [] where
  size_le := Nat.le_refl _
  count_le := Nat.le_refl _
  stillClosed := id
  states := by simp
  transitions := by simp
  closings := by simp
  closed := by simp
  target_first present fresh := by
    have bound := (Array.getElem?_eq_some_iff.1 present).1
    omega
  source_last present fresh := by
    have bound := (Array.getElem?_eq_some_iff.1 present).1
    omega

theorem mem_states (tells : origin.Tells later log) {state : StateId} :
    .stateAdded state ∈ log ↔ origin.size ≤ state.index ∧ state.index < later.size := by
  have grown := tells.size_le
  rw [← Event.mem_addedState, tells.states, List.mem_map]
  constructor
  · rintro ⟨index, member, rfl⟩
    rw [List.mem_range'_1] at member
    show origin.size ≤ index ∧ index < later.size
    omega
  · intro between
    exact ⟨state.index, List.mem_range'_1.2 (by omega), rfl⟩

theorem mem_transitions (tells : origin.Tells later log) {handle : TransitionId} :
    .transitionAdded handle ∈ log ↔
      origin.transitions.size ≤ handle.index ∧ handle.index < later.transitions.size := by
  have grown := tells.count_le
  rw [← Event.mem_addedTransition, tells.transitions, List.mem_map]
  constructor
  · rintro ⟨index, member, rfl⟩
    rw [List.mem_range'_1] at member
    show origin.transitions.size ≤ index ∧ index < later.transitions.size
    omega
  · intro between
    exact ⟨handle.index, List.mem_range'_1.2 (by omega), rfl⟩

theorem alike (tells : origin.Tells space log) (alike : space.Alike later) :
    origin.Tells later log := by
  have sameTransition := transition?_congr alike.transitions
  constructor
  · rw [alike.size]
    exact tells.size_le
  · rw [alike.transitions]
    exact tells.count_le
  · intro state closed
    rw [alike.closed]
    exact tells.stillClosed closed
  · rw [alike.size]
    exact tells.states
  · rw [alike.transitions]
    exact tells.transitions
  · exact tells.closings
  · intro state
    rw [alike.closed]
    exact tells.closed
  · intro handle transition present
    rw [sameTransition] at present
    exact tells.target_first present
  · intro handle transition present
    rw [sameTransition] at present
    rw [alike.closed]
    exact tells.source_last present

/-- What has been told stays told. -/
theorem sublist_concat {first : List Event} (told : first.Sublist log) (event : Event) :
    first.Sublist (log ++ [event]) :=
  told.trans (List.sublist_append_left log [event])

theorem pair_sublist {first : Event} (told : first ∈ log) (event : Event) :
    [first, event].Sublist (log ++ [event]) :=
  (List.singleton_sublist.2 told).append (List.Sublist.refl [event])

theorem stateAdded (tells : origin.Tells space log) (size : later.size = space.size + 1)
    (transitions : later.transitions = space.transitions)
    (closed : ∀ state, later.isClosed state = space.isClosed state) :
    origin.Tells later (log ++ [.stateAdded ⟨space.size⟩]) := by
  have grown := tells.size_le
  have sameTransition := transition?_congr transitions
  constructor
  · omega
  · rw [transitions]
    exact tells.count_le
  · intro state wasClosed
    rw [closed]
    exact tells.stillClosed wasClosed
  · have more : later.size - origin.size = space.size - origin.size + 1 := by omega
    have last : origin.size + (space.size - origin.size) = space.size := by omega
    rw [more, List.range'_1_concat, last, List.map_append, List.filterMap_append, tells.states]
    rfl
  · rw [transitions, List.filterMap_append, tells.transitions]
    exact List.append_nil _
  · rw [List.filterMap_append]
    exact (List.append_nil _).symm ▸ tells.closings
  · intro state
    rw [closed, ← tells.closed, List.filterMap_append]
    exact Iff.of_eq (congrArg (state ∈ ·) (List.append_nil _))
  · intro handle transition present fresh newTarget
    rw [sameTransition] at present
    exact sublist_concat (tells.target_first present fresh newTarget) _
  · intro handle transition present fresh wasOpen isClosed
    rw [sameTransition] at present
    rw [closed] at isClosed
    exact sublist_concat (tells.source_last present fresh wasOpen isClosed) _

theorem transitionAdded (tells : origin.Tells space log) {added : Transition}
    (size : later.size = space.size)
    (transitions : later.transitions = space.transitions.push added)
    (closed : ∀ state, later.isClosed state = space.isClosed state)
    (target : space.contains added.target = true)
    (source : space.isClosed added.source = false) :
    origin.Tells later (log ++ [.transitionAdded ⟨space.transitions.size⟩]) := by
  have grown := tells.count_le
  have count : later.transitions.size = space.transitions.size + 1 := by
    rw [transitions, Array.size_push]
  -- A transition of the later space is the new one or was there before.
  have cases_ {handle : TransitionId} {transition : Transition}
      (present : later.transition? handle = some transition) :
      (handle = ⟨space.transitions.size⟩ ∧ transition = added) ∨
        space.transition? handle = some transition := by
    rw [transition?, transitions, Array.getElem?_push] at present
    split at present
    · rename_i last
      cases handle
      cases present
      exact .inl ⟨congrArg TransitionId.mk last, rfl⟩
    · exact .inr present
  constructor
  · rw [size]
    exact tells.size_le
  · omega
  · intro state wasClosed
    rw [closed]
    exact tells.stillClosed wasClosed
  · rw [size, List.filterMap_append, tells.states]
    exact List.append_nil _
  · have more : later.transitions.size - origin.transitions.size =
        space.transitions.size - origin.transitions.size + 1 := by omega
    have last : origin.transitions.size + (space.transitions.size - origin.transitions.size) =
        space.transitions.size := by omega
    rw [more, List.range'_1_concat, last, List.map_append, List.filterMap_append,
      tells.transitions]
    rfl
  · rw [List.filterMap_append]
    exact (List.append_nil _).symm ▸ tells.closings
  · intro state
    rw [closed, ← tells.closed, List.filterMap_append]
    exact Iff.of_eq (congrArg (state ∈ ·) (List.append_nil _))
  · intro handle transition present fresh newTarget
    rcases cases_ present with ⟨rfl, rfl⟩ | before
    · have inside : transition.target.index < space.size := by
        simpa [contains, StateSpace.size] using target
      exact pair_sublist (tells.mem_states.2 ⟨newTarget, inside⟩) _
    · exact sublist_concat (tells.target_first before fresh newTarget) _
  · intro handle transition present fresh wasOpen isClosed
    rw [closed] at isClosed
    rcases cases_ present with ⟨rfl, rfl⟩ | before
    · rw [source] at isClosed
      cases isClosed
    · exact sublist_concat (tells.source_last before fresh wasOpen isClosed) _

theorem stateClosed (tells : origin.Tells space log) {state : StateId}
    (size : later.size = space.size) (transitions : later.transitions = space.transitions)
    (wasOpen : space.isClosed state = false) (isClosed : later.isClosed state = true)
    (others : ∀ other, other ≠ state → later.isClosed other = space.isClosed other) :
    origin.Tells later (log ++ [.stateClosed state]) := by
  have openBefore : origin.isClosed state = false := by
    rw [Bool.eq_false_iff]
    intro wasClosed
    rw [tells.stillClosed wasClosed] at wasOpen
    cases wasOpen
  have sameTransition := transition?_congr transitions
  constructor
  · rw [size]
    exact tells.size_le
  · rw [transitions]
    exact tells.count_le
  · intro other wasClosed
    by_cases same : other = state
    · rw [same]
      exact isClosed
    · rw [others other same]
      exact tells.stillClosed wasClosed
  · rw [size, List.filterMap_append, tells.states]
    exact List.append_nil _
  · rw [transitions, List.filterMap_append, tells.transitions]
    exact List.append_nil _
  · have notYet : state ∉ log.filterMap Event.closedState? := by
      intro member
      rw [(tells.closed.1 member).2] at wasOpen
      cases wasOpen
    rw [List.filterMap_append]
    exact List.nodup_append_comm.2 (List.nodup_cons.2 ⟨notYet, tells.closings⟩)
  · intro other
    rw [List.filterMap_append, List.mem_append, tells.closed]
    by_cases same : other = state
    · simp [same, openBefore, isClosed, Event.closedState?]
    · simp [same, others other same, Event.closedState?]
  · intro handle transition present
    rw [sameTransition] at present
    intro fresh newTarget
    exact sublist_concat (tells.target_first present fresh newTarget) _
  · intro handle transition present fresh sourceOpen sourceClosed
    rw [sameTransition] at present
    by_cases same : transition.source = state
    · have inside : handle.index < space.transitions.size :=
        (Array.getElem?_eq_some_iff.1 present).1
      rw [same]
      exact pair_sublist (tells.mem_transitions.2 ⟨fresh, inside⟩) _
    · rw [others _ same] at sourceClosed
      exact sublist_concat (tells.source_last present fresh sourceOpen sourceClosed) _

end Tells

/-- A log that lists the changes one by one tells exactly what became. -/
theorem Narrates.tells {origin later : StateSpace R} {log : List Event}
    (narrates : origin.Narrates log later) : origin.Tells later log := by
  induction narrates with
  | nothing => exact .nothing origin
  | unseen _ alike inductionHypothesis => exact inductionHypothesis.alike alike
  | happened _ happens inductionHypothesis =>
      cases happens with
      | stateAdded size transitions closed =>
          exact inductionHypothesis.stateAdded size transitions closed
      | transitionAdded size transitions closed target source =>
          exact inductionHypothesis.transitionAdded size transitions closed target source
      | stateClosed size transitions wasOpen isClosed others =>
          exact inductionHypothesis.stateClosed size transitions wasOpen isClosed others

/-! ## Primitive changes -/

theorem isClosed_modifyState (space : StateSpace R) (state other : StateId)
    {change : StateInfo R → StateInfo R} (kept : ∀ info, (change info).closed = info.closed) :
    (space.modifyState state change).isClosed other = space.isClosed other := by
  simp only [isClosed, info?_modifyState]
  split
  · cases space.info? other <;> simp [kept]
  · rfl

theorem alike_modifyState (space : StateSpace R) (state : StateId)
    {change : StateInfo R → StateInfo R} (kept : ∀ info, (change info).closed = info.closed) :
    space.Alike (space.modifyState state change) where
  size := by simp [size, modifyState]
  transitions := rfl
  closed other := isClosed_modifyState space state other kept

theorem happens_addState (space : StateSpace R) (graph : R.Graph) (depth : Nat) :
    space.Happens (space.addState graph depth) (.stateAdded ⟨space.size⟩) := by
  constructor
  · simp [size, addState]
  · rfl
  · intro state
    simp only [isClosed, info?_addState]
    split
    · rename_i isNew
      rw [isNew, info?_next]
      rfl
    · rfl

theorem happens_addTransition {space : StateSpace R} {added : Transition} (fresh : Bool)
    (target : space.contains added.target = true)
    (source : space.isClosed added.source = false) :
    space.Happens (space.addTransition added fresh)
      (.transitionAdded ⟨space.transitions.size⟩) := by
  obtain ⟨transitions, size⟩ := addTransition_frame space added fresh
  apply Happens.transitionAdded size transitions _ target source
  intro state
  have pushed : isClosed { space with transitions := space.transitions.push added } state =
      space.isClosed state := rfl
  have told (earlier : StateSpace R) (event : Event) :
      (earlier.notify event).isClosed state = earlier.isClosed state := rfl
  cases fresh with
  | false =>
      simp only [addTransition, Bool.false_eq_true, if_false]
      rw [told, isClosed_modifyState, pushed]
      exact fun _ => rfl
  | true =>
      simp only [addTransition, if_true]
      rw [told, isClosed_modifyState, isClosed_modifyState, pushed]
      · exact fun _ => rfl
      · exact fun _ => rfl

theorem happens_close {space : StateSpace R} {state : StateId} {info : StateInfo R}
    (present : space.info? state = some info) (isOpen : info.closed = false) :
    space.Happens (space.close state) (.stateClosed state) ∧
      (space.close state).events = space.events ++ [.stateClosed state] := by
  have notClosed : space.isClosed state = false := by simp [isClosed, present, isOpen]
  have frame : (space.close state).transitions = space.transitions ∧
      (space.close state).size = space.size ∧
      (space.close state).events = space.events ++ [.stateClosed state] := by
    unfold close
    rw [notClosed, if_neg Bool.false_ne_true]
    exact ⟨rfl, by simp [size, modifyState, notify], rfl⟩
  obtain ⟨after, presentAfter, closed, _⟩ := info?_close present
  refine ⟨.stateClosed frame.2.1 frame.1 notClosed ?_ ?_, frame.2.2⟩
  · exact isClosed_iff.2 ⟨after, presentAfter, closed⟩
  · intro other different
    rw [isClosed, info?_close_other space (Ne.symm different), isClosed]

/-! ## Operations -/

/-- Whether a log and the events still queued list the changes since `origin`. -/
def Narrated (origin : StateSpace R) (log : List Event) (space : StateSpace R) : Prop :=
  origin.Narrates (log ++ space.events) space

namespace Narrated

variable {origin space later : StateSpace R} {log : List Event}

theorem alike (narrated : origin.Narrated log space) (alike : space.Alike later)
    (events : later.events = space.events) : origin.Narrated log later := by
  unfold Narrated
  rw [events]
  exact narrated.unseen alike

theorem happens (narrated : origin.Narrated log space) {event : Event}
    (happens : space.Happens later event) (events : later.events = space.events ++ [event]) :
    origin.Narrated log later := by
  unfold Narrated
  rw [events, ← List.append_assoc]
  exact narrated.happened happens

theorem remind (narrated : origin.Narrated log space) (engine : R.Engine) :
    origin.Narrated log { space with engine := engine } :=
  narrated.alike ⟨rfl, rfl, fun _ => rfl⟩ rfl

theorem drain (narrated : origin.Narrated log space) :
    origin.Narrated (log ++ space.events) space.drainEvents.2 := by
  have drained : origin.Narrates (log ++ space.events) space.drainEvents.2 :=
    narrated.unseen ⟨rfl, rfl, fun _ => rfl⟩
  unfold Narrated
  rw [show space.drainEvents.2.events = [] from rfl, List.append_nil]
  exact drained

theorem ensureMatches (narrated : origin.Narrated log space) (state : StateId) :
    origin.Narrated log (space.ensureMatches state) := by
  unfold StateSpace.ensureMatches
  cases present : space.info? state with
  | none => exact narrated
  | some info =>
      simp only
      by_cases touched : (info.pending.isSome || info.closed) = true
      · rw [if_pos touched]
        exact narrated
      · rw [if_neg touched]
        have isOpen : info.closed = false := by
          simp only [Bool.or_eq_true, not_or, Bool.not_eq_true] at touched
          exact touched.2
        have asked : origin.Narrated log
            (space.modifyState state ({ · with pending := some (R.matchesOf info.graph) })) :=
          narrated.alike (alike_modifyState space state fun _ => rfl) rfl
        by_cases nothing : (R.matchesOf info.graph).isEmpty = true
        · rw [if_pos nothing]
          have presentAsked : (space.modifyState state
              ({ · with pending := some (R.matchesOf info.graph) })).info? state =
                some { info with pending := some (R.matchesOf info.graph) } := by
            simp [present]
          obtain ⟨happens, events⟩ := happens_close presentAsked isOpen
          exact asked.happens happens events
        · rw [if_neg nothing]
          exact asked

theorem closeIfDone (narrated : origin.Narrated log space) {state : StateId}
    {info : StateInfo R} (present : space.info? state = some info)
    (isOpen : info.closed = false) : origin.Narrated log (space.closeIfDone state) := by
  unfold StateSpace.closeIfDone
  split
  · obtain ⟨happens, events⟩ := happens_close present isOpen
    exact narrated.happens happens events
  · exact narrated

/-- A recorded application changes the space in the order in which it is told:
a new target, the transition, and the source if it closes. -/
theorem recordApplication (narrated : origin.Narrated log space) {state : StateId}
    {info : StateInfo R} (present : space.info? state = some info)
    (isOpen : info.closed = false) (position : Nat) (rule : String) (graph : R.Graph) :
    origin.Narrated log (space.recordApplication state position rule graph).2 := by
  cases inserted : (space.withoutMatch state position).insert (R.canonicalize graph)
      (space.depth state + 1) with
  | mk entry extended =>
      obtain ⟨target, fresh⟩ := entry
      have taken : origin.Narrated log (space.withoutMatch state position) :=
        narrated.alike (alike_modifyState space state fun _ => rfl) rfl
      have stored : origin.Narrated log extended ∧ extended.contains target = true := by
        rcases insert_cases inserted with ⟨_, isNew, rfl⟩ | ⟨_, rfl, found⟩
        · exact ⟨taken.happens (happens_addState _ _ _) rfl, contains_addState.2 (.inl isNew)⟩
        · obtain ⟨_, presentTarget, _⟩ := graph?_eq_some.1 found
          exact ⟨taken, contains_of_info? presentTarget⟩
      have source := info?_beforeClosing present inserted
      have sourceOpen : extended.isClosed state = false := by simp [isClosed, source, isOpen]
      have connected : origin.Narrated log (extended.addTransition ⟨state, target, rule⟩ fresh) :=
        stored.1.happens (happens_addTransition fresh stored.2 sourceOpen)
          (by cases fresh <;> rfl)
      obtain ⟨after, presentAfter, _, sameClosed, _⟩ :=
        info?_addTransition ⟨state, target, rule⟩ fresh source
      rw [recordApplication_eq space state position rule graph inserted]
      exact connected.closeIfDone presentAfter (sameClosed.trans isOpen)

theorem applyMatch (narrated : origin.Narrated log space) (wellFormed : space.WellFormed)
    (state : StateId) (position : Nat) :
    origin.Narrated log (space.applyMatch state position).2 := by
  have asked := narrated.ensureMatches state
  have wellFormedAsked := (wellFormed.ensureMatches state).wellFormed
  unfold StateSpace.applyMatch
  simp only
  split
  · rename_i candidate graph waiting stored
    obtain ⟨info, present, rfl⟩ := graph?_eq_some.1 stored
    have isOpen : info.closed = false := by
      have sourceOpen := wellFormedAsked.isClosed_eq_false waiting
      simpa [isClosed, present] using sourceOpen
    cases outcome : R.apply (space.ensureMatches state).engine info.graph candidate with
    | mk result engine =>
        have reminded := asked.remind engine
        cases result with
        | error error => exact reminded
        | ok target => exact reminded.recordApplication present isOpen _ _ _
  · exact asked

end Narrated

/-! ## Histories -/

/-- The events that a state space with a history has queued are among those
that tell how it came about. -/
theorem HasHistory.narrated {space : StateSpace R} (history : space.HasHistory) :
    ∃ engine log, Narrated ({ engine := engine } : StateSpace R) log space := by
  obtain ⟨engine, evolves⟩ := history
  refine ⟨engine, ?_⟩
  induction evolves with
  | refl =>
      have unchanged : Narrated ({ engine := engine } : StateSpace R) [] { engine := engine } :=
        Narrates.nothing
      exact ⟨[], unchanged.happens (happens_addState { engine := engine } R.startGraph 0) rfl⟩
  | tail before grows inductionHypothesis =>
      obtain ⟨log, narrated⟩ := inductionHypothesis
      cases grows with
      | ask state => exact ⟨log, narrated.ensureMatches state⟩
      | apply state position =>
          have wellFormed := HasHistory.wellFormed ⟨engine, before⟩
          exact ⟨log, narrated.applyMatch wellFormed state position⟩
      | drain => exact ⟨_, narrated.drain⟩
      | remind engine => exact ⟨log, narrated.remind engine⟩

/-- What was queued before is told again by no later log. -/
theorem Tells.not_mem_of_queued {origin later : StateSpace R} {log : List Event}
    (tells : origin.Tells later log) (history : origin.HasHistory) {event : Event}
    (queued : event ∈ origin.events) : event ∉ log := by
  obtain ⟨engine, earlier, narrated⟩ := history.narrated
  have before := narrated.tells
  have told : event ∈ earlier ++ origin.events := List.mem_append_right _ queued
  intro again
  cases event with
  | stateAdded state =>
      have old := (before.mem_states.1 told).2
      have new := (tells.mem_states.1 again).1
      omega
  | transitionAdded handle =>
      have old := (before.mem_transitions.1 told).2
      have new := (tells.mem_transitions.1 again).1
      omega
  | stateClosed state =>
      have old := (before.closed.1 (Event.mem_closedState.2 told)).2
      have new := (tells.closed.1 (Event.mem_closedState.2 again)).1
      rw [old] at new
      cases new

end StateSpace

end OnTheFly
