import OnTheFly.Proofs.Exploration.Closing

/-!
Contract: a state space gives the answers of a plain list of states.

Owns: listings, which find a graph by comparing it with one entry after the
other; the requests that can be made of a state space; and that a state space
and its listing answer every sequence of requests alike.
Does not own: the index of a state space and its collisions.
-/

set_option autoImplicit false

namespace OnTheFly

/-! ## Listings -/

/-- What a listing needs of an engine: no fingerprints. -/
structure Rewriting (Graph Match Engine : Type) where
  startGraph : Graph
  matchesOf : Graph → List Match
  apply : Engine → Graph → Match → Except ApplyError Graph × Engine
  ruleName : Match → String
  canonicalize : Graph → Graph

def RuleSystem.rewriting (R : RuleSystem) : Rewriting R.Graph R.Match R.Engine where
  startGraph := R.startGraph
  matchesOf := R.matchesOf
  apply := R.apply
  ruleName := R.ruleName
  canonicalize := R.canonicalize

/-- All that is stored of a state. -/
structure Entry (Graph Match : Type) where
  graph : Graph
  closed : Bool := false
  depth : Nat
  incoming : Option TransitionId := none
  pending : Option (List Match) := none
  out : List TransitionId := []

/-- States and transitions as plain lists, without an index. -/
structure Listing (Graph Match Engine : Type) where
  engine : Engine
  entries : List (Entry Graph Match) := []
  transitions : List Transition := []
  events : List Event := []

/-- What can be asked of a state space or done with it. With the last one
somebody else changes what the engine remembers. -/
inductive Request (Graph Engine : Type) where
  | count (state : StateId)
  | pending (state : StateId)
  | apply (state : StateId) (position : Nat)
  | lookup (graph : Graph)
  | drain
  | remind (engine : Engine)

inductive Answer (Match : Type) where
  | count (number : Nat)
  | pending (candidates : List Match)
  | applied (result : Except MatchFailure Applied)
  | found (state : Option StateId)
  | events (queued : List Event)
  | done

namespace Listing

variable {Graph Match Engine : Type} [DecidableEq Graph]

/-- The first state that stores the graph. -/
def find? (listing : Listing Graph Match Engine) (graph : Graph) : Option StateId :=
  (listing.entries.findIdx? (·.graph = graph)).map StateId.mk

/-- Records that a match of `state` led to `graph`, where `entry` is the entry
of the state and `left` are its other matches. -/
def record (listing : Listing Graph Match Engine) (state : StateId) (entry : Entry Graph Match)
    (left : List Match) (rule : String) (graph : Graph) : Applied × Listing Graph Match Engine :=
  let handle : TransitionId := ⟨listing.transitions.length⟩
  let entries := listing.entries.set state.index
    { entry with pending := some left, closed := left.isEmpty, out := entry.out ++ [handle] }
  let closing := if left.isEmpty then [Event.stateClosed state] else []
  match listing.find? graph with
  | some target =>
      (⟨handle, target, false⟩, { listing with
        entries := entries
        transitions := listing.transitions ++ [⟨state, target, rule⟩]
        events := listing.events ++ .transitionAdded handle :: closing })
  | none =>
      let target : StateId := ⟨listing.entries.length⟩
      (⟨handle, target, true⟩, { listing with
        entries := entries ++
          [{ graph := graph, depth := entry.depth + 1, incoming := some handle }]
        transitions := listing.transitions ++ [⟨state, target, rule⟩]
        events := listing.events ++ .stateAdded target :: .transitionAdded handle :: closing })

variable (rules : Rewriting Graph Match Engine)

def create (engine : Engine) : Listing Graph Match Engine where
  engine := engine
  entries := [{ graph := rules.startGraph, depth := 0 }]
  events := [.stateAdded StateSpace.startState]

/-- Asks the engine for the matches of a state, on first use. -/
def ask (listing : Listing Graph Match Engine) (state : StateId) :
    Listing Graph Match Engine :=
  match listing.entries[state.index]? with
  | none => listing
  | some entry =>
      if entry.pending.isSome then listing
      else
        let offered := rules.matchesOf entry.graph
        { listing with
          entries := listing.entries.set state.index
            { entry with pending := some offered, closed := offered.isEmpty }
          events := if offered.isEmpty then listing.events ++ [.stateClosed state]
            else listing.events }

def pending (listing : Listing Graph Match Engine) (state : StateId) : List Match :=
  (listing.entries[state.index]?.bind (·.pending)).getD []

/-- Applies the pending match at `position` of `state`. -/
def apply (listing : Listing Graph Match Engine) (state : StateId) (position : Nat) :
    Except MatchFailure Applied × Listing Graph Match Engine :=
  let listing := listing.ask rules state
  match (listing.pending state)[position]?, listing.entries[state.index]? with
  | some candidate, some entry =>
      match rules.apply listing.engine entry.graph candidate with
      | (.error error, engine) => (.error (.refused error), { listing with engine := engine })
      | (.ok outcome, engine) =>
          let (applied, later) := ({ listing with engine := engine } : Listing _ _ _).record state
            entry ((listing.pending state).eraseIdx position) (rules.ruleName candidate)
            (rules.canonicalize outcome)
          (.ok applied, later)
  | _, _ => (.error (.outOfRange position state), listing)

def answer (listing : Listing Graph Match Engine) :
    Request Graph Engine → Answer Match × Listing Graph Match Engine
  | .count state =>
      (.count ((listing.ask rules state).pending state).length, listing.ask rules state)
  | .pending state => (.pending ((listing.ask rules state).pending state), listing.ask rules state)
  | .apply state position =>
      let (result, later) := listing.apply rules state position
      (.applied result, later)
  | .lookup graph => (.found (listing.find? (rules.canonicalize graph)), listing)
  | .drain => (.events listing.events, { listing with events := [] })
  | .remind engine => (.done, { listing with engine := engine })

/-- The answers to a sequence of requests, and what becomes of the listing. -/
def serve (listing : Listing Graph Match Engine) :
    List (Request Graph Engine) → List (Answer Match) × Listing Graph Match Engine
  | [] => ([], listing)
  | request :: requests =>
      let (first, next) := listing.answer rules request
      let (others, last) := next.serve requests
      (first :: others, last)

end Listing

namespace StateSpace

variable {R : RuleSystem}

def answer (space : StateSpace R) :
    Request R.Graph R.Engine → Answer R.Match × StateSpace R
  | .count state => ((.count (space.pendingCount state).1), (space.pendingCount state).2)
  | .pending state => ((.pending (space.pendingMatches state).1), (space.pendingMatches state).2)
  | .apply state position =>
      let (result, later) := space.applyMatch state position
      (.applied result, later)
  | .lookup graph => (.found (space.lookup? graph), space)
  | .drain => (.events space.drainEvents.1, space.drainEvents.2)
  | .remind engine => (.done, { space with engine := engine })

/-- The answers to a sequence of requests, and what becomes of the space. -/
def serve (space : StateSpace R) :
    List (Request R.Graph R.Engine) → List (Answer R.Match) × StateSpace R
  | [] => ([], space)
  | request :: requests =>
      let (first, next) := space.answer request
      let (others, last) := next.serve requests
      (first :: others, last)

end StateSpace

/-! ## The listing of a state space -/

variable {R : RuleSystem}

def StateInfo.entry (info : StateInfo R) : Entry R.Graph R.Match where
  graph := info.graph
  closed := info.closed
  depth := info.depth
  incoming := info.incoming
  pending := info.pending
  out := info.out

@[simp] theorem graph_entry (info : StateInfo R) : info.entry.graph = info.graph := rfl

namespace StateSpace

/-- The state space without its index. -/
def listing (space : StateSpace R) : Listing R.Graph R.Match R.Engine where
  engine := space.engine
  entries := space.states.toList.map StateInfo.entry
  transitions := space.transitions.toList
  events := space.events

@[simp] theorem engine_listing (space : StateSpace R) : space.listing.engine = space.engine := rfl

@[simp] theorem getElem?_entries_listing (space : StateSpace R) (position : Nat) :
    space.listing.entries[position]? = (space.info? ⟨position⟩).map StateInfo.entry := by
  simp [listing, info?]

@[simp] theorem length_entries_listing (space : StateSpace R) :
    space.listing.entries.length = space.states.size := by
  simp [listing]

@[simp] theorem length_transitions_listing (space : StateSpace R) :
    space.listing.transitions.length = space.transitions.size := by
  simp [listing]

@[simp] theorem pending_listing (space : StateSpace R) (state : StateId) :
    space.listing.pending state = space.pending state := by
  rw [Listing.pending, getElem?_entries_listing, pending]
  cases space.info? state <;> rfl

/-- Looking a graph up under its fingerprint finds what a search of all states
finds. -/
theorem WellFormed.find?_listing {space : StateSpace R} (wellFormed : space.WellFormed)
    {graph : R.Graph} {state : StateId} :
    space.listing.find? graph = some state ↔ space.graph? state = some graph := by
  simp only [Listing.find?, Option.map_eq_some_iff, List.findIdx?_eq_some_iff_getElem]
  constructor
  · rintro ⟨position, ⟨inside, stores, _⟩, rfl⟩
    have found := List.getElem?_eq_getElem inside
    rw [getElem?_entries_listing] at found
    obtain ⟨info, present, same⟩ := Option.map_eq_some_iff.1 found
    rw [← same, decide_eq_true_eq] at stores
    exact graph?_eq_some.2 ⟨info, present, stores⟩
  · intro stored
    obtain ⟨info, present, rfl⟩ := graph?_eq_some.1 stored
    have entry : space.listing.entries[state.index]? = some info.entry := by
      rw [getElem?_entries_listing, present]
      rfl
    obtain ⟨inside, same⟩ := List.getElem?_eq_some_iff.1 entry
    refine ⟨state.index, ⟨inside, by rw [same]; exact decide_eq_true rfl, ?_⟩, rfl⟩
    intro earlier before storesToo
    have found := List.getElem?_eq_getElem (Nat.lt_trans before inside)
    rw [getElem?_entries_listing] at found
    obtain ⟨other, presentOther, sameOther⟩ := Option.map_eq_some_iff.1 found
    rw [← sameOther, decide_eq_true_eq] at storesToo
    have twice := wellFormed.stored_once stored (graph?_eq_some.2 ⟨other, presentOther, storesToo⟩)
    rw [twice] at before
    exact absurd before (Nat.lt_irrefl _)

theorem WellFormed.findStored?_iff {space : StateSpace R} (wellFormed : space.WellFormed)
    {graph : R.Graph} {state : StateId} :
    space.findStored? graph = some state ↔ space.graph? state = some graph := by
  constructor
  · intro found
    simpa using List.find?_some found
  · intro stored
    cases found : space.findStored? graph with
    | none => exact absurd stored (findStored?_eq_none wellFormed found state)
    | some other =>
        have storedToo : space.graph? other = some graph := by simpa using List.find?_some found
        rw [wellFormed.stored_once stored storedToo]

theorem WellFormed.lookup?_listing {space : StateSpace R} (wellFormed : space.WellFormed)
    (graph : R.Graph) : space.lookup? graph = space.listing.find? (R.canonicalize graph) :=
  Option.ext fun _ => wellFormed.findStored?_iff.trans wellFormed.find?_listing.symm

/-! ## Asking -/

theorem listing_modifyState {space : StateSpace R} {state : StateId} {info : StateInfo R}
    (present : space.info? state = some info) (change : StateInfo R → StateInfo R) :
    (space.modifyState state change).listing = { space.listing with
      entries := space.listing.entries.set state.index (change info).entry } := by
  have entries : (space.modifyState state change).listing.entries =
      space.listing.entries.set state.index (change info).entry := by
    refine List.ext_getElem? fun position => ?_
    rw [getElem?_entries_listing, info?_modifyState, List.getElem?_set]
    have inside : state.index < space.states.size := by
      simpa [contains] using contains_of_info? present
    by_cases same : state.index = position
    · subst same
      simp [present, inside]
    · have different : state ≠ ⟨position⟩ := fun isState => same (congrArg StateId.index isState)
      simp [same, different]
  rw [← entries]
  rfl

theorem listing_close {space : StateSpace R} {state : StateId} {info : StateInfo R}
    (present : space.info? state = some info) (isOpen : info.closed = false) :
    (space.close state).listing = { space.listing with
      entries := space.listing.entries.set state.index
        { info.entry with closed := true, pending := some [] }
      events := space.events ++ [.stateClosed state] } := by
  have notClosed : space.isClosed state = false := by simp [isClosed, present, isOpen]
  have changed := listing_modifyState present ({ · with closed := true, pending := some [] })
  unfold close
  rw [notClosed, if_neg Bool.false_ne_true]
  calc ((space.modifyState state ({ · with closed := true, pending := some [] })).notify
          (.stateClosed state)).listing
      = { (space.modifyState state ({ · with closed := true, pending := some [] })).listing with
          events := space.events ++ [.stateClosed state] } := rfl
    _ = _ := by rw [changed]; rfl

theorem WellFormed.listing_ensureMatches {space : StateSpace R} (wellFormed : space.WellFormed)
    (state : StateId) :
    (space.ensureMatches state).listing = space.listing.ask R.rewriting state := by
  unfold Listing.ask StateSpace.ensureMatches
  rw [getElem?_entries_listing]
  cases present : space.info? state with
  | none => rfl
  | some info =>
      cases pending_ : info.pending with
      | some candidates => simp [StateInfo.entry, pending_]
      | none =>
          have isOpen : info.closed = false := by
            rw [Bool.eq_false_iff]
            intro closed
            rw [wellFormed.closed_done present closed] at pending_
            cases pending_
          have asked := listing_modifyState present
            ({ · with pending := some (R.matchesOf info.graph) })
          have presentAsked :
              (space.modifyState state ({ · with pending := some (R.matchesOf info.graph) })).info?
                state = some { info with pending := some (R.matchesOf info.graph) } := by
            simp [present]
          simp only [pending_, isOpen, Option.isSome_none, Bool.or_self, Bool.false_eq_true,
            if_false, Option.map_some, StateInfo.entry, RuleSystem.rewriting]
          by_cases nothing : R.matchesOf info.graph = []
          · rw [nothing] at asked presentAsked
            simp only [nothing, List.isEmpty_nil, if_true]
            rw [listing_close presentAsked isOpen, asked]
            simp [StateInfo.entry, listing, StateSpace.modifyState]
          · have someMatch : (R.matchesOf info.graph).isEmpty = false := by simpa using nothing
            simp only [someMatch, Bool.false_eq_true, if_false]
            rw [asked]
            simp [StateInfo.entry, isOpen]

/-! ## Applying -/

namespace Records

variable {space later : StateSpace R} {state : StateId} {position : Nat} {rule : String}
  {graph : R.Graph} {applied : Applied}

theorem transitions_listing (records : space.Records state position rule graph applied later) :
    later.listing.transitions =
      space.listing.transitions ++ [⟨state, applied.target, rule⟩] := by
  simp [listing, records.transitions_eq]

/-- The entry of the source changes, and a new target is the last one. -/
theorem entries_listing (records : space.Records state position rule graph applied later)
    {info : StateInfo R} {candidates : List R.Match} (present : space.info? state = some info)
    (pending : info.pending = some candidates) :
    later.listing.entries =
      space.listing.entries.set state.index { info.entry with
        pending := some (candidates.eraseIdx position)
        closed := (candidates.eraseIdx position).isEmpty
        out := info.out ++ [applied.transition] } ++
      if applied.fresh then [{
        graph := R.canonicalize graph
        depth := info.depth + 1
        incoming := some applied.transition }]
      else [] := by
  have inside : state.index < space.states.size := by
    simpa [contains] using contains_of_info? present
  have depth : space.depth state = info.depth := by simp [depth, present]
  refine List.ext_getElem? fun index => ?_
  rw [getElem?_entries_listing, List.getElem?_append, List.length_set, length_entries_listing]
  by_cases old : index < space.states.size
  · rw [if_pos old, List.getElem?_set, getElem?_entries_listing, length_entries_listing]
    by_cases same : state.index = index
    · subst same
      rw [records.source present pending, if_pos rfl, if_pos inside]
      rfl
    · have different : (⟨index⟩ : StateId) ≠ state := fun isState =>
        same (congrArg StateId.index isState.symm)
      obtain ⟨other, presentOther⟩ := contains_iff.1 (show space.contains ⟨index⟩ = true by
        simpa [contains] using old)
      rw [if_neg same, records.others different presentOther, presentOther]
  · rw [if_neg old]
    cases fresh : applied.fresh with
    | true =>
        obtain ⟨target, size, created⟩ := records.created fresh
        by_cases last : index = space.states.size
        · rw [last, ← target, created, depth]
          simp [StateInfo.entry]
        · have outside : later.info? ⟨index⟩ = none :=
            Array.getElem?_eq_none (by show later.states.size ≤ index; omega)
          have beyond : index - space.states.size ≠ 0 := by omega
          simp [outside, beyond]
    | false =>
        have outside : later.info? ⟨index⟩ = none := by
          have size := (records.known fresh).1
          exact Array.getElem?_eq_none (by show later.states.size ≤ index; omega)
        simp [outside]

/-- The target is what a search of all states finds, and new if there is none. -/
theorem find?_listing (records : space.Records state position rule graph applied later)
    (wellFormed : space.WellFormed) (laterWellFormed : later.WellFormed) {info : StateInfo R}
    {candidates : List R.Match} (present : space.info? state = some info)
    (pending : info.pending = some candidates) :
    space.listing.find? (R.canonicalize graph) =
      if applied.fresh then none else some applied.target := by
  cases fresh : applied.fresh with
  | false => exact wellFormed.find?_listing.2 (records.known fresh).2
  | true =>
      rw [if_pos rfl, Option.eq_none_iff_forall_ne_some]
      intro found isFound
      have stored := wellFormed.find?_listing.1 isFound
      have same := laterWellFormed.stored_once (records.graph?_kept present pending stored)
        records.stored
      obtain ⟨_, presentFound, _⟩ := graph?_eq_some.1 stored
      rw [same, (records.created fresh).1, info?_next] at presentFound
      cases presentFound

end Records

theorem events_closeIfDone {space : StateSpace R} {state : StateId} {info : StateInfo R}
    {candidates : List R.Match} (present : space.info? state = some info)
    (pending_ : info.pending = some candidates) (isOpen : info.closed = false) :
    (space.closeIfDone state).events =
      space.events ++ if candidates.isEmpty then [.stateClosed state] else [] := by
  have remaining : space.pending state = candidates := by
    rw [pending_of_info? present, pending_, Option.getD_some]
  have notClosed : space.isClosed state = false := by simp [isClosed, present, isOpen]
  unfold closeIfDone close
  rw [remaining, notClosed]
  cases candidates with
  | nil => rfl
  | cons first others => simp

theorem events_addTransition (space : StateSpace R) (added : Transition) (fresh : Bool) :
    (space.addTransition added fresh).events =
      space.events ++ [.transitionAdded ⟨space.transitions.size⟩] := by
  cases fresh <;> rfl

/-- A recorded application is told of in this order: a new target, the
transition, and the source if it closes. -/
theorem events_recordApplication {space : StateSpace R} {state : StateId} {info : StateInfo R}
    {candidates : List R.Match} (present : space.info? state = some info)
    (pending_ : info.pending = some candidates) (isOpen : info.closed = false) (position : Nat)
    (rule : String) (graph : R.Graph) {applied : Applied} {later : StateSpace R}
    (recorded : space.recordApplication state position rule graph = (applied, later)) :
    later.events = space.events ++ ((if applied.fresh then [.stateAdded applied.target] else []) ++
      .transitionAdded applied.transition ::
        if (candidates.eraseIdx position).isEmpty then [.stateClosed state] else []) := by
  cases inserted : (space.withoutMatch state position).insert (R.canonicalize graph)
      (space.depth state + 1) with
  | mk entry extended =>
      obtain ⟨target, fresh⟩ := entry
      rw [recordApplication_eq_mk space state position rule graph inserted,
        Prod.mk.injEq] at recorded
      obtain ⟨answer, after⟩ := recorded
      obtain ⟨source, presentSource, _, sameClosed, samePending, _⟩ :=
        info?_addTransition ⟨state, target, rule⟩ fresh (info?_beforeClosing present inserted)
      rw [pending_] at samePending
      have added : extended.events =
          space.events ++ if fresh then [.stateAdded target] else [] := by
        rcases insert_cases inserted with ⟨rfl, isNew, rfl⟩ | ⟨rfl, rfl, _⟩
        · rw [isNew]
          rfl
        · exact (List.append_nil _).symm
      rw [← after, events_closeIfDone presentSource samePending (sameClosed.trans isOpen),
        events_addTransition, added, ← answer]
      simp

theorem listing_recordApplication {space : StateSpace R} (wellFormed : space.WellFormed)
    {state : StateId} {info : StateInfo R} {candidates : List R.Match}
    (present : space.info? state = some info) (pending_ : info.pending = some candidates)
    (isOpen : info.closed = false) (position : Nat) (rule : String) {graph : R.Graph}
    (reachable : R.Reachable (R.canonicalize graph)) {applied : Applied} {later : StateSpace R}
    (recorded : space.recordApplication state position rule graph = (applied, later)) :
    space.listing.record state info.entry (candidates.eraseIdx position) rule
      (R.canonicalize graph) = (applied, later.listing) := by
  have records := recordApplication_records present pending_ isOpen position rule graph
  have continues := wellFormed.recordApplication position rule reachable present isOpen
  have events := events_recordApplication present pending_ isOpen position rule graph recorded
  have engine := engine_recordApplication space state position rule graph
  rw [recorded] at records continues engine
  have found := records.find?_listing wellFormed continues.wellFormed present pending_
  have entries := records.entries_listing present pending_
  have transitions := records.transitions_listing
  have answer : applied = ⟨⟨space.transitions.size⟩, applied.target, applied.fresh⟩ := by
    rw [← records.handle]
  have view : later.listing =
      ⟨later.engine, later.listing.entries, later.listing.transitions, later.events⟩ := rfl
  rw [view, entries, transitions, events, engine, records.handle]
  unfold Listing.record
  rw [found, length_transitions_listing, length_entries_listing]
  cases fresh : applied.fresh with
  | false =>
      rw [answer, fresh]
      simp only [Bool.false_eq_true, if_false, List.append_nil, List.nil_append]
      rfl
  | true =>
      rw [answer, fresh, (records.created fresh).1]
      rfl

/-- An application gives the answer of the listing and the listing of its
answer. -/
theorem listing_applyMatch {space : StateSpace R} (wellFormed : space.WellFormed)
    (state : StateId) (position : Nat) :
    space.listing.apply R.rewriting state position =
      ((space.applyMatch state position).1, (space.applyMatch state position).2.listing) := by
  have asked := (wellFormed.ensureMatches state).wellFormed
  unfold Listing.apply StateSpace.applyMatch
  simp only [← wellFormed.listing_ensureMatches, pending_listing, getElem?_entries_listing, graph?]
  cases waiting : ((space.ensureMatches state).pending state)[position]? with
  | none => rfl
  | some candidate =>
      cases present : (space.ensureMatches state).info? state with
      | none => rfl
      | some info =>
          have isOpen : info.closed = false := by
            have sourceOpen := asked.isClosed_eq_false waiting
            simpa [isClosed, present] using sourceOpen
          obtain ⟨candidates, pending_⟩ : ∃ candidates, info.pending = some candidates := by
            rw [pending_of_info? present] at waiting
            cases pending_ : info.pending with
            | none => simp [pending_] at waiting
            | some candidates => exact ⟨candidates, rfl⟩
          have left : (space.ensureMatches state).pending state = candidates := by
            rw [pending_of_info? present, pending_, Option.getD_some]
          rw [left] at waiting ⊢
          have offered := asked.pending_offered present pending_ candidate
            (List.mem_of_getElem? waiting)
          simp only [Option.map_some, graph_entry, engine_listing, RuleSystem.rewriting]
          cases outcome : R.apply (space.ensureMatches state).engine info.graph candidate with
          | mk result engine =>
              cases result with
              | error error => rfl
              | ok target =>
                  have reachable : R.Reachable (R.canonicalize target) :=
                    .apply (asked.reachable (graph?_eq_some.2 ⟨info, present, rfl⟩)) offered
                      (congrArg Prod.fst outcome)
                  have reminded : (space.ensureMatches state).Continues
                      { space.ensureMatches state with engine := engine } :=
                    asked.continues_of_same_entries rfl rfl rfl
                  have presentAfter : info? { space.ensureMatches state with engine := engine }
                      state = some info := present
                  cases recorded : recordApplication
                      { space.ensureMatches state with engine := engine } state position
                      (R.ruleName candidate) target with
                  | mk applied later =>
                      have recordedToo := listing_recordApplication reminded.wellFormed
                        presentAfter pending_ isOpen position (R.ruleName candidate) reachable
                        recorded
                      simp only [recorded]
                      exact congrArg (fun record => (Except.ok record.1, record.2)) recordedToo

/-! ## Requests -/

theorem answer_evolves (space : StateSpace R) (request : Request R.Graph R.Engine) :
    space.Evolves (space.answer request).2 := by
  cases request with
  | count state => exact .single (.ask space state)
  | pending state => exact .single (.ask space state)
  | apply state position => exact .single (.apply space state position)
  | lookup graph => exact .refl
  | drain => exact .single (.drain space)
  | remind engine => exact .single (.remind space engine)

theorem serve_evolves (space : StateSpace R) (requests : List (Request R.Graph R.Engine)) :
    space.Evolves (space.serve requests).2 := by
  induction requests generalizing space with
  | nil => exact .refl
  | cons request requests inductionHypothesis =>
      exact (space.answer_evolves request).trans (inductionHypothesis _)

theorem WellFormed.listing_answer {space : StateSpace R} (wellFormed : space.WellFormed)
    (request : Request R.Graph R.Engine) :
    space.listing.answer R.rewriting request =
      ((space.answer request).1, (space.answer request).2.listing) := by
  cases request with
  | count state =>
      rw [Listing.answer, ← wellFormed.listing_ensureMatches, pending_listing]
      rfl
  | pending state =>
      rw [Listing.answer, ← wellFormed.listing_ensureMatches, pending_listing]
      rfl
  | apply state position =>
      rw [Listing.answer, listing_applyMatch wellFormed]
      rfl
  | lookup graph =>
      rw [Listing.answer, RuleSystem.rewriting, ← wellFormed.lookup?_listing]
      rfl
  | drain => rfl
  | remind engine => rfl

/-- A state space answers any requests like its listing. -/
theorem WellFormed.listing_serve {space : StateSpace R} (wellFormed : space.WellFormed)
    (requests : List (Request R.Graph R.Engine)) :
    space.listing.serve R.rewriting requests =
      ((space.serve requests).1, (space.serve requests).2.listing) := by
  induction requests generalizing space with
  | nil => rfl
  | cons request requests inductionHypothesis =>
      have next := ((space.answer_evolves request).continues wellFormed).wellFormed
      simp only [Listing.serve, StateSpace.serve, wellFormed.listing_answer,
        inductionHypothesis next]

end StateSpace

end OnTheFly
