import OnTheFly.StateSpace.Basic

/-!
Contract: the operations by which a state space grows.

Owns: adding a state, asking for the matches of a state, applying a match,
closing a state, and taking the queued events.

A match that fails stays pending. A state closes when its last match has been
applied, or at once when it has none.
-/

set_option autoImplicit false

namespace OnTheFly

/-- The result of a successful application. -/
structure Applied where
  transition : TransitionId
  target : StateId
  /-- Whether the application added the target. -/
  fresh : Bool
deriving DecidableEq, Repr

/-- Why a match was not applied. -/
inductive MatchFailure where
  /-- The state has no pending match at that position. -/
  | outOfRange (position : Nat) (state : StateId)
  | refused (error : ApplyError)
deriving DecidableEq, Repr

namespace StateSpace

variable {R : RuleSystem}

def modifyState (space : StateSpace R) (state : StateId) (change : StateInfo R → StateInfo R) :
    StateSpace R :=
  { space with states := space.states.modify state.index change }

/-- Queues an event. -/
def notify (space : StateSpace R) (event : Event) : StateSpace R :=
  { space with events := space.events ++ [event] }

/-- Adds a state for a graph that is not stored yet. -/
def addState (space : StateSpace R) (graph : R.Graph) (depth : Nat) : StateSpace R :=
  let key := (R.fingerprint graph).value
  let bucket := space.index.getD key []
  let state : StateId := ⟨space.states.size⟩
  { space with
    states := space.states.push { graph := graph, depth := depth }
    index := space.index.insert key (bucket ++ [state])
    collisions := if bucket.isEmpty then space.collisions else space.collisions + 1
    events := space.events ++ [.stateAdded state] }

/-- The state of a canonical graph, added if needed, and whether it is new. -/
def insert (space : StateSpace R) (graph : R.Graph) (depth : Nat) :
    (StateId × Bool) × StateSpace R :=
  match space.findStored? graph with
  | some existing => ((existing, false), space)
  | none => ((⟨space.states.size⟩, true), space.addState graph depth)

/-- The state space that holds only the start graph, which is stored as it is. -/
def create (R : RuleSystem) (engine : R.Engine) : StateSpace R :=
  addState { engine := engine } R.startGraph 0

def close (space : StateSpace R) (state : StateId) : StateSpace R :=
  if space.isClosed state then space
  else
    (space.modifyState state ({ · with closed := true, pending := some [] })).notify
      (.stateClosed state)

/-- Asks the engine for the matches of a state, on first use. -/
def ensureMatches (space : StateSpace R) (state : StateId) : StateSpace R :=
  match space.info? state with
  | none => space
  | some info =>
      if info.pending.isSome || info.closed then space
      else
        let found := R.matchesOf info.graph
        let space := space.modifyState state ({ · with pending := some found })
        if found.isEmpty then space.close state else space

/-- The matches of a state still to be applied. -/
def pendingMatches (space : StateSpace R) (state : StateId) : List R.Match × StateSpace R :=
  let space := space.ensureMatches state
  (space.pending state, space)

def pendingCount (space : StateSpace R) (state : StateId) : Nat × StateSpace R :=
  let space := space.ensureMatches state
  ((space.pending state).length, space)

/-- Closes a state that has nothing left to apply. -/
def closeIfDone (space : StateSpace R) (state : StateId) : StateSpace R :=
  if (space.pending state).isEmpty then space.close state else space

/-- Adds a transition; a target that it created remembers it. -/
def addTransition (space : StateSpace R) (transition : Transition) (fresh : Bool) :
    StateSpace R :=
  let handle : TransitionId := ⟨space.transitions.size⟩
  let space := { space with transitions := space.transitions.push transition }
  let space := space.modifyState transition.source fun info =>
    { info with out := info.out ++ [handle] }
  let space :=
    if fresh then space.modifyState transition.target ({ · with incoming := some handle })
    else space
  space.notify (.transitionAdded handle)

/-- Records that the match at `position` led from `state` to `graph`. -/
def recordApplication (space : StateSpace R) (state : StateId) (position : Nat) (rule : String)
    (graph : R.Graph) : Applied × StateSpace R :=
  let depth := space.depth state + 1
  let space := space.modifyState state fun info =>
    { info with pending := info.pending.map (·.eraseIdx position) }
  let ((target, fresh), space) := space.insert (R.canonicalize graph) depth
  let handle : TransitionId := ⟨space.transitions.size⟩
  let space := space.addTransition ⟨state, target, rule⟩ fresh
  (⟨handle, target, fresh⟩, space.closeIfDone state)

/-- Applies the pending match at `position` of `state`. -/
def applyMatch (space : StateSpace R) (state : StateId) (position : Nat) :
    Except MatchFailure Applied × StateSpace R :=
  let space := space.ensureMatches state
  match (space.pending state)[position]?, space.graph? state with
  | some candidate, some graph =>
      match R.apply space.engine graph candidate with
      | (.error error, engine) => (.error (.refused error), { space with engine := engine })
      | (.ok target, engine) =>
          let (applied, space) := ({ space with engine := engine }).recordApplication state
            position (R.ruleName candidate) target
          (.ok applied, space)
  | _, _ => (.error (.outOfRange position state), space)

/-- Takes all queued events. -/
def drainEvents (space : StateSpace R) : List Event × StateSpace R :=
  (space.events, { space with events := [] })

end StateSpace

end OnTheFly
