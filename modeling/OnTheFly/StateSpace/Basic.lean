import Std.Data.TreeMap
import OnTheFly.NameSet
import OnTheFly.RuleSystem.Basic

/-!
Contract: explicit state spaces that grow one rule application at a time.

Owns: states, transitions, change events, and the questions that can be asked
of a state space without changing it.
Does not own: the operations by which it grows.

States and transitions are numbered in order of creation and never removed.

Here and elsewhere a handle is a natural number, and so is the number of an
iteration. It is assumed throughout that there are fewer than `2 ^ 32` states,
transitions, locations, product states and iterations each, so that 32 bits are
enough for any of them.
-/

set_option autoImplicit false

namespace OnTheFly

/-- Handle of a state: its position in the state space. -/
structure StateId where
  index : Nat
deriving DecidableEq, Repr, Inhabited

def StateId.render (state : StateId) : String :=
  s!"s{state.index}"

/-- Handle of a transition: its position in the state space. -/
structure TransitionId where
  index : Nat
deriving DecidableEq, Repr, Inhabited

def TransitionId.render (transition : TransitionId) : String :=
  s!"t{transition.index}"

/-- The result of one rule application. -/
structure Transition where
  source : StateId
  target : StateId
  rule : String
deriving DecidableEq, Repr

def Transition.isSelfLoop (transition : Transition) : Bool :=
  transition.source = transition.target

structure StateInfo (R : RuleSystem) where
  graph : R.Graph
  /-- Whether every match has been applied. -/
  closed : Bool := false
  /-- Length of the path on which the state was discovered. -/
  depth : Nat
  /-- The transition that created the state; the start state has none. -/
  incoming : Option TransitionId := none
  /-- Matches still to be applied, once they have been asked for. -/
  pending : Option (List R.Match) := none
  /-- Outgoing transitions in the order in which they were added. -/
  out : List TransitionId := []

/-- A change of the state space. -/
inductive Event where
  | stateAdded (state : StateId)
  | transitionAdded (transition : TransitionId)
  | stateClosed (state : StateId)
deriving DecidableEq, Repr

def Event.render : Event → String
  | .stateAdded state => s!"added {state.render}"
  | .transitionAdded transition => s!"transition {transition.render}"
  | .stateClosed state => s!"closed {state.render}"

/-- A state space over the rules `R`. -/
structure StateSpace (R : RuleSystem) where
  engine : R.Engine
  states : Array (StateInfo R) := #[]
  transitions : Array Transition := #[]
  /-- The states of each fingerprint, in order of creation. -/
  index : Std.TreeMap UInt64 (List StateId) := ∅
  /-- How many states were added under a fingerprint already in use. -/
  collisions : Nat := 0
  /-- Changes nobody has taken note of yet, oldest first. -/
  events : List Event := []

namespace StateSpace

variable {R : RuleSystem}

def startState : StateId := ⟨0⟩

def size (space : StateSpace R) : Nat :=
  space.states.size

def contains (space : StateSpace R) (state : StateId) : Bool :=
  state.index < space.states.size

/-- All states in order of creation. -/
def stateIds (space : StateSpace R) : List StateId :=
  (List.range space.states.size).map StateId.mk

def info? (space : StateSpace R) (state : StateId) : Option (StateInfo R) :=
  space.states[state.index]?

def graph? (space : StateSpace R) (state : StateId) : Option R.Graph :=
  (space.info? state).map (·.graph)

def isClosed (space : StateSpace R) (state : StateId) : Bool :=
  (space.info? state).any (·.closed)

def isTransient (space : StateSpace R) (state : StateId) : Bool :=
  (space.graph? state).any R.isTransient

def nodeCount (space : StateSpace R) (state : StateId) : Nat :=
  ((space.graph? state).map R.nodeCount).getD 0

def depth (space : StateSpace R) (state : StateId) : Nat :=
  ((space.info? state).map (·.depth)).getD 0

/-- Handles of the outgoing transitions, in order. -/
def out (space : StateSpace R) (state : StateId) : List TransitionId :=
  ((space.info? state).map (·.out)).getD []

def transition? (space : StateSpace R) (transition : TransitionId) : Option Transition :=
  space.transitions[transition.index]?

/-- The outgoing transitions with their handles, in order. -/
def outgoing (space : StateSpace R) (state : StateId) : List (TransitionId × Transition) :=
  (space.out state).filterMap fun handle =>
    (space.transition? handle).map fun transition => (handle, transition)

/-- The outgoing transitions that lead to another state. -/
def moves (space : StateSpace R) (state : StateId) : List (TransitionId × Transition) :=
  (space.outgoing state).filter fun entry => !entry.2.isSelfLoop

/-- The labels of the outgoing transitions, self-loops included. -/
def outLabels (space : StateSpace R) (state : StateId) : NameSet :=
  NameSet.ofList ((space.outgoing state).map (·.2.rule))

/-- The state under a fingerprint that holds exactly this graph. -/
def findStored? (space : StateSpace R) (graph : R.Graph) : Option StateId :=
  ((space.index.getD (R.fingerprint graph).value []).find?) fun state =>
    space.graph? state = some graph

/-- The state that holds the canonical representative of `graph`. -/
def lookup? (space : StateSpace R) (graph : R.Graph) : Option StateId :=
  space.findStored? (R.canonicalize graph)

/-- The matches of a state that are known and not yet applied. -/
def pending (space : StateSpace R) (state : StateId) : List R.Match :=
  ((space.info? state).bind (·.pending)).getD []

/-- The transition that created the state. -/
def incoming? (space : StateSpace R) (state : StateId) : Option Transition :=
  ((space.info? state).bind (·.incoming)).bind space.transition?

/-- The discovery path that ends in `state`, at most `length` states long. -/
def traceWithin (space : StateSpace R) : Nat → StateId → List (StateId × Option String)
  | 0, _ => []
  | length + 1, state =>
      match space.incoming? state with
      | none => [(state, none)]
      | some entering =>
          space.traceWithin length entering.source ++ [(state, some entering.rule)]

/-- The path on which `state` was discovered: its states from the start state
on, each with the label of the transition that entered it. The source of such
a transition is older than its target, which bounds the length. -/
def traceTo (space : StateSpace R) (state : StateId) : List (StateId × Option String) :=
  space.traceWithin (state.index + 1) state

/-- One line on the state space of the rules called `rules`. -/
def describe (space : StateSpace R) (rules : String) : String :=
  s!"Gts \x7b rules: {rules}, states: {space.size}, " ++
    s!"transitions: {space.transitions.size}, collisions: {space.collisions} \x7d"

end StateSpace

end OnTheFly
