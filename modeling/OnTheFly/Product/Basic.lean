import OnTheFly.Automaton.Basic
import OnTheFly.Product.Colour
import OnTheFly.StateSpace.Basic

/-!
Contract: the part of a synchronous product that a search has built.

Owns: product states, of which there is one for each pair of a system state
and a location, and the transitions between them. Both are numbered in order of
creation.
Does not own: which transitions a product has.
-/

set_option autoImplicit false

namespace OnTheFly

/-- Handle of a product state: its position. -/
structure ProductStateId where
  index : Nat
deriving DecidableEq, Repr, Inhabited

def ProductStateId.render (state : ProductStateId) : String :=
  s!"p{state.index}"

/-- Handle of a product transition: its position. -/
structure ProductTransitionId where
  index : Nat
deriving DecidableEq, Repr, Inhabited

/-- A system state together with a location. -/
structure ProductState where
  state : StateId
  location : LocationId
  colour : Colour := .unpainted
  /-- Whether the outgoing transitions are complete. -/
  closed : Bool := false
  /-- The iteration in which the state was created, or for which a transition
  into it was left. Nothing depends on it. -/
  iteration : Nat
  /-- Whether only finitely many system transitions can follow. -/
  pocket : Bool := false
  /-- The transition that created the state. -/
  origin : Option ProductTransitionId := none
  out : List ProductTransitionId := []
deriving DecidableEq, Repr

structure ProductTransition where
  source : ProductStateId
  /-- The system transition; there is none if the system stays where it is. -/
  via : Option TransitionId
  target : ProductStateId
deriving DecidableEq, Repr

/-- The order of pairs of positions by which product states are found. -/
abbrev pairOrder : Nat × Nat → Nat × Nat → Ordering :=
  compareLex (compareOn Prod.fst) (compareOn Prod.snd)

instance : Std.LawfulEqCmp pairOrder where
  eq_of_compare := by
    intro left right same
    simp only [compareLex, compareOn, Ordering.then_eq_eq, Nat.compare_eq_eq] at same
    exact Prod.ext same.1 same.2

structure Product where
  states : Array ProductState := #[]
  transitions : Array ProductTransition := #[]
  /-- The product state of each pair of positions of state and location. -/
  index : Std.TreeMap (Nat × Nat) ProductStateId pairOrder := ∅

namespace Product

/-- Forgets all states and transitions. -/
def clear (_ : Product) : Product :=
  {}

def size (product : Product) : Nat :=
  product.states.size

def state? (product : Product) (state : ProductStateId) : Option ProductState :=
  product.states[state.index]?

def transition? (product : Product) (transition : ProductTransitionId) :
    Option ProductTransition :=
  product.transitions[transition.index]?

def colour (product : Product) (state : ProductStateId) : Colour :=
  ((product.state? state).map (·.colour)).getD .unpainted

def isClosed (product : Product) (state : ProductStateId) : Bool :=
  (product.state? state).any (·.closed)

def isPocket (product : Product) (state : ProductStateId) : Bool :=
  (product.state? state).any (·.pocket)

def systemState (product : Product) (state : ProductStateId) : StateId :=
  ((product.state? state).map (·.state)).getD default

def location (product : Product) (state : ProductStateId) : LocationId :=
  ((product.state? state).map (·.location)).getD default

/-- Handles of the outgoing transitions, in order. -/
def out (product : Product) (state : ProductStateId) : List ProductTransitionId :=
  ((product.state? state).map (·.out)).getD []

/-- The outgoing transitions with their handles, in order. -/
def outgoing (product : Product) (state : ProductStateId) :
    List (ProductTransitionId × ProductTransition) :=
  (product.out state).filterMap fun handle =>
    (product.transition? handle).map fun transition => (handle, transition)

def find? (product : Product) (state : StateId) (location : LocationId) :
    Option ProductStateId :=
  product.index[(state.index, location.index)]?

def modify (product : Product) (state : ProductStateId) (change : ProductState → ProductState) :
    Product :=
  { product with states := product.states.modify state.index change }

def paint (product : Product) (state : ProductStateId) (colour : Colour) : Product :=
  product.modify state ({ · with colour := colour })

/-- The product state of a pair, made if needed, and whether it is new. -/
def addState (product : Product) (state : StateId) (location : LocationId) (iteration : Nat) :
    (ProductStateId × Bool) × Product :=
  match product.find? state location with
  | some existing => ((existing, false), product)
  | none =>
      let handle : ProductStateId := ⟨product.states.size⟩
      ((handle, true),
        { product with
          states := product.states.push
            { state := state, location := location, iteration := iteration }
          index := product.index.insert (state.index, location.index) handle })

/-- Adds a transition from `source` to the product state of a pair, which is
made if needed; a target that it created remembers it. -/
def addSuccessor (product : Product) (source : ProductStateId) (via : Option TransitionId)
    (state : StateId) (location : LocationId) (iteration : Nat) :
    (ProductTransitionId × Bool) × Product :=
  let ((target, fresh), product) := product.addState state location iteration
  let handle : ProductTransitionId := ⟨product.transitions.size⟩
  let product :=
    { product with transitions := product.transitions.push ⟨source, via, target⟩ }
  let product := product.modify source fun entry => { entry with out := entry.out ++ [handle] }
  let product :=
    if fresh then product.modify target ({ · with origin := some handle }) else product
  ((handle, fresh), product)

end Product

end OnTheFly
