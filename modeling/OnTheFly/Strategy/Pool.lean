import OnTheFly.StateSpace.Basic

/-!
Contract: pools of states that wait to be processed.

Owns: the three orders in which waiting states are taken.
-/

set_option autoImplicit false

namespace OnTheFly

inductive Pool where
  /-- First in, first out; the front of the queue comes first. -/
  | breadth (queue : List StateId)
  /-- Last in, first out; the top of the stack comes first. -/
  | depth (stack : List StateId)
  /-- Holds the one state that it accepts, or nothing. -/
  | single (accepts slot : Option StateId)
deriving DecidableEq, Repr

namespace Pool

def take : Pool → Option StateId × Pool
  | .breadth [] => (none, .breadth [])
  | .breadth (state :: queue) => (some state, .breadth queue)
  | .depth [] => (none, .depth [])
  | .depth (state :: stack) => (some state, .depth stack)
  | .single accepts slot => (slot, .single accepts none)

def put (state : StateId) : Pool → Pool
  | .breadth queue => .breadth (queue ++ [state])
  | .depth stack => .depth (state :: stack)
  | .single accepts slot => .single accepts (if accepts = some state then some state else slot)

/-- The empty pool for a run from `start`. -/
def clear (start : StateId) : Pool → Pool
  | .breadth _ => .breadth []
  | .depth _ => .depth []
  | .single _ _ => .single (some start) none

/-- The waiting states in the order in which they would be taken. -/
def waiting : Pool → List StateId
  | .breadth queue => queue
  | .depth stack => stack
  | .single _ slot => slot.toList

def size (pool : Pool) : Nat :=
  pool.waiting.length

end Pool

end OnTheFly
