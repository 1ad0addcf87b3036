import OnTheFly.Exploration.Strategy
import OnTheFly.Strategy.Pool

/-!
Contract: exhaustive exploration, which closes one state after the other.

Owns: breadth-first and depth-first exploration, and the exploration of a
single state.

A state is queued once: when it is created, or when it is first reached as a
state from before the run. Closed states of an earlier run are visited only to
reach their successors. Transient states wait on a stack of their own, and the
pool is asked only when that stack is empty.
-/

set_option autoImplicit false

namespace OnTheFly

structure Closing where
  pool : Pool
  /-- Waiting transient states, the last one queued first. -/
  transient : List StateId := []
  next : Option StateId := none
deriving DecidableEq, Repr

namespace Closing

variable {R : RuleSystem} {A : Type} [Acceptor R A]

def breadthFirst : Closing := { pool := .breadth [] }

def depthFirst : Closing := { pool := .depth [] }

/-- Closes the start state and its transient successors only. -/
def singleState : Closing := { pool := .single none none }

def name (closing : Closing) : String :=
  match closing.pool with
  | .breadth _ => "bfs"
  | .depth _ => "dfs"
  | .single _ _ => "state"

def enqueue (closing : Closing) (space : StateSpace R) (state : StateId) : Closing :=
  if space.isTransient state then { closing with transient := state :: closing.transient }
  else { closing with pool := closing.pool.put state }

/-- Moves on to the next waiting state, transient ones first. -/
def advance (closing : Closing) : Closing :=
  match closing.transient with
  | state :: rest => { closing with transient := rest, next := some state }
  | [] =>
      let (state, pool) := closing.pool.take
      { closing with pool := pool, next := state }

/-- Queues a state that was there before the run, once. -/
def claim (closing : Closing) (run : Exploration R A) (state : StateId) :
    Closing × Exploration R A :=
  if run.isKnown state then (closing.enqueue run.space state, run.forgetKnown state)
  else (closing, run)

def claimAll (closing : Closing) (run : Exploration R A) (states : List StateId) :
    Closing × Exploration R A :=
  states.foldl (fun claimed state => claimed.1.claim claimed.2 state) (closing, run)

/-- Applies the first pending match `count` times and queues what is new. -/
def applyAndQueue (state : StateId) : Nat → Closing → Exploration R A →
    Except Failure Unit × Closing × Exploration R A
  | 0, closing, run => (.ok (), closing, run)
  | count + 1, closing, run =>
      match run.applyMatch state 0 with
      | (.error failure, run) => (.error failure, closing, run)
      | (.ok applied, run) =>
          applyAndQueue state count
            (if applied.fresh then closing.enqueue run.space applied.target else closing) run

def prepare (closing : Closing) (run : Exploration R A) : Closing × Exploration R A :=
  ({ pool := closing.pool.clear run.start, transient := [], next := some run.start },
    run.forgetKnown run.start)

/-- Closes the next state. If an application fails, the state stays next. -/
def doNext (closing : Closing) (run : Exploration R A) :
    Except Failure StateId × Closing × Exploration R A :=
  match closing.next with
  | none => (.ok run.start, closing, run)
  | some state =>
      let (closing, run) :=
        closing.claimAll run ((run.space.outgoing state).map (·.2.target))
      let (count, run) := run.pendingCount state
      match applyAndQueue state count closing run with
      | (.error failure, closing, run) => (.error failure, closing, run)
      | (.ok _, closing, run) => (.ok state, closing.advance, run)

instance : Strategy R Closing where
  name := Closing.name
  prepare closing run := (.ok (), closing.prepare run)
  hasNext closing := closing.next.isSome
  doNext := Closing.doNext

end Closing

end OnTheFly
