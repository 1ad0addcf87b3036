import OnTheFly.Automaton.Format
import OnTheFly.ModelCheck.Search
import OnTheFly.Random.Chooser

/-!
Contract: on-the-fly model checking by depth-first search over the product.

Owns: the plain search, which visits each product state once and chooses among
unexplored successors at random.
-/

set_option autoImplicit false

namespace OnTheFly

structure LtlSearch (G : Type) where
  search : Search
  chooser : G

namespace LtlSearch

variable {R : RuleSystem} {G A : Type} [Chooser G] [Acceptor R A]

/-- A search for runs that the automaton accepts. Without an automaton it
cannot be prepared. -/
def create (automaton : Option Automaton) : LtlSearch G :=
  { search := { automaton := automaton }, chooser := Chooser.seeded 0 }

def setAutomaton (ltl : LtlSearch G) (automaton : Automaton) : LtlSearch G :=
  { ltl with search := { ltl.search with automaton := some automaton } }

/-- Installs the automaton that a text describes. -/
def setProperty (ltl : LtlSearch G) (text : String) : Except ExploreError (LtlSearch G) :=
  match Automaton.parse text with
  | .error wrong => .error (.property wrong)
  | .ok automaton => .ok (ltl.setAutomaton automaton)

/-- The outgoing transitions that lead to unexplored states. -/
def candidates (search : Search) (state : ProductStateId) : List ProductTransition :=
  ((search.product.outgoing state).map (·.2)).filter fun transition =>
    !search.round.isExplored (search.product.colour transition.target)

/-- Walks back along `stack` to the first frame with an unexplored successor,
and makes one such successor next. Frames on the way are closed and blue. -/
def retreat : List Frame → LtlSearch G → LtlSearch G
  | [], ltl => { ltl with search := { ltl.search with stack := [], next := none } }
  | top :: rest, ltl =>
      match Chooser.choose (candidates ltl.search top.state) ltl.chooser with
      | (some transition, chooser) =>
          { search := { ltl.search with
              stack := top :: rest
              next := some { state := transition.target, via := transition.via } }
            chooser := chooser }
      | (none, chooser) =>
          let product := ltl.search.product.modify top.state
            ({ · with closed := true, colour := ltl.search.round.blue })
          retreat rest { search := { ltl.search with product := product }, chooser := chooser }

/-- Expands a frame that has just been entered, and reports a counterexample or
moves on. -/
def explore (ltl : LtlSearch G) (run : Exploration R A) (state : ProductStateId) :
    LtlSearch G × Exploration R A :=
  if (ltl.search.product.out state).any ltl.search.closesCycle then
    let (search, run) := ltl.search.report run
    ({ ltl with search := search }, run)
  else (retreat ltl.search.stack ltl, run)

def prepare (ltl : LtlSearch G) (run : Exploration R A) : Except ExploreError (LtlSearch G) :=
  match ltl.search.reset run.start with
  | .error error => .error error
  | .ok search => .ok { search := search, chooser := Chooser.seeded run.config.seed }

/-- Enters the next frame. If its system state cannot be closed, it stays next. -/
def doNext (ltl : LtlSearch G) (run : Exploration R A) :
    Except Failure StateId × LtlSearch G × Exploration R A :=
  match ltl.search.next with
  | none => (.ok run.start, ltl, run)
  | some frame =>
      let system := ltl.search.product.systemState frame.state
      match run.closeState system with
      | (.error failure, run) => (.error failure, ltl, run)
      | (.ok _, run) =>
          match ltl.search.enter frame with
          | .error breach => (.error (.breach breach), ltl, run)
          | .ok entered =>
              let run := run.track ({ · with stackDepth := entered.stack.length })
              match entered.expand run.space frame.state with
              | .error breach => (.error (.breach breach), { ltl with search := entered }, run)
              | .ok expanded =>
                  (.ok system, explore { ltl with search := expanded } run frame.state)

instance : Strategy R (LtlSearch G) where
  name _ := "ltl"
  prepare ltl run :=
    match ltl.prepare run with
    | .error error => (.error error, ltl, run)
    | .ok prepared => (.ok (), prepared, run)
  hasNext ltl := ltl.search.next.isSome
  doNext := LtlSearch.doNext

end LtlSearch

end OnTheFly
