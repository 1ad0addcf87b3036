import OnTheFly.Exploration.Failure
import OnTheFly.Product.Colour
import OnTheFly.Text.Quoted

/-!
Contract: boundaries, which limit one iteration of a bounded search.

Owns: when a transition crosses a boundary, how crossings on the search path
are counted, and how a boundary is relaxed for the next iteration.

A search keeps a prototype and makes an instance of it for each run; only
instances may be asked.
-/

set_option autoImplicit false

namespace OnTheFly

/-- What a boundary objects to. -/
inductive Limit where
  /-- Graphs with more than `current` nodes. It starts at `initial` and grows
  by `step` with every iteration. -/
  | nodeCount (initial step current : Nat)
  /-- The rules of a set. -/
  | ruleSet (forbidden : NameSet)
deriving DecidableEq, Repr

structure Boundary where
  limit : Limit
  /-- Counted crossings on the search path. -/
  depth : Nat := 0
  prototype : Bool := true
deriving DecidableEq, Repr

namespace Boundary

variable {R : RuleSystem}

def nodeCount (limit step : Nat) : Boundary :=
  { limit := .nodeCount limit step limit }

def ruleSet (rules : List String) : Boundary :=
  { limit := .ruleSet (NameSet.ofList rules) }

/-- A fresh instance for one run. -/
def instantiate (boundary : Boundary) : Boundary :=
  { limit :=
      match boundary.limit with
      | .nodeCount initial step _ => .nodeCount initial step initial
      | .ruleSet forbidden => .ruleSet forbidden
    depth := 0
    prototype := false }

/-- Whether a rule is in the set of a rule boundary. -/
def isForbidden (boundary : Boundary) (rule : String) : Bool :=
  match boundary.limit with
  | .nodeCount _ _ _ => false
  | .ruleSet forbidden => forbidden.contains rule

def setDepth (boundary : Boundary) (depth : Nat) : Boundary :=
  { boundary with depth := depth }

/-- Counts one more crossing. A search does so only while the depth is below the
number of its iteration, so there it does not overflow. -/
def raiseDepth (boundary : Boundary) : Boundary :=
  boundary.setDepth (boundary.depth + 1)

/-- The same on top of any depth that may have been set. -/
def increaseDepth (boundary : Boundary) : Except Breach Boundary :=
  match addCounters boundary.depth 1 with
  | .error breach => .error breach
  | .ok _ => .ok boundary.raiseDepth

/-- Whether a transition crosses, with the boundary afterwards. In iteration
`k` the first `k - 2` forbidden applications on the path do not cross a rule
boundary; they count towards the depth if the search traverses them. -/
def crossing (boundary : Boundary) (round : Round) (space : StateSpace R)
    (transition : Transition) (traverse : Bool) : Except Breach (Bool × Boundary) :=
  if boundary.prototype then .error .prototypeInUse
  else
    match boundary.limit with
    | .nodeCount _ _ current => .ok (current < space.nodeCount transition.target, boundary)
    | .ruleSet forbidden =>
        if !forbidden.contains transition.rule then .ok (false, boundary)
        else if round.iteration - 2 ≤ boundary.depth then .ok (true, boundary)
        else .ok (false, if traverse then boundary.raiseDepth else boundary)

/-- Relaxes the boundary for the next iteration. -/
def increase (boundary : Boundary) : Except Breach Boundary :=
  match boundary.limit with
  | .nodeCount initial step current =>
      match addCounters current step with
      | .error breach => .error breach
      | .ok relaxed => .ok { boundary with limit := .nodeCount initial step relaxed }
  | .ruleSet _ => .ok boundary

/-- Takes back what one counted transition added to the depth. -/
def backtrack (boundary : Boundary) : Except Breach Boundary :=
  if boundary.depth = 0 then .error .depthUnderflow
  else .ok (boundary.setDepth (boundary.depth - 1))

/-- One line on the boundary. -/
def describe (boundary : Boundary) : String :=
  match boundary.limit with
  | .nodeCount initial step current =>
      s!"NodeCountBoundary \x7b initial: {initial}, step: {step}, limit: {current}, " ++
        s!"depth: {boundary.depth}, prototype: {boundary.prototype} \x7d"
  | .ruleSet forbidden =>
      "RuleSetBoundary \x7b forbidden: \x7b" ++
        String.intercalate ", " (forbidden.names.map Text.quoted) ++
        s!"\x7d, depth: {boundary.depth}, prototype: {boundary.prototype} \x7d"

end Boundary

end OnTheFly
