import OnTheFly.RuleSystem.Fingerprint

/-!
Contract: graph transformation engines, seen as generators of matches.

Owns: what an engine offers to a state space, and how one application fails.
Does not own: any particular engine.

An engine may carry a state of its own from one application to the next, such
as requests to abort it. All else about it is a function of the graph.
-/

set_option autoImplicit false

namespace OnTheFly

/-- Failure of one application of a match. -/
inductive ApplyError where
  /-- The engine was cancelled. Trying again may succeed. -/
  | interrupted
  | failed (rule : String) (reason : String)
deriving DecidableEq, Repr

def ApplyError.message : ApplyError → String
  | .interrupted => "match application interrupted"
  | .failed rule reason => s!"rule '{rule}' could not be applied: {reason}"

/-- A transformation engine. States are identified by their graphs after
`canonicalize`, so an engine collapses isomorphic graphs by returning one
representative for all of them. -/
structure RuleSystem where
  Graph : Type
  Match : Type
  /-- What the engine remembers between applications. -/
  Engine : Type
  graphEq : DecidableEq Graph
  startGraph : Graph
  /-- All matches of all rules, in the order in which they are offered. -/
  matchesOf : Graph → List Match
  apply : Engine → Graph → Match → Except ApplyError Graph × Engine
  /-- The label of the transition, and the proposition that it makes true. -/
  ruleName : Match → String
  /-- Intermediate results, to be explored before anything else. -/
  isTransient : Graph → Bool := fun _ => false
  nodeCount : Graph → Nat
  canonicalize : Graph → Graph := id
  fingerprint : Graph → Fingerprint

instance (R : RuleSystem) : DecidableEq R.Graph := R.graphEq

end OnTheFly
