import OnTheFly.NameSet

/-!
Contract: conjunctions of proposition literals.

Owns: the guard of an automaton transition, the sets of propositions that
enable it, and its text.
-/

set_option autoImplicit false

namespace OnTheFly

/-- A conjunction of literals: every name of `positive` holds and no name of
`negative` does. -/
structure Guard where
  positive : NameSet := ∅
  negative : NameSet := ∅
deriving DecidableEq, Repr

namespace Guard

/-- The guard without literals, which every set of propositions enables. -/
def always : Guard := {}

/-- Adds a positive literal. -/
def require (guard : Guard) (proposition : String) : Guard :=
  { guard with positive := guard.positive.insert proposition }

/-- Adds a negative literal. -/
def forbid (guard : Guard) (proposition : String) : Guard :=
  { guard with negative := guard.negative.insert proposition }

def isAlways (guard : Guard) : Bool :=
  guard.positive.isEmpty && guard.negative.isEmpty

/-- Whether the guard holds when exactly the propositions `satisfied` are true. -/
def isEnabled (guard : Guard) (satisfied : NameSet) : Bool :=
  guard.positive.names.all satisfied.contains && !guard.negative.names.any satisfied.contains

/-- The least proposition that the guard both requires and forbids. -/
def contradiction? (guard : Guard) : Option String :=
  guard.positive.names.find? guard.negative.contains

/-- The literals as they are written, the positive ones first. -/
def literals (guard : Guard) : List String :=
  guard.positive.names ++ guard.negative.names.map ("!" ++ ·)

def render (guard : Guard) : String :=
  if guard.isAlways then "true" else String.intercalate " && " guard.literals

theorem isEnabled_iff {guard : Guard} {satisfied : NameSet} :
    guard.isEnabled satisfied = true ↔
      (∀ name ∈ guard.positive, name ∈ satisfied) ∧
        ∀ name ∈ guard.negative, ¬ name ∈ satisfied := by
  simp [isEnabled, NameSet.mem_iff, NameSet.contains]

end Guard

end OnTheFly
