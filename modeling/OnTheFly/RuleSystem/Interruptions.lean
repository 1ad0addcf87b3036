/-!
Contract: requests to abort the next applications of a rule.

Owns: scheduling such requests and using them up one at a time.
-/

set_option autoImplicit false

namespace OnTheFly

/-- How often the next applications of each rule are still to be aborted. -/
structure Interruptions where
  remaining : List (String × Nat) := []
deriving DecidableEq, Repr, Inhabited

namespace Interruptions

/-- Sets the number for a rule, in place of any earlier one. -/
def schedule (interruptions : Interruptions) (rule : String) (times : Nat) : Interruptions :=
  ⟨(rule, times) :: interruptions.remaining.filter (·.1 ≠ rule)⟩

def count (interruptions : Interruptions) (rule : String) : Nat :=
  (interruptions.remaining.lookup rule).getD 0

/-- Uses up one request for the rule, if there is one left. -/
def take? (interruptions : Interruptions) (rule : String) : Option Interruptions :=
  match interruptions.count rule with
  | 0 => none
  | times + 1 => some (interruptions.schedule rule times)

end Interruptions

end OnTheFly
