import OnTheFly.RuleSystem.Labelled
import OnTheFly.RuleSystem.Words
import OnTheFly.StateSpace.Growth

/-!
Contract: the first state space of a concrete system.

Owns: the state spaces of labelled systems and of word systems before
anything has been explored.
-/

set_option autoImplicit false

namespace OnTheFly

/-- A labelled system without nodes has no start graph, and so no state space. -/
def LabelledSystem.stateSpace? (system : LabelledSystem) : Option (StateSpace system.rules) :=
  if system.nodes.isEmpty then none
  else some (StateSpace.create system.rules system.interruptions)

def WordSystem.stateSpace (system : WordSystem) : StateSpace system.engine :=
  StateSpace.create system.engine system.interruptions

end OnTheFly
