import OnTheFly.Product.Basic

/-!
Contract: the transitions of the synchronous product.

Owns: the steps that lead from a pair of a closed system state and a location
to other pairs, and adding them to a product.

The automaton moves by a transition that the labels of all outgoing system
transitions enable, self-loops included. With it the system moves to another
state, or stays where it is if it cannot.
-/

set_option autoImplicit false

namespace OnTheFly

/-- One step of the product, to a state and a location. -/
structure ProductStep where
  via : Option TransitionId
  state : StateId
  location : LocationId
deriving DecidableEq, Repr

variable {R : RuleSystem}

/-- How the system can move: along each transition to another state, or by
staying put if there is none. -/
def systemSteps (space : StateSpace R) (state : StateId) : List (Option TransitionId × StateId) :=
  match space.moves state with
  | [] => [(none, state)]
  | moves => moves.map fun entry => (some entry.1, entry.2.target)

/-- The steps from a system state and a location, in the order of the automaton
first. -/
def productSteps (space : StateSpace R) (state : StateId) (location : Location) :
    List ProductStep :=
  (Automaton.enabledTargets location (space.outLabels state)).flatMap fun target =>
    (systemSteps space state).map fun step => ⟨step.1, step.2, target⟩

/-- Adds steps from `source` in order. -/
def Product.addSteps (product : Product) (source : ProductStateId) (iteration : Nat)
    (steps : List ProductStep) : Product :=
  steps.foldl
    (fun product step =>
      (product.addSuccessor source step.via step.state step.location iteration).2)
    product

end OnTheFly
