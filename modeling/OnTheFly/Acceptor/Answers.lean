import OnTheFly.StateSpace.Basic

/-!
Contract: states collected as answers, each once and in order.

Owns: recording a state, and when enough of them have been recorded.

One list serves both purposes, the order of the answers and the question
whether a state is among them. A set kept beside it for the question would
always have the same members, since a state is added to both or to neither and
both are cleared together.
-/

set_option autoImplicit false

namespace OnTheFly

/-- Answers in the order in which they were recorded. -/
structure Answers where
  states : List StateId := []
  /-- The number of answers that is enough; zero asks for all of them. -/
  bound : Nat := 0
deriving DecidableEq, Repr

namespace Answers

def contains (answers : Answers) (state : StateId) : Bool :=
  answers.states.contains state

/-- Records a state, and says whether it is new. -/
def add (answers : Answers) (state : StateId) : Bool × Answers :=
  if answers.contains state then (false, answers)
  else (true, { answers with states := answers.states ++ [state] })

/-- Records a state. -/
def record (answers : Answers) (state : StateId) : Answers :=
  (answers.add state).2

def recordAll (answers : Answers) (states : List StateId) : Answers :=
  states.foldl record answers

def size (answers : Answers) : Nat :=
  answers.states.length

def isDone (answers : Answers) : Bool :=
  0 < answers.bound && answers.bound ≤ answers.size

/-- Forgets the states and keeps the bound. -/
def clear (answers : Answers) : Answers :=
  { answers with states := [] }

end Answers

end OnTheFly
