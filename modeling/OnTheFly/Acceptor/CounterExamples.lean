import OnTheFly.Acceptor.Basic

/-!
Contract: the acceptor of counterexamples.

Owns: collecting the reported paths, and being done after a wanted number.
-/

set_option autoImplicit false

namespace OnTheFly

structure CounterExamples where
  /-- How many counterexamples are enough; zero asks for all of them. -/
  wanted : Nat := 1
  /-- The states of all paths. -/
  answers : Answers := {}
  paths : List (List StateId) := []
deriving DecidableEq, Repr

namespace CounterExamples

def add (acceptor : CounterExamples) (path : List StateId) : CounterExamples :=
  { acceptor with
    answers := acceptor.answers.recordAll path
    paths := acceptor.paths ++ [path] }

def isDone (acceptor : CounterExamples) : Bool :=
  0 < acceptor.wanted && acceptor.wanted ≤ acceptor.paths.length

def message (acceptor : CounterExamples) : String :=
  match acceptor.paths with
  | [] => "no counterexample found"
  | path :: _ => s!"counterexample of length {path.length} ({acceptor.paths.length} found)"

instance {R : RuleSystem} : Acceptor R CounterExamples where
  prepare _ acceptor := { acceptor with answers := acceptor.answers.clear, paths := [] }
  addState state acceptor := { acceptor with answers := acceptor.answers.record state }
  addCounterExample path acceptor := acceptor.add path
  answers := CounterExamples.answers
  done := isDone
  message := CounterExamples.message

end CounterExamples

end OnTheFly
