import OnTheFly.RuleSystem.Basic
import OnTheFly.RuleSystem.Interruptions

/-!
Contract: systems of string replacement rules as rule systems.

Owns: systems whose graphs are words, whose matches are the occurrences of a
left-hand side, and whose applications replace one occurrence.
-/

set_option autoImplicit false

namespace OnTheFly

abbrev Word := List Char

structure WordRule where
  name : String
  left : Word
  right : Word
  /-- The reason for which the rule always fails, if it does. -/
  failure : Option String := none
deriving DecidableEq, Repr

/-- An occurrence of the left-hand side of a rule. -/
structure WordMatch where
  rule : WordRule
  position : Nat
deriving DecidableEq, Repr

/-- What the fingerprint of a word depends on. -/
inductive WordHashing where
  | whole
  | length
  | nothing
deriving DecidableEq, Repr

/-- A system of string replacement rules. -/
structure WordSystem where
  start : Word
  rules : List WordRule
  /-- Whether words are identified up to the order of their characters. -/
  unordered : Bool := false
  /-- Rules that would make a word longer than this do not match it. -/
  maxLength : Option Nat := none
  hashing : WordHashing := .whole
  /-- A word with one of these characters is transient. -/
  transientMarks : List Char := []
  interruptions : Interruptions := {}
deriving Repr

namespace WordSystem

/-- The positions at which `pattern` occurs, in ascending order. -/
def occurrences (pattern word : Word) : List Nat :=
  (List.range (word.length + 1 - pattern.length)).filter fun position =>
    pattern.isPrefixOf (word.drop position)

def tooLong (system : WordSystem) (word : Word) (rule : WordRule) : Bool :=
  system.maxLength.any fun limit =>
    decide (limit < word.length - rule.left.length + rule.right.length)

def matchesOf (system : WordSystem) (word : Word) : List WordMatch :=
  (system.rules.filter fun rule => !system.tooLong word rule).flatMap fun rule =>
    (occurrences rule.left word).map fun position => ⟨rule, position⟩

def replace (word : Word) (candidate : WordMatch) : Word :=
  word.take candidate.position ++ candidate.rule.right ++
    word.drop (candidate.position + candidate.rule.left.length)

def apply (interruptions : Interruptions) (word : Word) (candidate : WordMatch) :
    Except ApplyError Word × Interruptions :=
  match interruptions.take? candidate.rule.name with
  | some fewer => (.error .interrupted, fewer)
  | none =>
      match candidate.rule.failure with
      | some reason => (.error (.failed candidate.rule.name reason), interruptions)
      | none => (.ok (replace word candidate), interruptions)

/-- Puts a letter in its place among letters in ascending order. -/
def insertLetter (letter : Char) : Word → Word
  | [] => [letter]
  | first :: rest =>
      if letter.toNat ≤ first.toNat then letter :: first :: rest
      else first :: insertLetter letter rest

def canonicalize (system : WordSystem) (word : Word) : Word :=
  if system.unordered then word.foldr insertLetter [] else word

def fingerprint (system : WordSystem) (word : Word) : Fingerprint :=
  match system.hashing with
  | .whole => Fingerprint.of (String.ofList word)
  | .length => Fingerprint.of word.length
  | .nothing => Fingerprint.of ()

/-- The engine of a word system. -/
def engine (system : WordSystem) : RuleSystem where
  Graph := Word
  Match := WordMatch
  Engine := Interruptions
  graphEq := inferInstance
  startGraph := system.start
  matchesOf := system.matchesOf
  apply := apply
  ruleName := (·.rule.name)
  isTransient := fun word => word.any system.transientMarks.contains
  nodeCount := List.length
  canonicalize := system.canonicalize
  fingerprint := system.fingerprint

end WordSystem

end OnTheFly
