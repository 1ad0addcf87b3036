import OnTheFly.Automaton.Draft
import OnTheFly.Text.Alphanumeric
import OnTheFly.Text.Blank
import OnTheFly.Text.Split

/-!
Contract: the line-oriented text format of automata.

Owns: what one line means, reading a text line by line, and writing an
automaton.

A line counts up to its first `#` and without the blanks around it. It is
empty, or `init` and a name, or `accept` and a name, or
`source -> target : guard`. A guard is `true` or literals joined by `&&`, each
a name or `!` and a name. Locations are declared by being mentioned, in order
of first mention.
-/

set_option autoImplicit false

namespace OnTheFly

open Text

/-- Letters and digits of any script, and three marks. -/
def isNameCharacter (character : Char) : Bool :=
  isAlphanumeric character || character == '_' || character == '-' || character == '.'

/-- What one line of the format says. -/
inductive Line where
  | empty
  | initial (name : String)
  | accepting (name : String)
  | edge (edge : DraftEdge)
deriving DecidableEq, Repr

namespace Line

/-- A name is one or more name characters. -/
def readName (text : List Char) : Except LineFault String :=
  if !text.isEmpty && text.all isNameCharacter then .ok (String.ofList text)
  else .error (.invalidName (String.ofList text))

/-- The parts of a guard between the marks `&&`; there is always at least one. -/
def conjuncts : List Char → List (List Char)
  | '&' :: '&' :: rest => [] :: conjuncts rest
  | character :: rest =>
      match conjuncts rest with
      | [] => [[character]]
      | part :: others => (character :: part) :: others
  | [] => [[]]

/-- Adds the literal that `text` spells. -/
def readLiteral (guard : Guard) (text : List Char) : Except LineFault Guard :=
  match trim text with
  | '!' :: proposition => (readName (trim proposition)).map guard.forbid
  | proposition => (readName proposition).map guard.require

/-- Adds the literals in order, up to the first that is wrong. -/
def readLiterals (guard : Guard) : List (List Char) → Except LineFault Guard
  | [] => .ok guard
  | text :: rest =>
      match readLiteral guard text with
      | .error fault => .error fault
      | .ok extended => readLiterals extended rest

def readGuard (text : List Char) : Except LineFault Guard :=
  if text = "true".toList then .ok .always else readLiterals .always (conjuncts text)

/-- A transition line, given its parts around the arrow. -/
def readEdge (source rest : List Char) : Except LineFault Line :=
  match cut? [':'] rest with
  | none => .error .missingColon
  | some (target, guard) =>
      match readName (trim source) with
      | .error fault => .error fault
      | .ok source =>
          match readName (trim target) with
          | .error fault => .error fault
          | .ok target =>
              match readGuard (trim guard) with
              | .error fault => .error fault
              | .ok guard => .ok (.edge ⟨source, guard, target⟩)

/-- A line without comment and surrounding blanks. -/
def readTrimmed (text : List Char) : Except LineFault Line :=
  if text.isEmpty then .ok .empty
  else
    match afterStart? "init ".toList text with
    | some name => (readName (trim name)).map .initial
    | none =>
        match afterStart? "accept ".toList text with
        | some name => (readName (trim name)).map .accepting
        | none =>
            match cut? "->".toList text with
            | some (source, rest) => readEdge source rest
            | none => .error (.unrecognised (String.ofList text))

def read (text : List Char) : Except LineFault Line :=
  readTrimmed (trim (before '#' text))

def isInitial : Line → Bool
  | .initial _ => true
  | _ => false

/-- The locations that the line mentions. -/
def mentions : Line → List String
  | .empty => []
  | .initial name => [name]
  | .accepting name => [name]
  | .edge written => [written.source, written.target]

def initial? : Line → Option String
  | .initial name => some name
  | _ => none

def accepting? : Line → Option String
  | .accepting name => some name
  | _ => none

def edge? : Line → Option DraftEdge
  | .edge written => some written
  | _ => none

end Line

/-- The names in order of first mention, after those already in `earlier`. -/
def firstMentions (earlier : List String) : List String → List String
  | [] => earlier
  | name :: rest =>
      firstMentions (if name ∈ earlier then earlier else earlier ++ [name]) rest

namespace Draft

/-- The draft that the lines of a text describe together. -/
def ofLines (lines : List Line) : Draft where
  locations := (firstMentions [] (lines.flatMap Line.mentions)).map fun name =>
    ⟨name, (lines.filterMap Line.accepting?).contains name⟩
  initial := lines.findSome? Line.initial?
  edges := lines.filterMap Line.edge?

end Draft

namespace Automaton

/-- Reads lines numbered from `number`. The first malformed line decides the
error; a second `init` line is malformed. -/
def readLines (number : Nat) (initialSeen : Bool) :
    List (List Char) → Except AutomatonError (List Line)
  | [] => .ok []
  | text :: rest =>
      match Line.read text with
      | .error fault => .error (.syntaxError number fault)
      | .ok line =>
          if initialSeen && line.isInitial then .error (.syntaxError number .secondInitial)
          else
            match readLines (number + 1) (initialSeen || line.isInitial) rest with
            | .error wrong => .error wrong
            | .ok others => .ok (line :: others)

/-- The automaton that a text describes. -/
def parse (text : String) : Except AutomatonError Automaton :=
  match readLines 1 false (lines text.toList) with
  | .error wrong => .error wrong
  | .ok lines => (Draft.ofLines lines).build

def nameOf (automaton : Automaton) (location : LocationId) : String :=
  ((automaton.location? location).map (·.name)).getD ""

/-- One line per transition, in order. -/
def renderEdges (automaton : Automaton) (location : Location) : List String :=
  location.edges.map fun edge =>
    s!"{location.name} -> {automaton.nameOf edge.target} : {edge.guard.render}"

/-- The lines of the written form: the initial location, the accepting ones,
and the transitions of each location. -/
def renderLines (automaton : Automaton) : List String :=
  s!"init {automaton.nameOf automaton.initial}" ::
    (automaton.locations.toList.filter (·.accepting)).map (fun location => s!"accept {location.name}") ++
    automaton.locations.toList.flatMap automaton.renderEdges

/-- The automaton in the text format, each line ended by a line feed. -/
def render (automaton : Automaton) : String :=
  String.join (automaton.renderLines.map (· ++ "\n"))

end Automaton

end OnTheFly
