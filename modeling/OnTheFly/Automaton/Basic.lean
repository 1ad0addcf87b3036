import OnTheFly.Automaton.Guard

/-!
Contract: Büchi automata over sets of propositions.

Owns: locations, their guarded transitions, look-up by handle and by name, and
the ways in which a description of an automaton can be wrong.
Does not own: building an automaton from a description, or its text format.
-/

set_option autoImplicit false

namespace OnTheFly

/-- Handle of a location: its position in the automaton. -/
structure LocationId where
  index : Nat
deriving DecidableEq, Repr, Inhabited

def LocationId.render (location : LocationId) : String :=
  s!"l{location.index}"

/-- A transition of the automaton, taken when its guard holds. -/
structure AutomatonEdge where
  guard : Guard
  target : LocationId
deriving DecidableEq, Repr

structure Location where
  name : String
  accepting : Bool
  edges : List AutomatonEdge
deriving DecidableEq, Repr

/-- A Büchi automaton, as a rule the negation of a temporal property. -/
structure Automaton where
  locations : Array Location
  initial : LocationId
deriving DecidableEq, Repr

namespace Automaton

def size (automaton : Automaton) : Nat :=
  automaton.locations.size

def location? (automaton : Automaton) (location : LocationId) : Option Location :=
  automaton.locations[location.index]?

/-- Whether the location exists and is accepting. -/
def isAccepting (automaton : Automaton) (location : LocationId) : Bool :=
  (automaton.location? location).any (·.accepting)

/-- Targets of the transitions of a location that `satisfied` enables, in order. -/
def enabledTargets (location : Location) (satisfied : NameSet) : List LocationId :=
  (location.edges.filter (·.guard.isEnabled satisfied)).map (·.target)

/-- The first location of that name. -/
def find? (automaton : Automaton) (name : String) : Option LocationId :=
  (automaton.locations.findIdx? (·.name == name)).map LocationId.mk

/-- Every proposition that some guard mentions. -/
def propositions (automaton : Automaton) : NameSet :=
  NameSet.ofList <| automaton.locations.toList.flatMap fun location =>
    location.edges.flatMap fun edge => edge.guard.positive.names ++ edge.guard.negative.names

end Automaton

/-- What is wrong with one line of the text format. -/
inductive LineFault where
  | unrecognised (line : String)
  | invalidName (text : String)
  | missingColon
  | secondInitial
deriving DecidableEq, Repr

def LineFault.message : LineFault → String
  | .unrecognised line => s!"unrecognised line '{line}'"
  | .invalidName text => s!"invalid name '{text}'"
  | .missingColon => "expected ':' before the guard"
  | .secondInitial => "initial location declared twice"

/-- What is wrong with the description of an automaton. -/
inductive AutomatonError where
  | noLocations
  | missingInitial
  | unknownLocation (name : String)
  | duplicateLocation (name : String)
  | contradictoryGuard (source target proposition : String)
  | syntaxError (line : Nat) (fault : LineFault)
deriving DecidableEq, Repr

def AutomatonError.message : AutomatonError → String
  | .noLocations => "automaton has no locations"
  | .missingInitial => "automaton has no initial location"
  | .unknownLocation name => s!"unknown location: {name}"
  | .duplicateLocation name => s!"duplicate location: {name}"
  | .contradictoryGuard source target proposition =>
      s!"guard on {source} -> {target} requires and forbids '{proposition}'"
  | .syntaxError line fault => s!"line {line}: {fault.message}"

end OnTheFly
