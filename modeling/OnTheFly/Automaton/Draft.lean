import OnTheFly.Automaton.Basic

/-!
Contract: automata described by name, and the checks that make them automata.

Owns: the draft of an automaton and `Draft.build`, which accepts a draft
exactly when it has a location, its names are distinct, its initial location
and all ends of transitions are declared, and no guard contradicts itself.
Does not own: reading a draft from text.

The checks are made in this order, and the first that fails decides the error:
some location, distinct names, the initial location, then each transition in
turn with its source, its target and its guard.
-/

set_option autoImplicit false

namespace OnTheFly

/-- A transition between locations given by name. -/
structure DraftEdge where
  source : String
  guard : Guard
  target : String
deriving DecidableEq, Repr

/-- A location as it is declared. -/
structure DraftLocation where
  name : String
  accepting : Bool
deriving DecidableEq, Repr

/-- A description of an automaton in which nothing has been checked yet. -/
structure Draft where
  locations : List DraftLocation := []
  initial : Option String := none
  edges : List DraftEdge := []
deriving DecidableEq, Repr

/-- A transition whose ends have been found. -/
structure ResolvedEdge where
  source : LocationId
  edge : AutomatonEdge
deriving DecidableEq, Repr

namespace Draft

def declare (draft : Draft) (name : String) (accepting : Bool) : Draft :=
  { draft with locations := draft.locations ++ [⟨name, accepting⟩] }

/-- Names the initial location; the last call decides. -/
def setInitial (draft : Draft) (name : String) : Draft :=
  { draft with initial := some name }

def connect (draft : Draft) (source : String) (guard : Guard) (target : String) : Draft :=
  { draft with edges := draft.edges ++ [⟨source, guard, target⟩] }

/-- The first name that also stands earlier in the list, given those before it. -/
def firstRepeated? (earlier : List String) : List String → Option String
  | [] => none
  | name :: rest =>
      if name ∈ earlier then some name else firstRepeated? (name :: earlier) rest

def names (draft : Draft) : List String :=
  draft.locations.map (·.name)

/-- The declared location of that name. -/
def resolve (draft : Draft) (name : String) : Except AutomatonError LocationId :=
  match draft.names.findIdx? (· == name) with
  | some index => .ok ⟨index⟩
  | none => .error (.unknownLocation name)

def resolveEdge (draft : Draft) (edge : DraftEdge) : Except AutomatonError ResolvedEdge :=
  match draft.resolve edge.source with
  | .error unknown => .error unknown
  | .ok source =>
      match draft.resolve edge.target with
      | .error unknown => .error unknown
      | .ok target =>
          match edge.guard.contradiction? with
          | some proposition =>
              .error (.contradictoryGuard edge.source edge.target proposition)
          | none => .ok ⟨source, edge.guard, target⟩

/-- The transitions in order, or the error of the first that is wrong. -/
def resolveEdges (draft : Draft) : List DraftEdge → Except AutomatonError (List ResolvedEdge)
  | [] => .ok []
  | edge :: rest =>
      match draft.resolveEdge edge with
      | .error wrong => .error wrong
      | .ok resolved =>
          match draft.resolveEdges rest with
          | .error wrong => .error wrong
          | .ok others => .ok (resolved :: others)

/-- The declared locations in order, each with the transitions that leave it. -/
def assemble (draft : Draft) (initial : LocationId) (edges : List ResolvedEdge) : Automaton where
  locations := (draft.locations.mapIdx fun index location =>
    { name := location.name
      accepting := location.accepting
      edges := (edges.filter (·.source.index == index)).map (·.edge) }).toArray
  initial := initial

/-- The automaton that the draft describes, or the first thing wrong with it. -/
def build (draft : Draft) : Except AutomatonError Automaton :=
  if draft.locations.isEmpty then .error .noLocations
  else
    match firstRepeated? [] draft.names with
    | some name => .error (.duplicateLocation name)
    | none =>
        match draft.initial with
        | none => .error .missingInitial
        | some name =>
            match draft.resolve name with
            | .error unknown => .error unknown
            | .ok initial =>
                match draft.resolveEdges draft.edges with
                | .error wrong => .error wrong
                | .ok edges => .ok (draft.assemble initial edges)

end Draft

end OnTheFly
