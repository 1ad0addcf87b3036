import OnTheFly.RuleSystem.Basic
import OnTheFly.RuleSystem.Interruptions

/-!
Contract: explicit labelled transition systems as rule systems.

Owns: systems of named nodes and labelled edges, and the engine whose graphs
are the nodes and whose matches are the edges that leave them.
-/

set_option autoImplicit false

namespace OnTheFly

/-- A node of a labelled system: its position. -/
structure NodeId where
  index : Nat
deriving DecidableEq, Repr, Inhabited, Hashable

structure LabelledNode where
  name : String
  transient : Bool := false
  size : Nat := 1
deriving DecidableEq, Repr

structure LabelledEdge where
  source : NodeId
  rule : String
  target : NodeId
deriving DecidableEq, Repr

/-- An edge offered as a match. -/
structure EdgeMatch where
  edge : Nat
  rule : String
deriving DecidableEq, Repr

/-- A labelled transition system. Nodes are made by being named. -/
structure LabelledSystem where
  nodes : Array LabelledNode := #[]
  edges : Array LabelledEdge := #[]
  start : Option NodeId := none
  interruptions : Interruptions := {}
deriving Repr

namespace LabelledSystem

def find? (system : LabelledSystem) (name : String) : Option NodeId :=
  (system.nodes.findIdx? (·.name == name)).map NodeId.mk

/-- The node of that name, made if there is none. -/
def node (system : LabelledSystem) (name : String) : NodeId × LabelledSystem :=
  match system.find? name with
  | some existing => (existing, system)
  | none => (⟨system.nodes.size⟩, { system with nodes := system.nodes.push { name := name } })

def setStart (system : LabelledSystem) (name : String) : LabelledSystem :=
  let (node, system) := system.node name
  { system with start := some node }

def addEdge (system : LabelledSystem) (source rule target : String) : LabelledSystem :=
  let (source, system) := system.node source
  let (target, system) := system.node target
  { system with edges := system.edges.push ⟨source, rule, target⟩ }

def modifyNode (system : LabelledSystem) (name : String)
    (change : LabelledNode → LabelledNode) : LabelledSystem :=
  let (node, system) := system.node name
  { system with nodes := system.nodes.modify node.index change }

def setTransient (system : LabelledSystem) (name : String) : LabelledSystem :=
  system.modifyNode name ({ · with transient := true })

def setSize (system : LabelledSystem) (name : String) (size : Nat) : LabelledSystem :=
  system.modifyNode name ({ · with size := size })

/-- Makes the next `times` applications of `rule` fail as interrupted. -/
def interruptOn (system : LabelledSystem) (rule : String) (times : Nat) : LabelledSystem :=
  { system with interruptions := system.interruptions.schedule rule times }

def nameOf (system : LabelledSystem) (node : NodeId) : String :=
  (system.nodes[node.index]?.map (·.name)).getD ""

def isTransient (system : LabelledSystem) (node : NodeId) : Bool :=
  system.nodes[node.index]?.any (·.transient)

def nodeCount (system : LabelledSystem) (node : NodeId) : Nat :=
  (system.nodes[node.index]?.map (·.size)).getD 0

/-- The chosen start node, or the first one. -/
def startNode (system : LabelledSystem) : NodeId :=
  system.start.getD ⟨0⟩

/-- The edges that leave a node, in the order in which they were added. -/
def matchesOf (system : LabelledSystem) (node : NodeId) : List EdgeMatch :=
  (system.edges.toList.zipIdx.filter (·.1.source = node)).map fun entry =>
    ⟨entry.2, entry.1.rule⟩

/-- The failure of an edge that does not exist or starts elsewhere. -/
def notLeaving (system : LabelledSystem) (node : NodeId) (candidate : EdgeMatch) : ApplyError :=
  .failed candidate.rule s!"edge {candidate.edge} does not leave {system.nameOf node}"

/-- Follows an edge. A pending request to abort the rule comes first. -/
def apply (system : LabelledSystem) (interruptions : Interruptions) (node : NodeId)
    (candidate : EdgeMatch) : Except ApplyError NodeId × Interruptions :=
  match interruptions.take? candidate.rule with
  | some fewer => (.error .interrupted, fewer)
  | none =>
      match system.edges[candidate.edge]? with
      | some edge =>
          if edge.source = node then (.ok edge.target, interruptions)
          else (.error (system.notLeaving node candidate), interruptions)
      | none => (.error (system.notLeaving node candidate), interruptions)

/-- The engine of a labelled system. -/
def rules (system : LabelledSystem) : RuleSystem where
  Graph := NodeId
  Match := EdgeMatch
  Engine := Interruptions
  graphEq := inferInstance
  startGraph := system.startNode
  matchesOf := system.matchesOf
  apply := system.apply
  ruleName := (·.rule)
  isTransient := system.isTransient
  nodeCount := system.nodeCount
  fingerprint := fun node => Fingerprint.of node.index

end LabelledSystem

end OnTheFly
