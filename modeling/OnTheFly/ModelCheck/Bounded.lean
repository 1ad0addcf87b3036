import OnTheFly.ModelCheck.Boundary
import OnTheFly.ModelCheck.Search

/-!
Contract: bounded model checking by iterative deepening.

Owns: the search within a boundary, with or without pocket pruning, and its
restarts.

A transition that would cross the boundary beyond what the iteration allows is
deferred. When the search has run dry and something was deferred, it starts
again from the initial state with a relaxed boundary. Product states that an
earlier iteration closed keep their transitions.
-/

set_option autoImplicit false

namespace OnTheFly

structure BoundedSearch where
  search : Search
  prototype : Boundary
  /-- The instance of the current run. -/
  boundary : Option Boundary := none
  /-- Whether pocket states are visited at most once. -/
  pocket : Bool
  /-- The transitions deferred in the current iteration, each once. -/
  deferred : List ProductTransitionId := []

namespace BoundedSearch

variable {R : RuleSystem} {A : Type} [Acceptor R A]

def create (automaton : Automaton) (prototype : Boundary) (pocket : Bool) : BoundedSearch :=
  { search := { automaton := some automaton }, prototype := prototype, pocket := pocket }

def name (bounded : BoundedSearch) : String :=
  if bounded.pocket then "pocket-ltl" else "bounded-ltl"

def iteration (bounded : BoundedSearch) : Nat :=
  bounded.search.round.iteration

/-- One line on the search. -/
def describe (bounded : BoundedSearch) : String :=
  s!"BoundedLtlStrategy \x7b boundary: {(bounded.boundary.getD bounded.prototype).describe}, " ++
    s!"pocket: {bounded.pocket}, iteration: {bounded.iteration}, " ++
    s!"deferred: {bounded.deferred.length} \x7d"

/-- Whether a product state is still to be visited in this iteration. -/
def isUnexplored (bounded : BoundedSearch) (state : ProductStateId) : Bool :=
  let colour := bounded.search.product.colour state
  !bounded.search.round.isExplored colour &&
    (!bounded.pocket || !bounded.search.product.isPocket state || colour.isUnpainted)

def setProduct (bounded : BoundedSearch) (product : Product) : BoundedSearch :=
  { bounded with search := { bounded.search with product := product } }

/-- Leaves a transition for a later iteration. -/
def defer (bounded : BoundedSearch) (transition : ProductTransitionId)
    (target : ProductStateId) : BoundedSearch :=
  if bounded.deferred.contains transition then bounded
  else
    let bounded := { bounded with deferred := transition :: bounded.deferred }
    if bounded.isUnexplored target then
      bounded.setProduct
        (bounded.search.product.modify target ({ · with iteration := bounded.iteration + 1 }))
    else bounded

/-- Whether the boundary lets more crossings onto the path in this iteration. -/
def hasBudget (bounded : BoundedSearch) (boundary : Boundary) : Bool :=
  boundary.depth < bounded.iteration - 1

/-- Whether the search for a counterexample may look at a transition in this
iteration; if not, the transition is deferred. -/
def allows (bounded : BoundedSearch) (space : StateSpace R) (handle : ProductTransitionId)
    (entry : ProductTransition) : Except Breach Bool × BoundedSearch :=
  match entry.via.bind space.transition?, bounded.boundary with
  | some transition, some boundary =>
      match boundary.crossing bounded.search.round space transition false with
      | .error breach => (.error breach, bounded)
      | .ok (crosses, boundary) =>
          if !crosses || bounded.hasBudget boundary then (.ok true, bounded)
          else (.ok false, bounded.defer handle entry.target)
  | _, _ => (.ok true, bounded)

/-- Whether one of the transitions is allowed and closes an accepting cycle. -/
def findCycle (space : StateSpace R) : List (ProductTransitionId × ProductTransition) →
    BoundedSearch → Except Breach Bool × BoundedSearch
  | [], bounded => (.ok false, bounded)
  | (handle, entry) :: rest, bounded =>
      match bounded.allows space handle entry with
      | (.error breach, bounded) => (.error breach, bounded)
      | (.ok allowed, bounded) =>
          if allowed && bounded.search.closesCycle handle then (.ok true, bounded)
          else findCycle space rest bounded

/-- The frame of a transition that the boundary lets through, with the boundary
afterwards. -/
def pass? (bounded : BoundedSearch) (space : StateSpace R) (entry : ProductTransition) :
    Except Breach (Option Frame × Option Boundary) :=
  match entry.via.bind space.transition?, bounded.boundary with
  | some transition, some boundary =>
      match boundary.crossing bounded.search.round space transition true with
      | .error breach => .error breach
      | .ok (false, passed) =>
          .ok (some ⟨entry.target, entry.via, boundary.depth < passed.depth⟩, some passed)
      | .ok (true, stopped) =>
          if bounded.hasBudget stopped then
            .ok (some ⟨entry.target, entry.via, true⟩, some stopped.raiseDepth)
          else .ok (none, some stopped)
  | _, boundary => .ok (some ⟨entry.target, entry.via, false⟩, boundary)

/-- The first of the transitions that leads to an unexplored state and passes
the boundary. Those that do not pass are deferred. -/
def freshSuccessor (space : StateSpace R) : List (ProductTransitionId × ProductTransition) →
    BoundedSearch → Except Breach (Option Frame) × BoundedSearch
  | [], bounded => (.ok none, bounded)
  | (handle, entry) :: rest, bounded =>
      if !bounded.isUnexplored entry.target then freshSuccessor space rest bounded
      else
        match bounded.pass? space entry with
        | .error breach => (.error breach, bounded)
        | .ok (some frame, boundary) => (.ok (some frame), { bounded with boundary := boundary })
        | .ok (none, boundary) =>
            freshSuccessor space rest
              (({ bounded with boundary := boundary }).defer handle entry.target)

/-- Whether every transition of the system leads to a pocket state. -/
def leadsToPockets (product : Product) (state : ProductStateId) : Bool :=
  ((product.outgoing state).filter (·.2.via.isSome)).all fun entry =>
    product.isPocket entry.2.target

/-- Paints a frame that leaves the stack, and marks it if it is a pocket. -/
def paintLeft (bounded : BoundedSearch) (state : ProductStateId) : BoundedSearch :=
  let round := bounded.search.round
  let colour := if bounded.search.isAccepting state then round.red else round.blue
  let product := bounded.search.product.paint state colour
  bounded.setProduct <|
    if bounded.pocket && leadsToPockets product state then
      product.modify state ({ · with pocket := true })
    else product

/-- Leaves the top frame, of which `rest` are below. -/
def leave (bounded : BoundedSearch) (frame : Frame) (rest : List Frame) :
    Except Breach Unit × BoundedSearch :=
  let bounded := { bounded with search := { bounded.search with stack := rest } }
  match frame.counted && frame.via.isSome, bounded.boundary with
  | true, some boundary =>
      match boundary.backtrack with
      | .error breach => (.error breach, bounded)
      | .ok lowered => (.ok (), ({ bounded with boundary := some lowered }).paintLeft frame.state)
  | _, _ => (.ok (), bounded.paintLeft frame.state)

/-- Whether there is something to gain from another iteration, and it is
allowed. -/
def mayRestart (bounded : BoundedSearch) (config : Config) : Bool :=
  !bounded.deferred.isEmpty &&
    (config.maxIterations = 0 || bounded.iteration < config.maxIterations)

/-- The boundary for the next iteration, with nothing counted yet. -/
def relax : Option Boundary → Except Breach (Option Boundary)
  | none => .ok none
  | some boundary =>
      match boundary.increase with
      | .error breach => .error breach
      | .ok relaxed => .ok (some (relaxed.setDepth 0))

/-- Starts the next iteration, if it may. -/
def restart (bounded : BoundedSearch) (config : Config) : Except Breach Unit × BoundedSearch :=
  if !bounded.mayRestart config then (.ok (), bounded)
  else
    let bounded :=
      { bounded with search := { bounded.search with round := bounded.search.round.next } }
    match relax bounded.boundary with
    | .error breach => (.error breach, bounded)
    | .ok boundary =>
        (.ok (),
          { bounded with
            boundary := boundary
            deferred := []
            search := { bounded.search with
              next := bounded.search.initial.map fun state => { state := state } } })

/-- Walks back along `stack` to the first frame with a successor to enter, or
restarts. -/
def retreat (space : StateSpace R) (config : Config) : List Frame → BoundedSearch →
    Except Breach Unit × BoundedSearch
  | [], bounded => bounded.restart config
  | top :: rest, bounded =>
      match freshSuccessor space (bounded.search.product.outgoing top.state) bounded with
      | (.error breach, bounded) => (.error breach, bounded)
      | (.ok (some frame), bounded) =>
          (.ok (), { bounded with search := { bounded.search with next := some frame } })
      | (.ok none, bounded) =>
          match bounded.leave top rest with
          | (.error breach, bounded) => (.error breach, bounded)
          | (.ok _, bounded) => retreat space config rest bounded

/-- Looks for a counterexample at a product state, which is expanded first
unless an earlier iteration has done so. -/
def exploreState (bounded : BoundedSearch) (space : StateSpace R) (state : ProductStateId) :
    Except Breach Bool × BoundedSearch :=
  match bounded.search.expandOnce space state with
  | .error breach => (.error breach, bounded)
  | .ok search =>
      match findCycle space (search.product.outgoing state) { bounded with search := search } with
      | (.ok false, bounded) =>
          (.ok false,
            bounded.setProduct (bounded.search.product.modify state ({ · with closed := true })))
      | found => found

def prepare (bounded : BoundedSearch) (run : Exploration R A) :
    Except ExploreError (BoundedSearch × Exploration R A) :=
  match bounded.search.reset run.start with
  | .error error => .error error
  | .ok search =>
      .ok ({ bounded with
          search := search
          boundary := some bounded.prototype.instantiate
          deferred := [] },
        run.track ({ · with iteration := 1 }))

/-- Reports what was found, or moves on. -/
def proceed (bounded : BoundedSearch) (run : Exploration R A) (found : Bool) :
    Except Breach Unit × BoundedSearch × Exploration R A :=
  if found then
    let (search, run) := bounded.search.report run
    (.ok (), { bounded with search := search }, run)
  else
    match retreat run.space run.config bounded.search.stack bounded with
    | (.error breach, moved) => (.error breach, moved, run)
    | (.ok _, moved) =>
        (.ok (), moved,
          if moved.iteration = bounded.iteration then run
          else run.track ({ · with iteration := moved.iteration }))

/-- Enters the next frame. If its system state cannot be closed, it stays next. -/
def doNext (bounded : BoundedSearch) (run : Exploration R A) :
    Except Failure StateId × BoundedSearch × Exploration R A :=
  match bounded.search.next with
  | none => (.ok run.start, bounded, run)
  | some frame =>
      let system := bounded.search.product.systemState frame.state
      match run.closeState system with
      | (.error failure, run) => (.error failure, bounded, run)
      | (.ok _, run) =>
          match bounded.search.enter frame with
          | .error breach => (.error (.breach breach), bounded, run)
          | .ok entered =>
              let run := run.track ({ · with stackDepth := entered.stack.length })
              match ({ bounded with search := entered }).exploreState run.space frame.state with
              | (.error breach, bounded) => (.error (.breach breach), bounded, run)
              | (.ok found, bounded) =>
                  match bounded.proceed run found with
                  | (.error breach, bounded, run) => (.error (.breach breach), bounded, run)
                  | (.ok _, bounded, run) => (.ok system, bounded, run)

instance : Strategy R BoundedSearch where
  name := BoundedSearch.name
  prepare bounded run :=
    match bounded.prepare run with
    | .error error => (.error error, bounded, run)
    | .ok (prepared, run) => (.ok (), prepared, run)
  hasNext bounded := bounded.search.next.isSome
  doNext := BoundedSearch.doNext

end BoundedSearch

end OnTheFly
