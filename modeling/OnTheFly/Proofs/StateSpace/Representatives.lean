import Mathlib.Data.List.Sort
import OnTheFly.Proofs.StateSpace.Chronicle
import OnTheFly.Proofs.StateSpace.Fingerprints
import OnTheFly.StateSpace.Start

/-!
Contract: when graphs with one canonical representative share one state.

Owns: canonical graphs, state spaces in which each class of graphs has one
state, and that the start graph alone decides whether a state space is one of
them: it is stored as it is, and every later graph as its representative.
-/

set_option autoImplicit false

namespace OnTheFly

namespace RuleSystem

variable {R : RuleSystem}

/-- Whether a representative represents itself. -/
def Idempotent (R : RuleSystem) : Prop :=
  ∀ graph, R.canonicalize (R.canonicalize graph) = R.canonicalize graph

def IsCanonical (R : RuleSystem) (graph : R.Graph) : Prop :=
  R.canonicalize graph = graph

/-- Whether two graphs have the same representative. -/
def Isomorphic (R : RuleSystem) (first second : R.Graph) : Prop :=
  R.canonicalize first = R.canonicalize second

/-- Only the start graph is reachable without being canonical. -/
theorem Reachable.isCanonical (idempotent : R.Idempotent) {graph : R.Graph}
    (reachable : R.Reachable graph) (later : graph ≠ R.startGraph) : R.IsCanonical graph := by
  cases reachable with
  | start => exact absurd rfl later
  | apply _ _ _ => exact idempotent _

end RuleSystem

namespace StateSpace

variable {R : RuleSystem} {space : StateSpace R}

/-- Whether isomorphic graphs share one state, and each of them is found there. -/
structure Collapses (space : StateSpace R) : Prop where
  unique {first second : StateId} {stored other : R.Graph} :
    space.graph? first = some stored → space.graph? second = some other →
      R.Isomorphic stored other → first = second
  found {state : StateId} {stored graph : R.Graph} :
    space.graph? state = some stored → R.Isomorphic graph stored →
      space.lookup? graph = some state

/-- Every state but the first holds a canonical graph. -/
theorem HasHistory.isCanonical (history : space.HasHistory) (idempotent : R.Idempotent)
    {state : StateId} {stored : R.Graph} (present : space.graph? state = some stored)
    (later : state ≠ startState) : R.IsCanonical stored := by
  apply (history.wellFormed.reachable present).isCanonical idempotent
  rintro rfl
  exact later (history.wellFormed.stored_once present history.graph?_startState)

/-- A state with a canonical graph is found by every graph isomorphic to it. -/
theorem HasHistory.lookup?_of_isomorphic (history : space.HasHistory) {state : StateId}
    {stored graph : R.Graph} (present : space.graph? state = some stored)
    (canonical : R.IsCanonical stored) (isomorphic : R.Isomorphic graph stored) :
    space.lookup? graph = some state := by
  rw [history.identifies.lookup_iff]
  calc space.graph? state = some stored := present
    _ = some (R.canonicalize graph) := congrArg some (canonical.symm.trans isomorphic.symm)

theorem HasHistory.collapses (history : space.HasHistory)
    (canonical : ∀ state stored, space.graph? state = some stored → R.IsCanonical stored) :
    space.Collapses where
  unique {first second stored other} presentFirst presentSecond isomorphic := by
    have same : stored = other :=
      calc stored = R.canonicalize stored := (canonical first stored presentFirst).symm
        _ = R.canonicalize other := isomorphic
        _ = other := canonical second other presentSecond
    exact history.wellFormed.stored_once presentFirst (same ▸ presentSecond)
  found {state stored graph} present isomorphic :=
    history.lookup?_of_isomorphic present (canonical state stored present) isomorphic

/-- **The start graph decides whether states are unique up to isomorphism.** In
a state space with any history isomorphic graphs share one state exactly if the
start graph is canonical. In any case every later state is canonical and found
by all graphs isomorphic to its own, so a class with two states is that of a
start graph which is not canonical. -/
theorem isomorphic_states_collapse_iff (idempotent : R.Idempotent) (history : space.HasHistory) :
    (space.Collapses ↔ R.IsCanonical R.startGraph) ∧
      (∀ state stored, space.graph? state = some stored → state ≠ startState →
        R.IsCanonical stored ∧
          ∀ graph, R.Isomorphic graph stored → space.lookup? graph = some state) ∧
      ∀ first second stored other, space.graph? first = some stored →
        space.graph? second = some other → R.Isomorphic stored other → first ≠ second →
          (first = startState ∨ second = startState) ∧ ¬ R.IsCanonical R.startGraph := by
  have atStart := history.graph?_startState
  have collapses : R.IsCanonical R.startGraph → space.Collapses := by
    intro startCanonical
    apply history.collapses
    intro state stored present
    by_cases first : state = startState
    · subst first
      cases atStart.symm.trans present
      exact startCanonical
    · exact history.isCanonical idempotent present first
  refine ⟨⟨fun collapsed => ?_, collapses⟩, ?_, ?_⟩
  · -- The start state is found by its own graph, so it holds the representative.
    have found := history.identifies.lookup_iff.1 (collapsed.found atStart rfl)
    exact Option.some.inj (found.symm.trans atStart)
  · intro state stored present later
    have canonical := history.isCanonical idempotent present later
    exact ⟨canonical, fun graph => history.lookup?_of_isomorphic present canonical⟩
  · intro first second stored other presentFirst presentSecond isomorphic different
    constructor
    · by_contra neither
      obtain ⟨laterFirst, laterSecond⟩ := not_or.1 neither
      have canonical := history.isCanonical idempotent presentFirst laterFirst
      have found := history.lookup?_of_isomorphic presentFirst canonical isomorphic.symm
      have foundToo := history.lookup?_of_isomorphic presentSecond
        (history.isCanonical idempotent presentSecond laterSecond) rfl
      exact different (Option.some.inj (found.symm.trans foundToo))
    · intro startCanonical
      exact different ((collapses startCanonical).unique presentFirst presentSecond isomorphic)

end StateSpace

/-! ## Words up to the order of their characters -/

namespace WordSystem

/-- The order of the letters in a canonical word. -/
abbrev Before (left right : Char) : Prop :=
  left.toNat ≤ right.toNat

instance : Std.Total Before :=
  ⟨fun left right => Nat.le_total left.toNat right.toNat⟩

instance : IsTrans Char Before :=
  ⟨fun _ _ _ => Nat.le_trans⟩

theorem insertLetter_eq (letter : Char) (word : Word) :
    insertLetter letter word = word.orderedInsert Before letter := by
  induction word with
  | nil => rfl
  | cons first rest inductionHypothesis =>
      rw [insertLetter, inductionHypothesis, List.orderedInsert_cons]

/-- Letters are sorted by insertion. -/
theorem foldr_insertLetter (word : Word) :
    word.foldr insertLetter [] = word.insertionSort Before := by
  have same : insertLetter = fun letter word => word.orderedInsert Before letter :=
    funext₂ insertLetter_eq
  rw [same]
  rfl

theorem canonicalize_canonicalize (system : WordSystem) (word : Word) :
    system.canonicalize (system.canonicalize word) = system.canonicalize word := by
  unfold canonicalize
  split
  · simp only [foldr_insertLetter]
    exact (List.pairwise_insertionSort Before word).insertionSort_eq
  · rfl

theorem idempotent (system : WordSystem) : system.engine.Idempotent :=
  system.canonicalize_canonicalize

end WordSystem

namespace StateSpace

/-- Two letters in any order, and a rule that puts them in this one. -/
def pairSystem (start : Word) : WordSystem :=
  { start := start
    rules := [⟨"turn", ['a', 'b'], ['b', 'a'], none⟩, ⟨"keep", ['b', 'a'], ['b', 'a'], none⟩]
    unordered := true
    hashing := .nothing }

/-- The space of two letters after one application. -/
def pairSpace (start : Word) : StateSpace (pairSystem start).engine :=
  ((pairSystem start).stateSpace.applyMatch startState 0).2

theorem pairSpace_hasHistory (start : Word) : (pairSpace start).HasHistory :=
  ⟨{}, .single (.apply _ startState 0)⟩

/-- Letters in ascending order keep one state when they are turned. -/
theorem pairSpace_collapses :
    (pairSystem ['a', 'b']).engine.Idempotent ∧ (pairSpace ['a', 'b']).HasHistory ∧
      (pairSpace ['a', 'b']).size = 1 ∧ (pairSpace ['a', 'b']).out startState = [⟨0⟩] ∧
      (pairSpace ['a', 'b']).Collapses ∧
      (pairSpace ['a', 'b']).lookup? ['b', 'a'] = some startState := by
  have idempotent := (pairSystem ['a', 'b']).idempotent
  have history := pairSpace_hasHistory ['a', 'b']
  have canonical : (pairSystem ['a', 'b']).engine.IsCanonical ['a', 'b'] := rfl
  have collapses := (isomorphic_states_collapse_iff idempotent history).1.2 canonical
  refine ⟨idempotent, history, by decide +kernel, by decide +kernel, collapses, ?_⟩
  exact collapses.found history.graph?_startState rfl

/-- Letters in descending order are a state of their own beside their
representative, and no graph finds them. -/
theorem descending_pair_has_two_states :
    (pairSystem ['b', 'a']).engine.Idempotent ∧ (pairSpace ['b', 'a']).HasHistory ∧
      (pairSpace ['b', 'a']).graph? ⟨0⟩ = some ['b', 'a'] ∧
      (pairSpace ['b', 'a']).graph? ⟨1⟩ = some ['a', 'b'] ∧
      (pairSystem ['b', 'a']).engine.Isomorphic ['b', 'a'] ['a', 'b'] ∧
      (pairSystem ['b', 'a']).stateSpace.lookup? ['b', 'a'] = none ∧
      (pairSpace ['b', 'a']).lookup? ['b', 'a'] = some ⟨1⟩ ∧
      ¬ (pairSpace ['b', 'a']).Collapses := by
  have idempotent := (pairSystem ['b', 'a']).idempotent
  have history := pairSpace_hasHistory ['b', 'a']
  have first : (pairSpace ['b', 'a']).graph? ⟨0⟩ = some ['b', 'a'] := rfl
  have second : (pairSpace ['b', 'a']).graph? ⟨1⟩ = some ['a', 'b'] := rfl
  have isomorphic : (pairSystem ['b', 'a']).engine.Isomorphic ['b', 'a'] ['a', 'b'] := rfl
  refine ⟨idempotent, history, first, second, isomorphic, by decide +kernel, by decide +kernel, ?_⟩
  intro collapses
  cases collapses.unique first second isomorphic

end StateSpace

end OnTheFly
