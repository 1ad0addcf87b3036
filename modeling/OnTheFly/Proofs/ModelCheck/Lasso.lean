import OnTheFly.Exploration.Basic
import OnTheFly.Proofs.Exploration.Closing
import OnTheFly.Proofs.ModelCheck.Examined

/-!
Contract: a reported stack is a lasso of the product.

Owns: the stack as a path of the product, when it is a lasso, and the invariant
that ties a report to the stack and to what the acceptor was told.
-/

set_option autoImplicit false

namespace OnTheFly

namespace Search

variable {R : RuleSystem} {search after : Search} {automaton : Automaton}
  {initial : ProductStateId} {space : StateSpace R}

/-! ## The stack as a lasso -/

/-- A threaded stack, read from its bottom, is a path from the initial state. -/
theorem Threaded.reverse {product : Product} {path : List ProductStateId}
    (threaded : Threaded product initial path) :
    (path ≠ [] → path.reverse[0]? = some initial) ∧
      ∀ position source target, path.reverse[position]? = some source →
        path.reverse[position + 1]? = some target → product.Linked source target := by
  induction path with
  | nil => simp
  | cons top rest inductionHypothesis =>
      obtain ⟨first, follows⟩ := inductionHypothesis threaded.tail
      simp only [List.reverse_cons]
      cases rest with
      | nil =>
          have isInitial : top = initial := threaded
          simp [isInitial]
      | cons below rest =>
          have lastPosition : (below :: rest).reverse.length = rest.length + 1 := by simp
          constructor
          · intro _
            rw [List.getElem?_append_left (by simp)]
            exact first (by simp)
          · intro position source target foundSource foundTarget
            have inside := (List.getElem?_eq_some_iff.1 foundTarget).1
            rw [List.length_append, lastPosition, List.length_singleton] at inside
            rw [List.getElem?_append_left (by omega)] at foundSource
            by_cases atTop : position + 1 = rest.length + 1
            · -- The last link is the one between the two top states.
              rw [atTop, ← lastPosition, List.getElem?_concat_length] at foundTarget
              have atBelow : position = rest.reverse.length := by simp; omega
              rw [List.reverse_cons, atBelow, List.getElem?_concat_length] at foundSource
              cases foundSource
              cases foundTarget
              exact threaded.linked
            · rw [List.getElem?_append_left (by omega)] at foundTarget
              exact follows position source target foundSource foundTarget

theorem path_eq_reverse (search : Search) : search.path = search.onStack.reverse := by
  simp [path, onStack, List.map_reverse]

/-- Whether the top of the stack has a transition back onto the stack with an
accepting end. -/
def ClosesLoop (search : Search) (automaton : Automaton) : Prop :=
  ∃ top rest target, search.onStack = top :: rest ∧ target ∈ search.onStack ∧
    search.product.Linked top target ∧
    (automaton.isAccepting (search.product.location top) = true ∨
      automaton.isAccepting (search.product.location target) = true)

theorem Coherent.closesLoop (coherent : search.Coherent automaton initial space) {top : Frame}
    {rest : List Frame} (stack : search.stack = top :: rest) {handle : ProductTransitionId}
    {transition : ProductTransition}
    (member : (handle, transition) ∈ search.product.outgoing top.state)
    (closes : search.closesCycle handle = true) : search.ClosesLoop automaton := by
  obtain ⟨onStack, accepting⟩ := (coherent.closesCycle_iff member).1 closes
  exact ⟨top.state, rest.map (·.state), transition.target, onStack_eq_cons stack, onStack,
    ⟨handle, transition, member, rfl⟩, accepting⟩

/-- The system states of the stack are closed. -/
theorem Coherent.closed_of_path (coherent : search.Coherent automaton initial space)
    {state : StateId} (member : state ∈ search.path.map search.product.systemState) :
    space.isClosed state = true := by
  obtain ⟨entry, onPath, rfl⟩ := List.mem_map.1 member
  rw [path_eq_reverse, List.mem_reverse] at onPath
  exact (coherent.expanded (coherent.painted_of_mem onPath)).1

/-- A stack with such a transition is a lasso of the product, and remains one
while the state space grows. -/
theorem Coherent.isLasso (coherent : search.Coherent automaton initial space)
    (wellFormed : space.WellFormed) (loop : search.ClosesLoop automaton) :
    ∃ back, ∀ later, space.Extends later → IsLasso later automaton
      (search.product.point initial) (search.path.map search.product.point) back := by
  obtain ⟨top, rest, target, stack, member, linked, accepting⟩ := loop
  obtain ⟨first, follows⟩ := coherent.threaded.reverse
  obtain ⟨back, inside, foundBack⟩ := List.getElem_of_mem (List.mem_reverse.2 member)
  have atBack : search.onStack.reverse[back]? = some target := by
    rw [List.getElem?_eq_getElem inside, foundBack]
  have length : (search.path.map search.product.point).length = rest.length + 1 := by
    simp [path_eq_reverse, stack]
  have atTop : search.onStack.reverse[rest.length]? = some top := by
    rw [stack, List.reverse_cons, ← List.length_reverse, List.getElem?_concat_length]
  have found : ∀ {position : Nat} {state}, search.onStack.reverse[position]? = some state →
      (search.path.map search.product.point)[position]? = some (search.product.point state) := by
    intro position state present
    rw [path_eq_reverse, List.getElem?_map, present, Option.map_some]
  refine ⟨back, fun later kept => ?_⟩
  have successor : ∀ {source target}, source ∈ search.onStack →
      search.product.Linked source target →
      Successor later automaton (search.product.point source) (search.product.point target) :=
    fun source linked => (coherent.successor_iff wellFormed kept
      (coherent.painted_of_mem source)).2 ⟨_, linked, rfl⟩
  refine ⟨found (first (by simp [stack])), ?_, ?_, ?_⟩
  · intro position source next foundSource foundNext
    rw [path_eq_reverse, List.getElem?_map, Option.map_eq_some_iff] at foundSource foundNext
    obtain ⟨sourceState, presentSource, rfl⟩ := foundSource
    obtain ⟨nextState, presentNext, rfl⟩ := foundNext
    refine successor ?_ (follows position _ _ presentSource presentNext)
    exact List.mem_reverse.1 (List.mem_of_getElem? presentSource)
  · refine ⟨_, _, ?_, found atBack, successor (stack ▸ List.mem_cons_self) linked⟩
    rw [length, Nat.add_sub_cancel]
    exact found atTop
  · have ordered : back ≤ rest.length := by
      rw [List.length_reverse, stack, List.length_cons] at inside
      omega
    rcases accepting with topAccepts | targetAccepts
    · exact ⟨rest.length, _, ordered, found atTop, topAccepts⟩
    · exact ⟨back, _, Nat.le_refl _, found atBack, targetAccepts⟩

/-! ## Reports -/

variable {A : Type} [Acceptor R A]

/-- The invariant of a search in a run from `root`. After a report the stack is
a lasso, and the acceptor was told of its system states last. -/
structure Faithful (search : Search) (run : Exploration R A) (automaton : Automaton)
    (initial : ProductStateId) (root : ProductPoint) : Prop where
  history : run.space.HasHistory
  coherent : search.Coherent automaton initial run.space
  known : ∃ entry, search.product.state? initial = some entry
  rooted : search.product.point initial = root
  reported {states : List StateId} : search.counterExample = some states →
    states = search.path.map search.product.systemState ∧ search.ClosesLoop automaton ∧
      ∃ before, run.acceptor = Acceptor.addCounterExample (R := R) states before

namespace Faithful

variable {run later : Exploration R A} {root : ProductPoint}

/-- The state space evolves while nothing has been reported. -/
theorem advances (faithful : search.Faithful run automaton initial root)
    (advanced : run.Advances later) (unreported : search.counterExample = none) :
    search.Faithful later automaton initial root where
  history := faithful.history.evolves advanced.space
  coherent := faithful.coherent.evolves faithful.history.wellFormed
    (advanced.space.continues faithful.history.wellFormed).kept
  known := faithful.known
  rooted := faithful.rooted
  reported reported := by
    rw [unreported] at reported
    cases reported

theorem entered (faithful : search.Faithful run automaton initial root) {frame : Frame}
    (enters : Enters frame search after) (coherent : after.Coherent automaton initial run.space)
    (unreported : search.counterExample = none) :
    after.Faithful run automaton initial root where
  history := faithful.history
  coherent := coherent
  known := by
    obtain ⟨entry, present⟩ := faithful.known
    exact enters.present present
  rooted := by
    obtain ⟨entry, present⟩ := faithful.known
    rw [enters.point present, faithful.rooted]
  reported reported := by
    rw [enters.counterExample, unreported] at reported
    cases reported

theorem reshaped (faithful : search.Faithful run automaton initial root)
    (shape : search.product.SameShape after.product)
    (coherent : after.Coherent automaton initial run.space)
    (unreported : after.counterExample = none) :
    after.Faithful run automaton initial root where
  history := faithful.history
  coherent := coherent
  known := by
    obtain ⟨entry, present⟩ := faithful.known
    obtain ⟨entryAfter, presentAfter, _⟩ := shape.state? present
    exact ⟨entryAfter, presentAfter⟩
  rooted := by rw [shape.point, faithful.rooted]
  reported reported := by
    rw [unreported] at reported
    cases reported

/-- A stack that closes a loop may be reported. -/
theorem report (faithful : search.Faithful run automaton initial root)
    (loop : search.ClosesLoop automaton) :
    (search.report run).1.Faithful (search.report run).2 automaton initial root where
  history := faithful.history
  coherent := { faithful.coherent with pending := fun pending => by cases pending }
  known := faithful.known
  rooted := faithful.rooted
  reported := by
    rintro states ⟨⟩
    exact ⟨rfl, loop, run.acceptor, rfl⟩

/-- What is reported is a lasso from the root, however the state space evolves. -/
theorem isLasso (faithful : search.Faithful run automaton initial root) {states : List StateId}
    (reported : search.counterExample = some states) :
    ∃ back, ∀ later, run.space.Evolves later →
      IsLasso later automaton root (search.path.map search.product.point) back := by
  have wellFormed := faithful.history.wellFormed
  obtain ⟨back, lasso⟩ := faithful.coherent.isLasso wellFormed (faithful.reported reported).2.1
  rw [faithful.rooted] at lasso
  exact ⟨back, fun later evolves => lasso later (evolves.continues wellFormed).kept⟩

end Faithful

end Search

end OnTheFly
