import Mathlib.Logic.Relation
import OnTheFly.Proofs.Product.Relation

/-!
Contract: cycles of the synchronous product.

Owns: the three kinds of cycle below and how they imply each other, lassos, and
the infinite run that a lasso stands for.
Does not own: which of them a search finds.

| Cycle | Condition |
|---|---|
| accepting | goes through an accepting location |
| covered | each of its transitions starts or ends at an accepting location |
| gapped | is accepting and takes a transition between two other locations |
-/

set_option autoImplicit false

namespace OnTheFly

open Relation

variable {R : RuleSystem}

/-- Where no infinite sequence of steps begins, none leads to a cycle. -/
theorem not_cyclic_of_acc {step : ProductPoint → ProductPoint → Prop} {first point : ProductPoint}
    (accessible : Acc (fun target source => step source target) first)
    (walk : ReflTransGen step first point) : ¬ TransGen step point point := by
  intro cycle
  have backwards : TransGen (fun target source => step source target) point point :=
    transGen_swap.1 cycle
  have accessiblePoint : Acc (fun target source => step source target) point := by
    clear cycle backwards
    induction walk with
    | refl => exact accessible
    | tail _ last inductionHypothesis => exact inductionHypothesis.inv last
  have below := Acc.transGen accessiblePoint
  clear accessible accessiblePoint walk cycle
  -- An accessible point is not below itself.
  induction below with
  | intro point _ inductionHypothesis => exact inductionHypothesis point backwards backwards

section Kinds

variable (space : StateSpace R) (automaton : Automaton)

/-- Whether the product can come from `root` to `point`. -/
abbrev Reaches : ProductPoint → ProductPoint → Prop :=
  ReflTransGen (Successor space automaton)

/-- A transition with an accepting end. -/
def CoveredStep (source target : ProductPoint) : Prop :=
  Successor space automaton source target ∧
    (automaton.isAccepting source.2 = true ∨ automaton.isAccepting target.2 = true)

def HasAcceptingCycle (root : ProductPoint) : Prop :=
  ∃ point, Reaches space automaton root point ∧ automaton.isAccepting point.2 = true ∧
    TransGen (Successor space automaton) point point

def HasCoveredCycle (root : ProductPoint) : Prop :=
  ∃ point, Reaches space automaton root point ∧
    TransGen (CoveredStep space automaton) point point

def HasGappedCycle (root : ProductPoint) : Prop :=
  ∃ point source target, Reaches space automaton root point ∧
    automaton.isAccepting point.2 = true ∧ Reaches space automaton point source ∧
    Successor space automaton source target ∧ automaton.isAccepting source.2 = false ∧
    automaton.isAccepting target.2 = false ∧ Reaches space automaton target point

/-- No infinite sequence of covered transitions leaves the point. -/
def Settled (point : ProductPoint) : Prop :=
  Acc (fun target source => CoveredStep space automaton source target) point

end Kinds

section Implications

variable {space : StateSpace R} {automaton : Automaton} {root : ProductPoint}

theorem Settled.no_cycle {point : ProductPoint} (settled : Settled space automaton point) :
    ¬ TransGen (CoveredStep space automaton) point point :=
  not_cyclic_of_acc settled .refl

/-- A walk is covered, or one of its transitions has no accepting end. -/
theorem covered_or_gap {first last : ProductPoint}
    (walk : TransGen (Successor space automaton) first last) :
    TransGen (CoveredStep space automaton) first last ∨
      ∃ source target, Reaches space automaton first source ∧
        Successor space automaton source target ∧ automaton.isAccepting source.2 = false ∧
        automaton.isAccepting target.2 = false ∧ Reaches space automaton target last := by
  have ends : ∀ source target, Successor space automaton source target →
      CoveredStep space automaton source target ∨
        (automaton.isAccepting source.2 = false ∧ automaton.isAccepting target.2 = false) := by
    intro source target step
    cases sourceAccepts : automaton.isAccepting source.2 with
    | true => exact .inl ⟨step, .inl sourceAccepts⟩
    | false =>
        cases targetAccepts : automaton.isAccepting target.2 with
        | true => exact .inl ⟨step, .inr targetAccepts⟩
        | false => exact .inr ⟨rfl, rfl⟩
  induction walk with
  | single step =>
      rcases ends _ _ step with covered | ⟨sourcePlain, targetPlain⟩
      · exact .inl (.single covered)
      · exact .inr ⟨_, _, .refl, step, sourcePlain, targetPlain, .refl⟩
  | tail walk step inductionHypothesis =>
      rcases inductionHypothesis with coveredWalk | ⟨source, target, before, gap, plain, rest⟩
      · rcases ends _ _ step with covered | ⟨sourcePlain, targetPlain⟩
        · exact .inl (coveredWalk.tail covered)
        · exact .inr ⟨_, _, walk.to_reflTransGen, step, sourcePlain, targetPlain, .refl⟩
      · exact .inr ⟨source, target, before, gap, plain, rest.1, rest.2.tail step⟩

theorem HasAcceptingCycle.covered_or_gapped (cycle : HasAcceptingCycle space automaton root) :
    HasCoveredCycle space automaton root ∨ HasGappedCycle space automaton root := by
  obtain ⟨point, reached, accepting, walk⟩ := cycle
  rcases covered_or_gap walk with covered | ⟨source, target, before, gap, plain⟩
  · exact .inl ⟨point, reached, covered⟩
  · exact .inr ⟨point, source, target, reached, accepting, before, gap, plain⟩

theorem HasCoveredCycle.accepting (cycle : HasCoveredCycle space automaton root) :
    HasAcceptingCycle space automaton root := by
  obtain ⟨point, reached, walk⟩ := cycle
  -- The last transition has an accepting end, and both ends lie on the cycle.
  obtain ⟨source, before, last⟩ := TransGen.tail'_iff.1 walk
  have beforePlain : Reaches space automaton point source :=
    ReflTransGen.mono (fun _ _ step => step.1) _ _ before
  rcases last.2 with sourceAccepts | targetAccepts
  · exact ⟨source, reached.trans beforePlain, sourceAccepts,
      .head' last.1 beforePlain⟩
  · exact ⟨point, reached, targetAccepts, .tail' beforePlain last.1⟩

theorem HasGappedCycle.accepting (cycle : HasGappedCycle space automaton root) :
    HasAcceptingCycle space automaton root := by
  obtain ⟨point, source, target, reached, accepting, before, gap, _, _, after⟩ := cycle
  exact ⟨point, reached, accepting, (TransGen.tail' before gap).trans_left after⟩

end Implications

/-! ## Automata without mixed components -/

namespace Automaton

/-- Whether some edge leads from one location to the other, whatever its guard. -/
def Leads (automaton : Automaton) (source target : LocationId) : Prop :=
  ∃ location edge, automaton.location? source = some location ∧ edge ∈ location.edges ∧
    edge.target = target

/-- Whether each strongly connected component is accepting as a whole or not at
all. -/
def Uniform (automaton : Automaton) : Prop :=
  ∀ first second, ReflTransGen automaton.Leads first second →
    ReflTransGen automaton.Leads second first →
    automaton.isAccepting first = automaton.isAccepting second

/-- An automaton is uniform if it never leaves the accepting locations. -/
theorem uniform_of_kept {automaton : Automaton}
    (kept : ∀ source target, automaton.Leads source target →
      automaton.isAccepting source = true → automaton.isAccepting target = true) :
    automaton.Uniform := by
  have along : ∀ source target, ReflTransGen automaton.Leads source target →
      automaton.isAccepting source = true → automaton.isAccepting target = true := by
    intro source target walk accepting
    induction walk with
    | refl => exact accepting
    | tail _ step inductionHypothesis => exact kept _ _ step inductionHypothesis
  intro first second there back
  exact Bool.eq_iff_iff.2 ⟨along first second there, along second first back⟩

end Automaton

section Uniform

variable {space : StateSpace R} {automaton : Automaton} {root : ProductPoint}

theorem Successor.leads {source target : ProductPoint}
    (step : Successor space automaton source target) : automaton.Leads source.2 target.2 := by
  obtain ⟨via, step⟩ := step
  cases step with
  | move here leaves => exact ⟨_, _, here, leaves, rfl⟩
  | stay here leaves => exact ⟨_, _, here, leaves, rfl⟩

theorem Reaches.leads {source target : ProductPoint}
    (walk : Reaches space automaton source target) :
    ReflTransGen automaton.Leads source.2 target.2 :=
  ReflTransGen.lift Prod.snd (fun _ _ => Successor.leads) _ _ walk

theorem Automaton.Uniform.not_gapped (uniform : automaton.Uniform) :
    ¬ HasGappedCycle space automaton root := by
  rintro ⟨point, source, target, _, accepting, before, gap, plain, _, after⟩
  have same : automaton.isAccepting point.2 = automaton.isAccepting source.2 :=
    uniform _ _ (Reaches.leads before) (Reaches.leads (.head gap after))
  rw [accepting, plain] at same
  cases same

theorem Automaton.Uniform.covered_iff_accepting (uniform : automaton.Uniform) :
    HasCoveredCycle space automaton root ↔ HasAcceptingCycle space automaton root := by
  refine ⟨HasCoveredCycle.accepting, fun cycle => ?_⟩
  rcases cycle.covered_or_gapped with covered | gapped
  · exact covered
  · exact absurd gapped uniform.not_gapped

end Uniform

/-! ## Lassos -/

/-- A path of the product from `root` whose last point has a transition back to
position `back`, so that what lies from there on is a cycle; it goes through an
accepting location. -/
structure IsLasso (space : StateSpace R) (automaton : Automaton) (root : ProductPoint)
    (points : List ProductPoint) (back : Nat) : Prop where
  starts : points[0]? = some root
  follows {position : Nat} {source target : ProductPoint} :
    points[position]? = some source → points[position + 1]? = some target →
      Successor space automaton source target
  returns : ∃ last target, points[points.length - 1]? = some last ∧
    points[back]? = some target ∧ Successor space automaton last target
  accepts : ∃ position point, back ≤ position ∧ points[position]? = some point ∧
    automaton.isAccepting point.2 = true

/-- The position on a lasso of that length after some number of steps. -/
def turn (length back steps : Nat) : Nat :=
  if steps < back then steps else back + (steps - back) % (length - back)

theorem turn_lt {length back : Nat} (inside : back < length) (steps : Nat) :
    turn length back steps < length := by
  unfold turn
  split
  · omega
  · have remainder : (steps - back) % (length - back) < length - back :=
      Nat.mod_lt _ (by omega)
    omega

theorem turn_of_lt {length back steps : Nat} (inside : steps < length) :
    turn length back steps = steps := by
  unfold turn
  split
  · rfl
  · rw [Nat.mod_eq_of_lt (by omega)]
    omega

/-- A step leads to the next position, or from the last one back. -/
theorem turn_succ {length back : Nat} (inside : back < length) (steps : Nat) :
    turn length back (steps + 1) = turn length back steps + 1 ∨
      (turn length back steps = length - 1 ∧ turn length back (steps + 1) = back) := by
  by_cases stem : steps + 1 < length
  · left
    rw [turn_of_lt stem, turn_of_lt (by omega)]
  · have remainder : (steps - back) % (length - back) < length - back :=
      Nat.mod_lt _ (by omega)
    have shifted : steps + 1 - back = steps - back + 1 := by omega
    unfold turn
    rw [if_neg (by omega), if_neg (by omega), shifted, ← Nat.mod_add_mod]
    by_cases atEnd : (steps - back) % (length - back) + 1 = length - back
    · right
      rw [atEnd, Nat.mod_self]
      omega
    · left
      rw [Nat.mod_eq_of_lt (by omega)]
      omega

/-- After enough rounds a position of the cycle comes up again. -/
theorem exists_turn_eq {length back position : Nat} (onCycle : back ≤ position)
    (inside : position < length) (steps : Nat) :
    ∃ later, steps ≤ later ∧ turn length back later = position := by
  refine ⟨position + steps * (length - back), ?_, ?_⟩
  · have grows : steps * 1 ≤ steps * (length - back) := Nat.mul_le_mul_left _ (by omega)
    omega
  · have shifted : position + steps * (length - back) - back =
        position - back + steps * (length - back) := by omega
    unfold turn
    rw [if_neg (by omega), shifted, Nat.add_mul_mod_self_right, Nat.mod_eq_of_lt (by omega)]
    omega

section Lasso

variable {space : StateSpace R} {automaton : Automaton} {root : ProductPoint}
  {points : List ProductPoint} {back : Nat}

theorem IsLasso.back_lt (lasso : IsLasso space automaton root points back) :
    back < points.length := by
  obtain ⟨_, _, _, found, _⟩ := lasso.returns
  exact (List.getElem?_eq_some_iff.1 found).1

/-- Unrolled, a lasso is an infinite run of the product that visits accepting
locations infinitely often. -/
theorem IsLasso.infinite_run (lasso : IsLasso space automaton root points back) :
    ∃ visit : Nat → ProductPoint,
      (∀ steps, points[turn points.length back steps]? = some (visit steps)) ∧
        visit 0 = root ∧ (∀ steps, Successor space automaton (visit steps) (visit (steps + 1))) ∧
        ∀ steps, ∃ later, steps ≤ later ∧ automaton.isAccepting (visit later).2 = true := by
  have inside := lasso.back_lt
  let visit : Nat → ProductPoint := fun steps =>
    points.get ⟨turn points.length back steps, turn_lt inside steps⟩
  have visited : ∀ steps, points[turn points.length back steps]? = some (visit steps) :=
    fun steps => List.getElem?_eq_getElem (turn_lt inside steps)
  refine ⟨visit, visited, ?_, ?_, ?_⟩
  · have first := visited 0
    rw [turn_of_lt (by omega), lasso.starts] at first
    exact (Option.some.inj first).symm
  · intro steps
    have here := visited steps
    have there := visited (steps + 1)
    rcases turn_succ inside steps with next | ⟨atEnd, atBack⟩
    · rw [next] at there
      exact lasso.follows here there
    · obtain ⟨last, target, foundLast, foundTarget, step⟩ := lasso.returns
      rw [atEnd, foundLast] at here
      rw [atBack, foundTarget] at there
      rw [← Option.some.inj here, ← Option.some.inj there]
      exact step
  · intro steps
    obtain ⟨position, point, onCycle, found, accepting⟩ := lasso.accepts
    have below := (List.getElem?_eq_some_iff.1 found).1
    obtain ⟨later, after, arrives⟩ := exists_turn_eq onCycle below steps
    have there := visited later
    rw [arrives, found] at there
    exact ⟨later, after, Option.some.inj there ▸ accepting⟩

/-- A lasso has an accepting cycle. -/
theorem IsLasso.hasAcceptingCycle (lasso : IsLasso space automaton root points back) :
    HasAcceptingCycle space automaton root := by
  obtain ⟨visit, visited, start, steps, _⟩ := lasso.infinite_run
  have walk : ∀ first count, Reaches space automaton (visit first) (visit (first + count)) := by
    intro first count
    induction count with
    | zero => exact .refl
    | succ count inductionHypothesis => exact inductionHypothesis.tail (steps _)
  obtain ⟨position, point, onCycle, found, accepting⟩ := lasso.accepts
  have below := (List.getElem?_eq_some_iff.1 found).1
  have here := visited position
  rw [turn_of_lt below, found] at here
  -- The run comes to the accepting point once on its way and then again.
  obtain ⟨again, after, arrives⟩ := exists_turn_eq onCycle below (position + 1)
  have there := visited again
  rw [arrives, found] at there
  refine ⟨point, ?_, accepting, ?_⟩
  · have arrived := walk 0 position
    rw [start, Nat.zero_add, ← Option.some.inj here] at arrived
    exact arrived
  · have around := walk (position + 1) (again - (position + 1))
    rw [Nat.add_sub_cancel' after, ← Option.some.inj there] at around
    have first := steps position
    rw [← Option.some.inj here] at first
    exact .head' first around

end Lasso

end OnTheFly
