/-!
Contract: finite sets of names in ascending order.

Owns: insertion, membership, and the invariant that the listed names ascend
strictly by code point, so that a set has exactly one representation.
-/

set_option autoImplicit false

namespace OnTheFly

/-- The list with `name` at its place in the ascending order; a name that is
already there stays as it is. -/
def insertName (name : String) : List String → List String
  | [] => [name]
  | head :: tail =>
      if name < head then name :: head :: tail
      else if name = head then head :: tail
      else head :: insertName name tail

@[simp] theorem mem_insertName {name other : String} {names : List String} :
    other ∈ insertName name names ↔ other = name ∨ other ∈ names := by
  induction names with
  | nil => simp [insertName]
  | cons head tail inductionHypothesis =>
      unfold insertName
      split
      · simp
      · split
        · rename_i same
          simp [same]
        · simp [inductionHypothesis, or_left_comm]

theorem insertName_ascending (name : String) {names : List String}
    (ascending : names.Pairwise (· < ·)) : (insertName name names).Pairwise (· < ·) := by
  induction names with
  | nil => simp [insertName]
  | cons head tail inductionHypothesis =>
      obtain ⟨headBelow, tailAscending⟩ := List.pairwise_cons.1 ascending
      unfold insertName
      split
      · rename_i below
        refine List.pairwise_cons.2 ⟨?_, ascending⟩
        intro other member
        rcases List.mem_cons.1 member with rfl | member
        · exact below
        · exact String.lt_trans below (headBelow other member)
      · split
        · exact ascending
        · rename_i notBelow different
          refine List.pairwise_cons.2 ⟨?_, inductionHypothesis tailAscending⟩
          intro other member
          rcases mem_insertName.1 member with rfl | member
          · exact String.not_le.1 fun atMost =>
              different (String.le_antisymm atMost (String.not_lt.1 notBelow))
          · exact headBelow other member

/-- A finite set of names. -/
structure NameSet where
  names : List String
  ascending : names.Pairwise (· < ·)
deriving DecidableEq, Repr

namespace NameSet

def empty : NameSet := ⟨[], .nil⟩

def insert (set : NameSet) (name : String) : NameSet :=
  ⟨insertName name set.names, insertName_ascending name set.ascending⟩

def ofList (names : List String) : NameSet :=
  names.foldl insert empty

def contains (set : NameSet) (name : String) : Bool :=
  set.names.contains name

def isEmpty (set : NameSet) : Bool :=
  set.names.isEmpty

instance : Membership String NameSet where
  mem set name := name ∈ set.names

instance (name : String) (set : NameSet) : Decidable (name ∈ set) :=
  inferInstanceAs (Decidable (name ∈ set.names))

instance : EmptyCollection NameSet := ⟨empty⟩

instance : Inhabited NameSet := ⟨empty⟩

theorem mem_iff {name : String} {set : NameSet} : name ∈ set ↔ name ∈ set.names := Iff.rfl

@[simp] theorem not_mem_empty {name : String} : ¬ name ∈ (∅ : NameSet) := by
  intro member
  cases mem_iff.1 member

@[simp] theorem mem_insert {name other : String} {set : NameSet} :
    other ∈ set.insert name ↔ other = name ∨ other ∈ set :=
  mem_insertName

@[simp] theorem contains_iff {name : String} {set : NameSet} :
    set.contains name = true ↔ name ∈ set := by
  simp [contains, mem_iff]

theorem mem_foldl_insert {name : String} (names : List String) (set : NameSet) :
    name ∈ names.foldl insert set ↔ name ∈ names ∨ name ∈ set := by
  induction names generalizing set with
  | nil => simp
  | cons head tail inductionHypothesis =>
      simp only [List.foldl_cons, inductionHypothesis, mem_insert, List.mem_cons]
      exact ⟨fun h => by rcases h with h | h | h <;> simp [h],
        fun h => by rcases h with (h | h) | h <;> simp [h]⟩

@[simp] theorem mem_ofList {name : String} {names : List String} :
    name ∈ ofList names ↔ name ∈ names := by
  rw [ofList, mem_foldl_insert]
  exact ⟨fun h => h.resolve_right not_mem_empty, Or.inl⟩

end NameSet

end OnTheFly
