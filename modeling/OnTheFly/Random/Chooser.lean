import OnTheFly.Random.KeyStream

/-!
Contract: seeded choices among finitely many candidates.

Owns: the class of choosers, the choice of one element of a list, and the
chooser that draws from a key stream.

All that a search relies on is `below_lt`: a choice among `count` candidates is
one of them. Which one it is depends on the seed alone.
-/

set_option autoImplicit false

namespace OnTheFly

/-- A source of choices. -/
class Chooser (G : Type) where
  seeded : UInt64 → G
  /-- A number below `count`, if `count` is not zero. -/
  below : Nat → G → Nat × G
  below_lt : ∀ (count : Nat) (chooser : G), 0 < count → (below count chooser).1 < count

namespace Chooser

variable {G : Type} [Chooser G] {Candidate : Type}

/-- Goes through the candidates, of which `seen` came before. The one with
number `n`, counted from one, replaces the choice so far if a number below `n`
comes out as zero. -/
def chooseAfter (seen : Nat) (chosen : Option Candidate) :
    List Candidate → G → Option Candidate × G
  | [], chooser => (chosen, chooser)
  | candidate :: rest, chooser =>
      let (number, chooser) := below (seen + 1) chooser
      chooseAfter (seen + 1) (if number = 0 then some candidate else chosen) rest chooser

/-- One of the candidates, each as likely as the others. -/
def choose (candidates : List Candidate) (chooser : G) : Option Candidate × G :=
  chooseAfter 0 none candidates chooser

end Chooser

/-- A position in the key stream of a seed. -/
structure StreamChooser where
  key : Random.Key
  position : Nat := 0

namespace StreamChooser

def draw (chooser : StreamChooser) : UInt32 × StreamChooser :=
  (Random.wordAt chooser.key chooser.position, { chooser with position := chooser.position + 1 })

/-- The greatest lower half of a product that keeps the choice among `count`
candidates unbiased. -/
def zone (count : Nat) : Nat :=
  (count <<< (31 - Nat.log2 count)) - 1

/-- Draws until the lower half of word times `count` is in the zone; the upper
half is the choice. Each draw succeeds with a chance of one half or more. After
`attempts` failures the choice is zero. -/
def belowWithin (count : Nat) : Nat → StreamChooser → Nat × StreamChooser
  | 0, chooser => (0, chooser)
  | attempts + 1, chooser =>
      let (word, chooser) := chooser.draw
      let product := word.toNat * count
      if product % UInt32.size ≤ zone count then (product / UInt32.size, chooser)
      else belowWithin count attempts chooser

theorem belowWithin_lt (count attempts : Nat) (chooser : StreamChooser) (positive : 0 < count) :
    (belowWithin count attempts chooser).1 < count := by
  induction attempts generalizing chooser with
  | zero => exact positive
  | succ attempts inductionHypothesis =>
      simp only [belowWithin]
      split
      · refine Nat.div_lt_of_lt_mul ?_
        exact Nat.mul_lt_mul_of_pos_right (UInt32.toNat_lt_size _) positive
      · exact inductionHypothesis _

instance : Chooser StreamChooser where
  seeded seed := { key := Random.keyOfSeed seed }
  below count chooser := belowWithin count 1024 chooser
  below_lt count chooser positive := belowWithin_lt count 1024 chooser positive

end StreamChooser

end OnTheFly
