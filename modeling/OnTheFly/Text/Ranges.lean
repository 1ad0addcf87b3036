/-!
Contract: sets of characters given by inclusive ranges of code points.

Owns: membership of a character in a table of ranges.
Does not own: any particular table.
-/

set_option autoImplicit false

namespace OnTheFly.Text

/-- Inclusive ranges of code points. -/
abbrev Ranges := List (Nat × Nat)

/-- Whether some range of the table holds the character. -/
def Ranges.covers (ranges : Ranges) (character : Char) : Bool :=
  ranges.any fun range => range.1 ≤ character.toNat && character.toNat ≤ range.2

end OnTheFly.Text
