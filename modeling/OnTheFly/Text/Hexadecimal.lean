/-!
Contract: numbers in base sixteen.
-/

set_option autoImplicit false

namespace OnTheFly.Text

/-- Digits of a number in base sixteen, in lower case and without leading zeros. -/
def hexadecimal (value : Nat) : String :=
  String.ofList (Nat.toDigits 16 value)

end OnTheFly.Text
