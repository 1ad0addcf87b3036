import OnTheFly.Text.Ranges

/-!
Contract: blank characters, and text without the blanks at its ends.

Owns: the Unicode property `White_Space` and trimming by it.
-/

set_option autoImplicit false

namespace OnTheFly.Text

/-- The characters with the Unicode property `White_Space`. -/
def blankRanges : Ranges := [
    (0x9, 0xD), (0x20, 0x20), (0x85, 0x85), (0xA0, 0xA0), (0x1680, 0x1680), (0x2000, 0x200A),
    (0x2028, 0x2029), (0x202F, 0x202F), (0x205F, 0x205F), (0x3000, 0x3000)]

def isBlank (character : Char) : Bool :=
  blankRanges.covers character

def trimStart (text : List Char) : List Char :=
  text.dropWhile isBlank

def trimEnd (text : List Char) : List Char :=
  (trimStart text.reverse).reverse

/-- The text without the blank characters at its two ends. -/
def trim (text : List Char) : List Char :=
  trimEnd (trimStart text)

end OnTheFly.Text
