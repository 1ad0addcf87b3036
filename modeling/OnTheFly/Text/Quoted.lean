import OnTheFly.Text.Hexadecimal
import OnTheFly.Text.Unprintable

/-!
Contract: text between double quotes, with escapes.

Owns: which characters are escaped, and how. A quote and a backslash take a
backslash; NUL, tab, line feed and carriage return have a letter; any other
character without a glyph is written as `\u`, its code point in hexadecimal
between braces.
-/

set_option autoImplicit false

namespace OnTheFly.Text

def escape (character : Char) : String :=
  if character = '"' then "\\\""
  else if character = '\\' then "\\\\"
  else if character = '\x00' then "\\0"
  else if character = '\t' then "\\t"
  else if character = '\n' then "\\n"
  else if character = '\r' then "\\r"
  else if isUnprintable character then
    "\\u\x7b" ++ hexadecimal character.toNat ++ "\x7d"
  else String.singleton character

/-- The text in double quotes. -/
def quoted (text : String) : String :=
  "\"" ++ String.join (text.toList.map escape) ++ "\""

end OnTheFly.Text
