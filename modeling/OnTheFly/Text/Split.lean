/-!
Contract: cutting text at marks.

Owns: the lines of a text, the part before a mark, and the two parts around the
first occurrence of a mark.
Does not own: which marks a format uses.
-/

set_option autoImplicit false

namespace OnTheFly.Text

/-- The lines of a text: what stands between line feeds. There is always at
least one, and the last one is empty when the text ends in a line feed. -/
def lines : List Char → List (List Char)
  | [] => [[]]
  | character :: rest =>
      if character = '\n' then [] :: lines rest
      else
        match lines rest with
        | [] => [[character]]
        | line :: others => (character :: line) :: others

/-- The part of the text before the first occurrence of a character. -/
def before (mark : Char) (text : List Char) : List Char :=
  text.takeWhile (· ≠ mark)

/-- What follows `mark` if the text starts with it. -/
def afterStart? : List Char → List Char → Option (List Char)
  | [], text => some text
  | _ :: _, [] => none
  | expected :: mark, character :: text =>
      if character = expected then afterStart? mark text else none

/-- The parts before and after the first occurrence of `mark`. -/
def cut? (mark : List Char) : List Char → Option (List Char × List Char)
  | [] => (afterStart? mark []).map fun rest => ([], rest)
  | character :: text =>
      match afterStart? mark (character :: text) with
      | some rest => some ([], rest)
      | none => (cut? mark text).map fun parts => (character :: parts.1, parts.2)

end OnTheFly.Text
