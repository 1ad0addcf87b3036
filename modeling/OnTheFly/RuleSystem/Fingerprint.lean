import OnTheFly.Text.Hexadecimal

/-!
Contract: 64-bit fingerprints of graphs.

Owns: the fingerprint of a hashable value and its sixteen-digit text.
A fingerprint never identifies a graph: equal graphs have equal fingerprints,
and nothing more is relied upon.
-/

set_option autoImplicit false

namespace OnTheFly

structure Fingerprint where
  value : UInt64
deriving DecidableEq, Repr, Inhabited

namespace Fingerprint

def of {Value : Type} [Hashable Value] (value : Value) : Fingerprint :=
  ⟨hash value⟩

/-- Sixteen hexadecimal digits. -/
def render (fingerprint : Fingerprint) : String :=
  let digits := Text.hexadecimal fingerprint.value.toNat
  String.ofList (List.replicate (16 - digits.length) '0') ++ digits

def describe (fingerprint : Fingerprint) : String :=
  s!"Fingerprint({fingerprint.render})"

end Fingerprint

end OnTheFly
