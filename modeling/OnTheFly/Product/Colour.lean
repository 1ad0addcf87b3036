/-!
Contract: colours of product states, renewed with every iteration of a search.

Owns: the rounds of a search, the colours that belong to them and the counter
that hands out a number for each colour.

A colour remembers the iteration in which it was painted, so a new round sees
every state as unexplored without touching any of them.
-/

set_option autoImplicit false

namespace OnTheFly

inductive Paint where
  /-- On the search stack. -/
  | cyan
  /-- Left behind. -/
  | blue
  /-- Left behind, at an accepting location. -/
  | red
deriving DecidableEq, Repr

inductive Colour where
  | unpainted
  | painted (iteration : Nat) (paint : Paint)
deriving DecidableEq, Repr, Inhabited

namespace Colour

def isUnpainted (colour : Colour) : Bool :=
  colour = .unpainted

/-- The number of a colour: zero for none, otherwise the one that it gets from
the counter. -/
def token : Colour → Nat
  | .unpainted => 0
  | .painted iteration .cyan => 3 * (iteration - 1) + 1
  | .painted iteration .blue => 3 * (iteration - 1) + 2
  | .painted iteration .red => 3 * (iteration - 1) + 3

end Colour

/-- The numbers of the three colours of a round, and the counter. -/
structure Palette where
  cyan : Nat := 1
  blue : Nat := 2
  red : Nat := 3
  /-- The first number that has not been handed out. -/
  unused : Nat := 4
deriving DecidableEq, Repr

/-- Hands out three more numbers. -/
def Palette.renewed (palette : Palette) : Palette where
  cyan := palette.unused
  blue := palette.unused + 1
  red := palette.unused + 2
  unused := palette.unused + 3

/-- One iteration of a search, counted from one. -/
structure Round where
  iteration : Nat := 1
deriving DecidableEq, Repr, Inhabited

namespace Round

def next (round : Round) : Round :=
  ⟨round.iteration + 1⟩

def cyan (round : Round) : Colour :=
  .painted round.iteration .cyan

def blue (round : Round) : Colour :=
  .painted round.iteration .blue

def red (round : Round) : Colour :=
  .painted round.iteration .red

/-- The numbers of a round: those of the first one, renewed for each other. -/
def palette (round : Round) : Palette :=
  Nat.repeat Palette.renewed (round.iteration - 1) {}

/-- Whether a state of this colour has been visited in this round. -/
def isExplored (round : Round) (colour : Colour) : Bool :=
  colour = round.cyan || colour = round.blue || colour = round.red

end Round

end OnTheFly
