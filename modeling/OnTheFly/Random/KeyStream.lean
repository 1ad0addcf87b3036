/-!
Contract: the ChaCha key stream with twelve rounds, seeded by one word.

Owns: the key of a seed and the word at each position of its stream. Words are
numbered from zero; sixteen of them come from one block.
-/

set_option autoImplicit false

namespace OnTheFly.Random

/-- The sixteen words on which the rounds work. -/
abbrev Block := Vector UInt32 16

def rotateLeft (word : UInt32) (amount : UInt32) : UInt32 :=
  (word <<< amount) ||| (word >>> (32 - amount))

/-- The quarter round on four places of the block. -/
def quarterRound (a b c d : Fin 16) (block : Block) : Block :=
  let block := block.set a (block[a] + block[b])
  let block := block.set d (rotateLeft (block[d] ^^^ block[a]) 16)
  let block := block.set c (block[c] + block[d])
  let block := block.set b (rotateLeft (block[b] ^^^ block[c]) 12)
  let block := block.set a (block[a] + block[b])
  let block := block.set d (rotateLeft (block[d] ^^^ block[a]) 8)
  let block := block.set c (block[c] + block[d])
  block.set b (rotateLeft (block[b] ^^^ block[c]) 7)

/-- One round on the columns and one on the diagonals. -/
def doubleRound (block : Block) : Block :=
  let block := quarterRound 0 4 8 12 block
  let block := quarterRound 1 5 9 13 block
  let block := quarterRound 2 6 10 14 block
  let block := quarterRound 3 7 11 15 block
  let block := quarterRound 0 5 10 15 block
  let block := quarterRound 1 6 11 12 block
  let block := quarterRound 2 7 8 13 block
  quarterRound 3 4 9 14 block

abbrev Key := Vector UInt32 8

/-- The block before the rounds: four constants, the key, the number of the
block and an empty nonce. -/
def openingBlock (key : Key) (number : UInt64) : Block :=
  #v[0x61707865, 0x3320646E, 0x79622D32, 0x6B206574,
    key[0], key[1], key[2], key[3], key[4], key[5], key[6], key[7],
    number.toUInt32, (number >>> 32).toUInt32, 0, 0]

def blockAt (key : Key) (number : Nat) : Block :=
  let opening := openingBlock key (UInt64.ofNat number)
  (Nat.repeat doubleRound 6 opening).zipWith (· + ·) opening

/-- The word at a position of the stream. -/
def wordAt (key : Key) (position : Nat) : UInt32 :=
  (blockAt key (position / 16)).get ⟨position % 16, Nat.mod_lt _ (by decide)⟩

/-- One step of the congruential generator that stretches a seed to a key. -/
def stretch (state : UInt64) : UInt64 :=
  state * 6364136223846793005 + 11634580027462260723

/-- The key word of a state: its mixed upper half, rotated by its top five bits. -/
def keyWord (state : UInt64) : UInt32 :=
  let mixed := (((state >>> 18) ^^^ state) >>> 27).toUInt32
  let amount := (state >>> 59).toUInt32
  (mixed >>> amount) ||| (mixed <<< ((32 - amount) % 32))

def keyOfSeed (seed : UInt64) : Key :=
  Vector.ofFn fun place => keyWord (Nat.repeat stretch (place.val + 1) seed)

end OnTheFly.Random
