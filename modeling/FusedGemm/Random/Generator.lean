/-!
# The random number generator

A permuted congruential generator: its state is a 128-bit word that a linear congruence advances,
and each word it gives is the exclusive or of the two halves of the new state, rotated by the
state's highest bits.  `Generator.ofSeed` expands a 64-bit seed to state and increment with a
smaller generator of the same kind.
-/

namespace FusedGemm

/-- The state of the generator and the odd increment of its congruence. -/
structure Generator where
  state : BitVec 128
  increment : BitVec 128
  deriving DecidableEq

namespace Generator

/-- The factor of the congruence. -/
def multiplier : BitVec 128 := 0x2360ED051FC65DA44385DF649FCCF645#128

/-- One step of the congruence. -/
def advance (g : Generator) : Generator := ⟨g.state * multiplier + g.increment, g.increment⟩

/-- The word that a state gives. -/
def output (g : Generator) : UInt64 :=
  let folded : BitVec 64 := (g.state >>> 64).truncate 64 ^^^ g.state.truncate 64
  .ofBitVec (folded.rotateRight (g.state >>> 122).toNat)

/-- The next word, with the generator after it. -/
def next (g : Generator) : UInt64 × Generator := (g.advance.output, g.advance)

/-- One step of the congruence that expands a seed. -/
def advanceSeed (s : BitVec 64) : BitVec 64 := s * 6364136223846793005 + 11634580027462260723

/-- The word that a step of the seed's congruence gives. -/
def seedOutput (s : BitVec 64) : BitVec 32 :=
  ((((s >>> 18) ^^^ s) >>> 27).truncate 32).rotateRight (s >>> 59).toNat

/-- The first `n` words that a seed expands to. -/
def seedWords : Nat → BitVec 64 → List (BitVec 32)
  | 0, _ => []
  | n + 1, s => seedOutput (advanceSeed s) :: seedWords n (advanceSeed s)

/-- Words put together to a number, the lowest first. -/
def joinWords : List (BitVec 32) → Nat
  | [] => 0
  | w :: ws => w.toNat + 2 ^ 32 * joinWords ws

/-- The generator of a seed.  Four of the seed's words are the state and four the increment; the
state takes one step after the increment has been added to it. -/
def ofSeed (seed : UInt64) : Generator :=
  let words := seedWords 8 seed.toBitVec
  let start := BitVec.ofNat 128 (joinWords (words.take 4))
  let increment := BitVec.ofNat 128 (joinWords (words.drop 4)) ||| 1
  advance ⟨start + increment, increment⟩

end Generator

end FusedGemm
