import ParticleDynamics.Single

/-!
# Random numbers

A permuted congruential generator: the state of 64 bits goes through an affine map, and each result
of 32 bits is taken from the state *before* the map, by shifts and a rotation whose distance the
highest bits select. The increment of the map has to be odd, which is why seeding sets its lowest
bit; different increments give different streams.

A seed of 64 bits is spread over state and increment by a generator of the same kind with a fixed
increment. All words wrap.
-/

namespace ParticleDynamics

namespace Demo

/-- A random number generator. -/
structure Generator where
  /-- the state -/
  state : UInt64
  /-- what the affine map adds -/
  increment : UInt64
deriving DecidableEq, Repr

namespace Generator

/-- What the affine map multiplies with. -/
def multiplier : UInt64 := 6364136223846793005

/-- What the affine map adds while a seed is spread. -/
def seedIncrement : UInt64 := 11634580027462260723

/-- The result that is taken from a state. -/
def permute (state : UInt64) : UInt32 :=
  let mixed := (((state >>> 18) ^^^ state) >>> 27).toUInt32
  let distance := (state >>> 59).toUInt32
  (mixed >>> distance) ||| (mixed <<< ((32 - distance) % 32))

/-- The words into which a seed is spread, the given number of them. -/
def spread : (count : Nat) → (seed : UInt64) → List UInt32
  | 0, _ => []
  | count + 1, seed =>
    let state := seed * multiplier + seedIncrement
    permute state :: spread count state

/-- Two words as one, the lower half first. -/
def joined (low high : UInt32) : UInt64 := low.toUInt64 ||| (high.toUInt64 <<< 32)

/-- The generator with the given start and increment; the increment is made odd. -/
def ofParts (start increment : UInt64) : Generator :=
  let odd := increment ||| 1
  ⟨(start + odd) * multiplier + odd, odd⟩

/-- The generator of a seed. -/
def ofSeed (seed : UInt64) : Generator :=
  match spread 4 seed with
  | [a, b, c, d] => ofParts (joined a b) (joined c d)
  | _ => ofParts 0 0

/-- A random word, and the generator after it. -/
def next (g : Generator) : UInt32 × Generator :=
  (permute g.state, { g with state := g.state * multiplier + g.increment })

/-- A random number from `lo` up to but not including `hi`, and the generator after it. The highest
23 bits of a word become a fraction between one and two. -/
def between (lo hi : Single) (g : Generator) : Single × Generator :=
  let (word, after) := g.next
  let fraction := (⟨(0x3f800000 : UInt32) ||| (word >>> 9)⟩ : Single) - 1
  (fraction * (hi - lo) + lo, after)

end Generator

end Demo

end ParticleDynamics
