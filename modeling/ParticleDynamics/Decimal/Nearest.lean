import ParticleDynamics.Decimal.Literal
import ParticleDynamics.Single

/-!
# Rounding to binary

A binary floating-point format holds the numbers `m * 2 ^ q` whose significand `m` has at most a
given number of bits and whose exponent `q` lies between two ends. `BinaryFormat.nearest` rounds an
exact quotient to the nearest of them, a tie to the even significand, and gives nothing when the
result would lie beyond the greatest exponent.

A literal is read **by way of double precision**: it is rounded to a double first and that double to
a single; a literal too large for a double becomes infinite. Where the first rounding lands on a tie
of the second, the result differs from rounding at once, which is why both steps are spelled out.
-/

namespace ParticleDynamics

/-- The quotient of two numbers, rounded to the nearest whole number, a tie to the even one. -/
def divideToEven (numerator denominator : Nat) : Nat :=
  let quotient := numerator / denominator
  let twice := 2 * (numerator % denominator)
  if twice < denominator then quotient
  else if denominator < twice then quotient + 1
  else quotient + quotient % 2

/-- An exact quotient is not changed by rounding. -/
theorem divideToEven_mul_self (n : Nat) {denominator : Nat} (h : 0 < denominator) :
    divideToEven (n * denominator) denominator = n := by
  simp [divideToEven, Nat.mul_div_cancel _ h, h]

/-- A binary floating-point format. -/
structure BinaryFormat where
  /-- the number of bits of a significand -/
  precision : Nat
  /-- the least exponent -/
  least : Int
  /-- the greatest exponent -/
  most : Int

namespace BinaryFormat

/-- Double precision. -/
def double : BinaryFormat := ⟨53, -1074, 971⟩

/-- Single precision. -/
def single : BinaryFormat := ⟨24, -149, 104⟩

/-- The quotient `numerator / (denominator * 2 ^ q)` as a pair. -/
def scaled (numerator denominator : Nat) (q : Int) : Nat × Nat :=
  (numerator * Nat.pow 2 (-q).toNat, denominator * Nat.pow 2 q.toNat)

/-- The exponent under which a positive quotient has a significand of full precision, or the least
exponent when that would be below it. -/
def exponentOf (format : BinaryFormat) (numerator denominator : Nat) : Int :=
  let guess := Int.ofNat numerator.log2 - Int.ofNat denominator.log2 - Int.ofNat format.precision
  let (n, d) := scaled numerator denominator guess
  max (if d * Nat.pow 2 format.precision ≤ n then guess + 1 else guess) format.least

/-- The nearest number of the format, as significand and exponent; nothing when the quotient is too
large. -/
def nearest (format : BinaryFormat) (numerator denominator : Nat) : Option (Nat × Int) :=
  if numerator = 0 then some (0, format.least)
  else
    let q := format.exponentOf numerator denominator
    let (n, d) := scaled numerator denominator q
    let m := divideToEven n d
    let (m, q) := if m = Nat.pow 2 format.precision then (m / 2, q + 1) else (m, q)
    if format.most < q then none else some (m, q)

end BinaryFormat

namespace Single

/-- The leading bit of a full significand, which is also the unit of the exponent field. -/
def leadingBit : Nat := 8388608

/-- The bits of infinity. -/
def infinityBits : UInt32 := 0x7f800000

/-- The bits with the sign bit added. -/
def signed (negative : Bool) (bits : UInt32) : Single :=
  ⟨if negative then bits ||| signBit else bits⟩

/-- The number `m * 2 ^ q` of single precision. The exponent field counts from the least exponent,
and the leading bit of a full significand carries into it. -/
def ofParts (negative : Bool) (m : Nat) (q : Int) : Single :=
  signed negative (((q + 149).toNat * leadingBit + m).toUInt32)

/-- What a single-precision number is. -/
inductive Kind where
  /-- not a number -/
  | notANumber
  /-- infinite -/
  | infinite
  /-- the number `m * 2 ^ q` -/
  | finite (m : Nat) (q : Int)
deriving DecidableEq, Repr

/-- What a number is, apart from its sign. -/
def kind (x : Single) : Kind :=
  let bits := x.bits.toNat
  let field := bits / leadingBit % 256
  let fraction := bits % leadingBit
  if field = 255 then (if fraction = 0 then .infinite else .notANumber)
  else if field = 0 then .finite fraction (-149)
  else .finite (fraction + leadingBit) (Int.ofNat field - 150)

/-- The nearest single of `m * 2 ^ q`; too large a number becomes infinite. -/
def nearest (negative : Bool) (m : Nat) (q : Int) : Single :=
  match BinaryFormat.single.nearest (m * Nat.pow 2 q.toNat) (Nat.pow 2 (-q).toNat) with
  | some (m, q) => ofParts negative m q
  | none => signed negative infinityBits

end Single

namespace Literal

/-- From this power of ten on, every number is too large for a double. -/
def hugePower : Int := 310

/-- Below this power of ten, every number is nearer to zero than to any double. -/
def tinyPower : Int := -330

/-- The nearest double of the magnitude, as significand and exponent; nothing when it is too large.
Magnitudes far out of range are recognised by their power of ten, without computing them. -/
def nearestDouble (l : Literal) : Option (Nat × Int) :=
  let digits := (l.whole ++ l.fraction).dropWhile (· = Digit.zero)
  let power := l.scale + Int.ofNat digits.length
  if digits.isEmpty ∨ power ≤ tinyPower then some (0, BinaryFormat.double.least)
  else if hugePower < power then none
  else
    BinaryFormat.double.nearest (l.significand * Nat.pow 10 l.scale.toNat)
      (Nat.pow 10 (-l.scale).toNat)

/-- The number of single precision that a literal denotes, by way of double precision. -/
def toSingle (l : Literal) : Single :=
  match l.nearestDouble with
  | some (m, q) => Single.nearest l.negative m q
  | none => Single.signed l.negative Single.infinityBits

/-- The word that a literal denotes: whole, without a sign, and in range. -/
def toWord? (l : Literal) : Option UInt32 :=
  if l.isWhole ∧ l.negative = false ∧ l.significand < 4294967296 then some l.significand.toUInt32
  else none

end Literal

end ParticleDynamics
