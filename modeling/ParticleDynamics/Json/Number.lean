import ParticleDynamics.Decimal.Nearest

/-!
# How a number is understood

The interchange format leaves it to a reader how precisely it takes a number. This one reads a
number of single precision in one of two ways:

* a whole number that fits a word of double length is exact, and rounded once;
* any other number goes by way of double precision, in **one multiplication or division by a power
  of ten**. Its significand is the number that the leading digits make, as far as they fit a word of
  double length; digits that are dropped before the point count as zeros, digits that are dropped
  behind it count as nothing. Significand, power and result are each rounded to a double.

The second way is not the nearest double in every case. A result too large for a double is no
number at all; one too large for a single is infinite.
-/

namespace ParticleDynamics

namespace BinaryFormat

/-- A number of a format, as significand and exponent. -/
abbrev Number : Type := Nat × Int

/-- The nearest number to a product. -/
def product (format : BinaryFormat) (x y : Number) : Option Number :=
  let q := x.2 + y.2
  format.nearest (x.1 * y.1 * Nat.pow 2 q.toNat) (Nat.pow 2 (-q).toNat)

/-- The nearest number to a quotient. -/
def quotient (format : BinaryFormat) (x y : Number) : Option Number :=
  let q := x.2 - y.2
  format.nearest (x.1 * Nat.pow 2 q.toNat) (y.1 * Nat.pow 2 (-q).toNat)

end BinaryFormat

namespace Literal

/-- The greatest significand. -/
def greatestSignificand : Nat := 18446744073709551615

/-- A significand with as many more digits as fit, and the digits that do not. -/
def absorb (significand : Nat) : List Digit → Nat × List Digit
  | [] => (significand, [])
  | d :: rest =>
    if 10 * significand + d.val ≤ greatestSignificand then absorb (10 * significand + d.val) rest
    else (significand, d :: rest)

/-- The significand of the leading digits, and the power of ten by which it is scaled. -/
def leading (l : Literal) : Nat × Int :=
  let (whole, dropped) := absorb 0 l.whole
  let (significand, ignored) := absorb whole l.fraction
  let places := l.fraction.length - ignored.length
  (significand, l.exponent.getD 0 + Int.ofNat dropped.length - Int.ofNat places)

/-- The greatest power of ten that is a double. -/
def greatestPower : Nat := 308

/-- The nearest double to a power of ten, up to the greatest. -/
def tenTo (power : Nat) : BinaryFormat.Number :=
  (BinaryFormat.double.nearest (Nat.pow 10 power) 1).getD (0, 0)

/-- A double multiplied by a power of ten; nothing when the result is too large. -/
def scaleUp (x : BinaryFormat.Number) (power : Nat) : Option BinaryFormat.Number :=
  if power ≤ greatestPower then BinaryFormat.double.product x (tenTo power)
  else if x.1 = 0 then some x
  else none

/-- A double divided by a power of ten, by the greatest one first as long as the power exceeds
it. -/
def scaleDown (x : BinaryFormat.Number) (power : Nat) : Option BinaryFormat.Number :=
  if power ≤ greatestPower then BinaryFormat.double.quotient x (tenTo power)
  else if x.1 = 0 then some x
  else
    match BinaryFormat.double.quotient x (tenTo greatestPower) with
    | some y => scaleDown y (power - greatestPower)
    | none => none
termination_by power
decreasing_by simp only [greatestPower] at *; omega

/-- The magnitude of a literal as a double; nothing when it is too large. -/
def scaledDouble (l : Literal) : Option BinaryFormat.Number := do
  let (significand, power) := l.leading
  let x ← BinaryFormat.double.nearest significand 1
  if 0 ≤ power then scaleUp x power.toNat else scaleDown x (-power).toNat

/-- The bound up to which a whole number below zero is exact. -/
def signedBound : Nat := 9223372036854775808

/-- The magnitude of a literal that is exact: a whole number that fits a word of double length, or a
signed one when it is below zero. -/
def exactMagnitude? (l : Literal) : Option Nat :=
  let bound := if l.negative then signedBound else greatestSignificand
  if l.isWhole ∧ l.significand ≤ bound then some l.significand else none

/-- The number of single precision that a literal denotes in the interchange format; nothing when it
is too large for a double. -/
def toSingle? (l : Literal) : Option Single :=
  match l.exactMagnitude? with
  | some magnitude => some (Single.nearest l.negative magnitude 0)
  | none => l.scaledDouble.map fun (m, q) => Single.nearest l.negative m q

end Literal

end ParticleDynamics
