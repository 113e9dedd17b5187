import ParticleDynamics.Breach

/-!
# Scalars

All dynamics in this library is written over one abstract kind of number. A `Scalar` has the four
operations, the comparisons, the few functions that geometry needs, and the conversions to and from
machine integers. Two readings are intended:

* the machine reading, in which every operation rounds and a value may fail to be a number;
* an exact reading, over an ordered field, in which the same definitions say what the arithmetic
  is meant to compute.

A law that needs no rounding is stated over an exact scalar, a law about bits over the machine
scalar, and both speak about the very same definitions.

The helpers at the end (`maximum`, `minimum`, `clamp`) fix what happens to a value that is not a
number, which the bare comparisons leave open: such a value differs from itself.
-/

namespace ParticleDynamics

/-- The numbers that positions, masses, parameters and scratch cells are made of. -/
class Scalar (α : Type) extends Zero α, One α, Add α, Sub α, Mul α, Div α, Neg α, LT α, LE α,
    BEq α, OfScientific α where
  /-- `<` is decided -/
  decideLt : DecidableLT α
  /-- `≤` is decided -/
  decideLe : DecidableLE α
  /-- the value without its sign -/
  abs : α → α
  /-- the greatest whole value not above -/
  floor : α → α
  /-- the least whole value not below -/
  ceil : α → α
  /-- the square root -/
  sqrt : α → α
  /-- the cosine of an angle in radians -/
  cos : α → α
  /-- the sine of an angle in radians -/
  sin : α → α
  /-- the value nearest to a 32-bit word -/
  ofWord : UInt32 → α
  /-- the value nearest to a count -/
  ofCount : Nat → α
  /-- the whole part as a 32-bit word; out of range goes to the nearer end, no number to zero -/
  toWord : α → UInt32
  /-- the whole part as a signed 32-bit integer; out of range goes to the nearer end, no number
  to zero -/
  toSigned : α → Int

namespace Scalar

variable {α : Type} [Scalar α]

instance (priority := low) : DecidableLT α := Scalar.decideLt
instance (priority := low) : DecidableLE α := Scalar.decideLe

/-- Whether the value is a number, that is, equal to itself. -/
@[inline] def isNumber (a : α) : Bool := a == a

/-- The larger of two values; one that is not a number gives way to the other. -/
@[inline] def maximum (a b : α) : α :=
  if isNumber a then (if a < b then b else a) else b

/-- The smaller of two values; one that is not a number gives way to the other. -/
@[inline] def minimum (a b : α) : α :=
  if isNumber a then (if b < a then b else a) else b

/-- The value limited to `[lo, hi]`. A value that is not a number stays as it is; a range that is
empty, or that has an end which is not a number, is a breach. -/
@[inline] def clamp (a lo hi : α) : Except Breach α :=
  if lo ≤ hi then
    .ok (let raised := if a < lo then lo else a
         if hi < raised then hi else raised)
  else
    .error .unorderedRange

/-- Limiting breaks only on the range, never on the value. -/
theorem clamp_eq_error_iff {a lo hi : α} {b : Breach} :
    clamp a lo hi = .error b ↔ ¬ lo ≤ hi ∧ b = .unorderedRange := by
  unfold clamp
  by_cases h : lo ≤ hi <;> simp [h, eq_comm]

end Scalar

end ParticleDynamics
