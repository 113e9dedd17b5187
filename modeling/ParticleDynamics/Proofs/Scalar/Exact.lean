import Mathlib.Algebra.Order.Floor.Ring
import Mathlib.Data.NNRat.Defs
import Mathlib.Data.Rat.Cast.Defs
import ParticleDynamics.Vector

/-!
# The exact reading

Over an ordered field in which every number has a whole part, the operations of a scalar are those
of the field, and nothing rounds. Conversions to machine integers still go to the nearer end when a
value is out of range, for that is not a matter of rounding.

An ordered field need not have square roots, cosines and sines. Whoever reads the definitions
exactly brings them along (`Scalar.Curves`), and statements that do not mention them hold for any
choice.
-/

namespace ParticleDynamics

namespace Scalar

/-- The functions that an ordered field need not have. -/
class Curves (L : Type) where
  /-- the square root -/
  sqrt : L → L
  /-- the cosine of an angle in radians -/
  cos : L → L
  /-- the sine of an angle in radians -/
  sin : L → L

variable {K : Type} [Field K] [LinearOrder K] [IsStrictOrderedRing K] [FloorRing K]

/-- The whole part, cut off towards zero. -/
def truncate (a : K) : Int := if 0 ≤ a then ⌊a⌋ else ⌈a⌉

/-- The signed 32-bit integer nearest to an integer. -/
def saturate (n : Int) : Int := max (-2147483648) (min n 2147483647)

/-- **The exact reading** of the operations. -/
instance exact [Curves K] : Scalar K where
  toZero := inferInstance
  toOne := inferInstance
  toAdd := inferInstance
  toSub := inferInstance
  toMul := inferInstance
  toDiv := inferInstance
  toNeg := inferInstance
  toLT := inferInstance
  toLE := inferInstance
  toBEq := inferInstance
  toOfScientific := inferInstance
  decideLt := inferInstance
  decideLe := inferInstance
  abs := fun a => |a|
  floor := fun a => ⌊a⌋
  ceil := fun a => ⌈a⌉
  sqrt := Curves.sqrt
  cos := Curves.cos
  sin := Curves.sin
  ofWord := fun n => n.toNat
  ofCount := fun n => n
  toWord := fun a => UInt32.ofNat (min (truncate a).toNat 4294967295)
  toSigned := fun a => saturate (truncate a)

@[simp] theorem truncate_intCast (n : Int) : truncate (n : K) = n := by
  rw [truncate, Int.floor_intCast, Int.ceil_intCast, ite_self]

/-- Rounding down moves two numbers apart by less than one. -/
theorem floor_le_floor_add_ceil (a b : K) : ⌊a⌋ ≤ ⌊b⌋ + ⌈a - b⌉ := by
  rw [← Int.floor_add_intCast]
  refine Int.floor_le_floor ?_
  calc a = b + (a - b) := (add_sub_cancel b a).symm
    _ ≤ b + ⌈a - b⌉ := add_le_add_right (Int.le_ceil _) _

/-- **Whole parts are no further apart than the numbers, rounded up.** -/
theorem natAbs_floor_sub_le {a b t : K} (h : |a - b| ≤ t) :
    (⌊a⌋ - ⌊b⌋).natAbs ≤ ⌈t⌉.toNat := by
  obtain ⟨hlo, hhi⟩ := abs_le.1 h
  have hup : ⌊a⌋ ≤ ⌊b⌋ + ⌈t⌉ :=
    (floor_le_floor_add_ceil a b).trans (add_le_add_right (Int.ceil_le_ceil hhi) _)
  have hdown : ⌊b⌋ ≤ ⌊a⌋ + ⌈t⌉ :=
    (floor_le_floor_add_ceil b a).trans (add_le_add_right (Int.ceil_le_ceil (by linarith)) _)
  omega

end Scalar

end ParticleDynamics
