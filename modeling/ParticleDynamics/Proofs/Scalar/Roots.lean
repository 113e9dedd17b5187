import Mathlib.Algebra.Order.Ring.Abs
import Mathlib.Tactic.Ring
import ParticleDynamics.Proofs.Scalar.Plane

/-!
# Lengths

An ordered field that has square roots has Euclidean lengths. What the dynamics needs of them is one
law: a vector that is stretched by a number that is not negative is as much longer
(`Vec2.length_mul`).
-/

namespace ParticleDynamics

/-- What is not negative has a square root. -/
def Scalar.Curves.Rooted (K : Type) [Field K] [LinearOrder K] [Scalar.Curves K] : Prop :=
  ∀ x : K, 0 ≤ x → 0 ≤ Scalar.Curves.sqrt x ∧ Scalar.Curves.sqrt x * Scalar.Curves.sqrt x = x

variable {K : Type} [Field K] [LinearOrder K] [IsStrictOrderedRing K] [FloorRing K]
  [Scalar.Curves K]

namespace Scalar.Curves.Rooted

/-- The square root of a square. -/
theorem sqrt_mul_self (h : Rooted K) {x : K} (hx : 0 ≤ x) : sqrt (x * x) = x := by
  obtain ⟨hroot, hsquare⟩ := h (x * x) (mul_self_nonneg x)
  exact (mul_self_inj hroot hx).1 hsquare

end Scalar.Curves.Rooted

namespace Vec2

/-- The inner product of a vector with itself is not negative. -/
theorem dot_self_nonneg (v : Vec2 K) : 0 ≤ v.dot v :=
  add_nonneg (mul_self_nonneg v.x) (mul_self_nonneg v.y)

theorem length_nonneg (h : Scalar.Curves.Rooted K) (v : Vec2 K) : 0 ≤ v.length :=
  (h _ v.dot_self_nonneg).1

theorem length_mul_length (h : Scalar.Curves.Rooted K) (v : Vec2 K) :
    v.length * v.length = v.dot v :=
  (h _ v.dot_self_nonneg).2

/-- **A vector that is stretched is as much longer.** -/
theorem length_mul (h : Scalar.Curves.Rooted K) (v : Vec2 K) {s : K} (hs : 0 ≤ s) :
    (v * s).length = v.length * s := by
  have hdot : (v * s).dot (v * s) = v.length * s * (v.length * s) := by
    calc (v * s).dot (v * s) = v.dot v * (s * s) := by
          rw [dot, dot, mul_x, mul_y]
          ring
      _ = v.length * s * (v.length * s) := by
          rw [← v.length_mul_length h]
          ring
  have hroot := h.sqrt_mul_self (mul_nonneg (v.length_nonneg h) hs)
  rwa [← hdot] at hroot

end Vec2

end ParticleDynamics
