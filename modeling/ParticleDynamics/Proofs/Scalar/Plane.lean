import Mathlib.Algebra.BigOperators.Group.Finset.Sigma
import Mathlib.Algebra.Order.Field.Basic
import ParticleDynamics.Direction
import ParticleDynamics.Proofs.Scalar.Exact

/-!
# Sums of vectors

Read exactly, the vectors of the plane form a commutative group, on which numbers act from the
right, so that vectors can be summed up in any order. A sum over all ordered pairs of different
things vanishes when what a pair contributes is the opposite of what the reversed pair does
(`sum_pairs_eq_zero`).

The direction of a contact is reversed with the pair (`contactNormal_reverse`), for coincident
particles too, since both ends of a pair take the direction of the same sorted pair.
-/

namespace ParticleDynamics

/-- **Contributions of reversed pairs cancel out.** -/
theorem sum_pairs_eq_zero {G ι : Type} [AddCommMonoid G] [DecidableEq ι] (s : Finset ι)
    (g : ι → ι → G) (hpair : ∀ i ∈ s, ∀ j ∈ s, i ≠ j → g i j + g j i = 0) :
    ∑ i ∈ s, ∑ j ∈ s.erase i, g i j = 0 := by
  rw [Finset.sum_sigma']
  refine Finset.sum_involution (fun pair _ => ⟨pair.2, pair.1⟩) ?_ ?_ ?_ ?_
  · rintro ⟨i, j⟩ hmem
    obtain ⟨hi, hj⟩ := Finset.mem_sigma.1 hmem
    exact hpair i hi j (Finset.mem_of_mem_erase hj) (Finset.ne_of_mem_erase hj).symm
  · rintro ⟨i, j⟩ hmem - hsame
    exact Finset.ne_of_mem_erase (Finset.mem_sigma.1 hmem).2 (congrArg Sigma.fst hsame)
  · rintro ⟨i, j⟩ hmem
    obtain ⟨hi, hj⟩ := Finset.mem_sigma.1 hmem
    exact Finset.mem_sigma.2 ⟨Finset.mem_of_mem_erase hj,
      Finset.mem_erase.2 ⟨(Finset.ne_of_mem_erase hj).symm, hi⟩⟩
  · exact fun _ _ => rfl

namespace Vec2

/-- A vector is its components. -/
@[ext]
theorem ext {α : Type} {v w : Vec2 α} (hx : v.x = w.x) (hy : v.y = w.y) : v = w := by
  cases v
  cases w
  exact congrArg₂ mk hx hy

variable {K : Type} [Field K] [LinearOrder K] [FloorRing K] [Scalar.Curves K]

@[simp] theorem zero_x : (0 : Vec2 K).x = 0 := rfl
@[simp] theorem zero_y : (0 : Vec2 K).y = 0 := rfl

instance : AddCommGroup (Vec2 K) where
  add_assoc u v w := ext (add_assoc ..) (add_assoc ..)
  zero_add v := ext (zero_add _) (zero_add _)
  add_zero v := ext (add_zero _) (add_zero _)
  add_comm v w := ext (add_comm ..) (add_comm ..)
  neg_add_cancel v := ext (neg_add_cancel _) (neg_add_cancel _)
  sub_eq_add_neg v w := ext (sub_eq_add_neg ..) (sub_eq_add_neg ..)
  nsmul := nsmulRec
  zsmul := zsmulRec

/-- Stretching vectors by a number, as a homomorphism. -/
def stretch (s : K) : Vec2 K →+ Vec2 K where
  toFun v := v * s
  map_zero' := ext (MulZeroClass.zero_mul s) (MulZeroClass.zero_mul s)
  map_add' _ _ := ext (right_distrib ..) (right_distrib ..)

@[simp] theorem zero_mul (s : K) : (0 : Vec2 K) * s = 0 := (stretch s).map_zero

theorem add_mul (v w : Vec2 K) (s : K) : (v + w) * s = v * s + w * s := (stretch s).map_add v w

theorem sum_mul {ι : Type} (t : Finset ι) (f : ι → Vec2 K) (s : K) :
    (∑ i ∈ t, f i) * s = ∑ i ∈ t, f i * s := map_sum (stretch s) f t

theorem list_sum_mul {β : Type} (items : List β) (f : β → Vec2 K) (s : K) :
    (items.map f).sum * s = (items.map fun item => f item * s).sum := by
  have hstretch := map_list_sum (stretch s) (items.map f)
  rwa [List.map_map] at hstretch

/-- The inner product of opposite vectors. -/
theorem dot_neg_neg (v w : Vec2 K) : (-v).dot (-w) = v.dot w := by
  simp only [dot, neg_x, neg_y, neg_mul_neg]

/-- A vector is as long as its opposite. -/
theorem length_neg (v : Vec2 K) : (-v).length = v.length := by
  rw [length, dot_neg_neg, length]

end Vec2

variable {K : Type} [Field K] [LinearOrder K] [FloorRing K] [Scalar.Curves K]

/-- **The direction of a contact is reversed with the pair.** -/
theorem contactNormal_reverse (delta : Vec2 K) (distance : K) {i j : UInt32} (h : i ≠ j) :
    contactNormal (-delta) distance j i = -contactNormal delta distance i j := by
  by_cases hfar : coincident < distance
  · rw [contactNormal_of_apart hfar, contactNormal_of_apart hfar]
    exact Vec2.ext (neg_div ..) (neg_div ..)
  · exact contactNormal_of_coincident neg_neg hfar hfar h.symm

end ParticleDynamics
