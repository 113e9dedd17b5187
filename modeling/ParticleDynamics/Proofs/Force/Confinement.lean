import ParticleDynamics.Force.Boundary
import ParticleDynamics.Proofs.Single.Arithmetic

/-!
# The allowed box

A box leaves the centre of a particle an allowed box, which is never empty: where the walls are the
wrong way round, or the particle is larger than the box, the upper corner is raised to the lower one
(`Boundary.Walls.lo_le_hi`). As long as the lower corner is a number, the nearest allowed place is
inside for every position, an infinite one or one that is not a number included, because of the two
arguments of each comparison it is the position that gives way (`Single.limited_mem`).

A place inside is left as it is, up to the sign of a zero (`Single.limited_beq_self`), and a place
that has been found is not moved again, not even in its bits (`Single.limited_limited`).
-/

namespace ParticleDynamics

namespace Single

open Float.Model (UnpackedFloat)

/-! ## One axis -/

variable {x y lo hi : Single}

theorem le_refl_of_number (hx : x.parts ≠ .notANumber) : x ≤ x :=
  le_of_not_lt hx hx fun hlt => lt_asymm hlt hlt

/-- Whatever compares is a number. -/
theorem number_of_le (h : x ≤ y) : x.parts ≠ .notANumber ∧ y.parts ≠ .notANumber := by
  obtain ⟨order, hcompare, -⟩ := le_iff_parts.1 h
  exact ne_notANumber_of_compare hcompare

/-- Numbers that are at most each other are equal. -/
theorem beq_of_le_of_le (h : x ≤ y) (h' : y ≤ x) : (x == y) = true := by
  change x.value.toModel.unpack.beq y.value.toModel.unpack = true
  obtain ⟨order, hcompare, hle⟩ := le_iff_parts.1 h
  obtain ⟨order', hcompare', hle'⟩ := le_iff_parts.1 h'
  rw [compare_swap, hcompare, Option.map_some, Option.some.injEq] at hcompare'
  rw [unpack_value, unpack_value, UnpackedFloat.beq, hcompare]
  cases order with
  | lt =>
    subst hcompare'
    cases hle'
  | eq => rfl
  | gt => cases hle

/-- The larger of two values, the second unless the first is larger. -/
def atLeast (lo x : Single) : Single := if lo < x then x else lo

/-- The smaller of two values, the second unless the first is smaller. -/
def atMost (hi x : Single) : Single := if x < hi then x else hi

/-- A value brought into a range, the lower end first. -/
def limited (lo hi x : Single) : Single := atMost hi (atLeast lo x)

theorem le_atLeast (hlo : lo.parts ≠ .notANumber) (x : Single) : lo ≤ atLeast lo x := by
  rw [atLeast]
  split
  next h => exact le_of_lt h
  next => exact le_refl_of_number hlo

theorem atMost_le (hhi : hi.parts ≠ .notANumber) (x : Single) : atMost hi x ≤ hi := by
  rw [atMost]
  split
  next h => exact le_of_lt h
  next => exact le_refl_of_number hhi

/-- **A value that is brought into a range is in the range**, even if it was not a number. The lower
end is tried first, and a value that is not a number loses this comparison to it. -/
theorem limited_mem (h : lo ≤ hi) (x : Single) : lo ≤ limited lo hi x ∧ limited lo hi x ≤ hi := by
  obtain ⟨hlo, hhi⟩ := number_of_le h
  refine ⟨?_, atMost_le hhi _⟩
  rw [limited, atMost]
  split
  · exact le_atLeast hlo x
  · exact h

/-- **A value in the range is left as it is**; a zero may change its sign. -/
theorem limited_beq_self (hlo : lo ≤ x) (hhi : x ≤ hi) : (limited lo hi x == x) = true := by
  obtain ⟨hlower, hx⟩ := number_of_le hlo
  obtain ⟨-, hupper⟩ := number_of_le hhi
  have hraised : atLeast lo x ≤ x ∧ x ≤ atLeast lo x := by
    rw [atLeast]
    split
    next => exact ⟨le_refl_of_number hx, le_refl_of_number hx⟩
    next h => exact ⟨hlo, le_of_not_lt hx hlower h⟩
  rw [limited, atMost]
  split
  next => exact beq_of_le_of_le hraised.1 hraised.2
  next h =>
    have hle : hi ≤ atLeast lo x := le_of_not_lt hupper (number_of_le hraised.1).1 h
    exact beq_of_le_of_le (le_trans hle hraised.1) hhi

/-- **A value is brought into a range once and for all.** -/
theorem limited_limited (lo hi x : Single) :
    limited lo hi (limited lo hi x) = limited lo hi x := by
  have hself : ¬ lo < lo := fun h => lt_asymm h h
  by_cases hmost : atLeast lo x < hi
  · have hkept : limited lo hi x = atLeast lo x := if_pos hmost
    have hraised : atLeast lo (atLeast lo x) = atLeast lo x := by
      by_cases hleast : lo < x
      · have hx : atLeast lo x = x := if_pos hleast
        rw [hx, hx]
      · have hx : atLeast lo x = lo := if_neg hleast
        rw [hx, atLeast, if_neg hself]
    rw [hkept, limited, hraised]
    exact if_pos hmost
  · have hlowered : limited lo hi x = hi := if_neg hmost
    rw [hlowered]
    by_cases hrange : lo < hi
    · rw [limited, atLeast, if_pos hrange]
      exact ite_self hi
    · rw [limited, atLeast, if_neg hrange]
      exact if_neg hrange

end Single

namespace Boundary.Walls

/-! ## Both axes -/

variable {w : Walls Single} {size : Single}

/-- The lower corner of the allowed box consists of numbers, and so then does the upper one. -/
def HasBox (w : Walls Single) (size : Single) : Prop :=
  (w.lo size).x.isNumber = true ∧ (w.lo size).y.isNumber = true

/-- The place is inside the allowed box on both axes. -/
def Inside (w : Walls Single) (size : Single) (p : Vec2 Single) : Prop :=
  ((w.lo size).x ≤ p.x ∧ p.x ≤ (w.hi size).x) ∧ ((w.lo size).y ≤ p.y ∧ p.y ≤ (w.hi size).y)

instance (w : Walls Single) (size : Single) : Decidable (w.HasBox size) :=
  inferInstanceAs (Decidable (_ ∧ _))

instance (w : Walls Single) (size : Single) (p : Vec2 Single) : Decidable (w.Inside size p) :=
  inferInstanceAs (Decidable (_ ∧ _))

/-- **The allowed box is not empty**, whichever way round the walls are and however large the
particle is. A box that the particle does not fit into shrinks to a point, since its upper corner is
put no lower than its lower one. -/
theorem lo_le_hi (h : w.HasBox size) :
    (w.lo size).x ≤ (w.hi size).x ∧ (w.lo size).y ≤ (w.hi size).y := by
  have hnumber {x : Single} (hx : x.isNumber = true) : x.parts ≠ .notANumber := fun hnone =>
    Bool.false_ne_true ((Single.isNumber_eq_false hnone).symm.trans hx)
  exact ⟨Single.le_atLeast (hnumber h.1) _, Single.le_atLeast (hnumber h.2) _⟩

theorem project_eq (hbox : w.circle = false) (p : Vec2 Single) (size : Single) :
    w.project p size =
      ⟨Single.limited (w.lo size).x (w.hi size).x p.x,
        Single.limited (w.lo size).y (w.hi size).y p.y⟩ :=
  if_neg (hbox ▸ Bool.false_ne_true)

/-- What the nearest allowed place is to be: inside, the place itself if that is inside already, and
found at once. -/
structure Confines (w : Walls Single) (size : Single) : Prop where
  inside : ∀ p, w.Inside size (w.project p size)
  kept : ∀ p, w.Inside size p → (w.project p size == p) = true
  settled : ∀ p, w.project (w.project p size) size = w.project p size

/-- **A box confines**, every position there is. The axes are independent of each other, and on each
of them the three parts are the three lemmas about a range above. -/
theorem confines (hbox : w.circle = false) (h : w.HasBox size) : w.Confines size where
  inside p := by
    rw [project_eq hbox]
    exact ⟨Single.limited_mem (lo_le_hi h).1 p.x, Single.limited_mem (lo_le_hi h).2 p.y⟩
  kept p hp := by
    rw [project_eq hbox]
    exact Bool.and_eq_true_iff.2 ⟨Single.limited_beq_self hp.1.1 hp.1.2,
      Single.limited_beq_self hp.2.1 hp.2.2⟩
  settled p := by
    simp only [project_eq hbox, Single.limited_limited]

end Boundary.Walls

end ParticleDynamics
