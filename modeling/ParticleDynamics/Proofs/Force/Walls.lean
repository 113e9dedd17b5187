import ParticleDynamics.Force.Boundary
import ParticleDynamics.Proofs.Single.Arithmetic

/-!
# Velocities after a wall

A bounce off an upright wall leaves no velocity into that wall, and what it leaves along the wall
has kept its direction (`Boundary.rebound_along`, `Boundary.rebound_across`); both hold through all
rounding. So the two axes do not disturb each other, and in corners both are right.

On one axis, however, only one wall is looked at, the lower one first. In a box so narrow that a
particle touches both walls of an axis, a velocity away from the lower wall goes on into the upper
one. The reflected velocity is clear of every touched wall for all velocities exactly if the
particle does not touch two opposite walls (`Boundary.Walls.clears_reflect_iff`).
-/

namespace ParticleDynamics.Boundary

open Single

/-! ## Touching -/

/-- Whether the particle touches the lower wall of an axis. -/
def TouchesLower (p lo : Single) : Prop := p ≤ lo + contactSlop

/-- Whether the particle touches the upper wall of an axis. -/
def TouchesUpper (p hi : Single) : Prop := hi - contactSlop ≤ p

instance (p lo : Single) : Decidable (TouchesLower p lo) :=
  inferInstanceAs (Decidable (p ≤ lo + contactSlop))

instance (p hi : Single) : Decidable (TouchesUpper p hi) :=
  inferInstanceAs (Decidable (hi - contactSlop ≤ p))

/-- The velocity on an axis does not point into a wall of the axis that is touched. -/
structure Clear (p lo hi v : Single) : Prop where
  /-- no way down at the lower wall -/
  lower : TouchesLower p lo → 0 ≤ v
  /-- no way up at the upper wall -/
  upper : TouchesUpper p hi → v ≤ 0

namespace Walls

/-- The velocity does not point into any wall of the box that the particle touches. -/
def Clears (w : Walls Single) (p : Vec2 Single) (size : Single) (v : Vec2 Single) : Prop :=
  Clear p.x (w.lo size).x (w.hi size).x v.x ∧ Clear p.y (w.lo size).y (w.hi size).y v.y

/-- The particle touches two opposite walls of the box. -/
def Pinches (w : Walls Single) (p : Vec2 Single) (size : Single) : Prop :=
  TouchesLower p.x (w.lo size).x ∧ TouchesUpper p.x (w.hi size).x ∨
    TouchesLower p.y (w.lo size).y ∧ TouchesUpper p.y (w.hi size).y

end Walls

instance (w : Walls Single) (p : Vec2 Single) (size : Single) : Decidable (w.Pinches p size) :=
  inferInstanceAs (Decidable (_ ∧ _ ∨ _ ∧ _))

/-! ## Shares -/

/-- A share: at least none and at most all. -/
structure Share (a : Single) : Prop where
  zero_le : 0 ≤ a
  le_one : a ≤ 1

variable {restitution friction : Single}

theorem Share.isFinite {a : Single} (h : Share a) : a.isFinite = true :=
  isFinite_of_mem isFinite_zero isFinite_one h.zero_le h.le_one

theorem Share.toRat_mem {a : Single} (h : Share a) : 0 ≤ a.toRat ∧ a.toRat ≤ 1 := by
  rw [← toRat_zero, ← toRat_one]
  exact ⟨(le_iff_toRat isFinite_zero h.isFinite).1 h.zero_le,
    (le_iff_toRat h.isFinite isFinite_one).1 h.le_one⟩

/-- What a share leaves is a share. -/
theorem Share.rest {a : Single} (h : Share a) : Share (1 - a) := by
  obtain ⟨hnonneg, hle⟩ := h.toRat_mem
  have hrounds := rounds_sub isFinite_one h.isFinite
  rw [toRat_one] at hrounds
  refine ⟨hrounds.zero_le (by linarith), hrounds.ge_of_ge 1 isFinite_one ?_⟩
  rw [toRat_one]
  linarith

/-- A share of a value is between zero and the value. -/
theorem Share.mul_mem {a : Single} (h : Share a) (b : ℚ) : b * a.toRat ∈ Set.uIcc 0 b := by
  obtain ⟨hnonneg, hle⟩ := h.toRat_mem
  rw [Set.mem_uIcc]
  rcases le_total 0 b with hb | hb
  · exact .inl ⟨mul_nonneg hb hnonneg, mul_le_of_le_one_right hb hle⟩
  · exact .inr ⟨by nlinarith, mul_nonpos_of_nonpos_of_nonneg hb hnonneg⟩

theorem Share.rounds {a b : Single} (h : Share a) (hb : b.isFinite = true) :
    (b * a).isFinite = true ∧ (b * a).toRat ∈ Set.uIcc 0 b.toRat :=
  (rounds_mul hb h.isFinite).mem_uIcc hb (h.mul_mem _)

/-! ## One component of a bounce -/

/-- The component of a bounced velocity, for a component of the velocity and of the normal. -/
def rebound (v n outward restitution friction : Single) : Single :=
  (v - n * outward) * (1 - friction) - n * outward * restitution

theorem bounce_eq (v n : Vec2 Single) (restitution friction : Single) :
    bounce v n restitution friction =
      if v.dot n ≤ 0 then v
      else ⟨rebound v.x n.x (v.dot n) restitution friction,
        rebound v.y n.y (v.dot n) restitution friction⟩ :=
  rfl

/-- **Along the wall the direction is kept.** -/
theorem rebound_across {v n outward : Single} (hv : v.isFinite = true) (hn : n.isFinite = true)
    (hzero : n.toRat = 0) (ho : outward.isFinite = true) (hr : Share restitution)
    (hf : Share friction) :
    (rebound v n outward restitution friction).isFinite = true ∧
      (rebound v n outward restitution friction).toRat ∈ Set.uIcc 0 v.toRat := by
  -- the normal has no part on this axis
  have hnone := mul_of_left_zero hn ho hzero
  have hall := sub_of_right_zero hv hnone.1 hnone.2
  have hkept := hf.rest.rounds hall.1
  rw [hall.2] at hkept
  have hnone' := mul_of_left_zero hnone.1 hr.isFinite hnone.2
  obtain ⟨hfinite, hvalue⟩ := sub_of_right_zero hkept.1 hnone'.1 hnone'.2
  exact ⟨hfinite, hvalue ▸ hkept.2⟩

/-- **Into the wall nothing is left.** The part along the normal is taken out, and a share of it is
put in the other way round. -/
theorem rebound_along {v n outward : Single} (hv : v.isFinite = true) (hn : n.isFinite = true)
    (hunit : n.toRat * n.toRat = 1) (ho : outward.isFinite = true)
    (houtward : outward.toRat = v.toRat * n.toRat) (hr : Share restitution)
    (hf : Share friction) :
    (rebound v n outward restitution friction).isFinite = true ∧
      (rebound v n outward restitution friction).toRat ∈ Set.uIcc 0 (-v.toRat) := by
  -- the part along the normal is the whole component
  have hnormal : (n * outward).isFinite = true ∧ (n * outward).toRat = v.toRat := by
    have hrounds := rounds_mul hn ho
    rw [houtward, mul_left_comm, hunit, mul_one] at hrounds
    exact hrounds.eq hv
  have hnone : (v - n * outward).isFinite = true ∧ (v - n * outward).toRat = 0 := by
    have hrounds := rounds_sub hv hnormal.1
    rw [hnormal.2, sub_self] at hrounds
    exact hrounds.eq_zero
  have hnone' := mul_of_left_zero hnone.1 hf.rest.isFinite hnone.2
  obtain ⟨hreflected, hmem⟩ := hr.rounds hnormal.1
  rw [hnormal.2, Set.mem_uIcc] at hmem
  have hrounds := rounds_sub hnone'.1 hreflected
  rw [hnone'.2, zero_sub] at hrounds
  obtain ⟨opposite, hopposite, hvalue⟩ := exists_opposite hv
  rw [← hvalue]
  refine hrounds.mem_uIcc hopposite ?_
  rw [hvalue, Set.mem_uIcc]
  rcases hmem with ⟨hle, hle'⟩ | ⟨hle, hle'⟩
  · exact .inr ⟨by linarith, by linarith⟩
  · exact .inl ⟨by linarith, by linarith⟩

/-! ## Bounces off upright walls -/

/-- What a bounce leaves of the two components of a velocity, for the side of the first axis on
which the wall is. -/
structure Bounced (side : ℚ) (along across along' across' : Single) : Prop where
  /-- the component into the wall is finite -/
  along_finite : along'.isFinite = true
  /-- and does not point into it any more -/
  away : along'.toRat * side ≤ 0
  /-- the component along the wall is finite -/
  across_finite : across'.isFinite = true
  /-- and has not turned -/
  across_mem : across'.toRat ∈ Set.uIcc 0 across.toRat

/-- A normal of an upright wall: one component is a side, the other one is zero. -/
structure Upright (side : ℚ) (n n' : Single) : Prop where
  finite : n.isFinite = true
  toRat_eq : n.toRat = side
  unit : side * side = 1
  finite' : n'.isFinite = true
  toRat_eq' : n'.toRat = 0

variable {side : ℚ} {n n' along across outward : Single}

/-- Components of a velocity as the bounce treats them. -/
theorem bounced (hn : Upright side n n') (halong : along.isFinite = true)
    (hacross : across.isFinite = true) (ho : outward.isFinite = true)
    (houtward : outward.toRat = along.toRat * side) (hr : Share restitution)
    (hf : Share friction) :
    Bounced side along across
      (if outward ≤ 0 then along else rebound along n outward restitution friction)
      (if outward ≤ 0 then across else rebound across n' outward restitution friction) := by
  obtain ⟨hfinite, rfl, hunit, hfinite', hzero⟩ := hn
  by_cases hinward : outward ≤ 0
  · rw [if_pos hinward, if_pos hinward]
    rw [le_iff_toRat ho isFinite_zero, toRat_zero, houtward] at hinward
    exact ⟨halong, hinward, hacross, Set.right_mem_uIcc⟩
  · rw [if_neg hinward, if_neg hinward]
    rw [le_iff_toRat ho isFinite_zero, toRat_zero, houtward] at hinward
    obtain ⟨hfinite₁, hmem₁⟩ := rebound_along halong hfinite hunit ho houtward hr hf
    obtain ⟨hfinite₂, hmem₂⟩ := rebound_across hacross hfinite' hzero ho hr hf
    refine ⟨hfinite₁, ?_, hfinite₂, hmem₂⟩
    rw [Set.mem_uIcc] at hmem₁
    -- the component had the sign of the side, and now it has the other one
    have hpos : 0 < along.toRat * n.toRat := not_le.1 hinward
    rcases hmem₁ with ⟨hle, hle'⟩ | ⟨hle, hle'⟩ <;>
      rcases mul_self_eq_one_iff.1 hunit with hside | hside <;> rw [hside] at hpos ⊢ <;> linarith

/-- The inner product with a normal takes the component on its axis as it is. -/
theorem Upright.mul (hn : Upright side n n') (halong : along.isFinite = true) :
    (along * n).isFinite = true ∧ (along * n).toRat = along.toRat * side := by
  have hrounds := rounds_mul halong hn.finite
  rw [hn.toRat_eq] at hrounds
  rcases mul_self_eq_one_iff.1 hn.unit with hside | hside <;> rw [hside] at hrounds ⊢
  · rw [mul_one] at hrounds ⊢
    exact hrounds.eq halong
  · obtain ⟨opposite, hopposite, hvalue⟩ := exists_opposite halong
    rw [mul_neg_one, ← hvalue] at hrounds ⊢
    exact hrounds.eq hopposite

/-- The inner product with a normal takes nothing of the other component. -/
theorem Upright.mul' (hn : Upright side n n') (hacross : across.isFinite = true) :
    (across * n').isFinite = true ∧ (across * n').toRat = 0 :=
  mul_of_right_zero hacross hn.finite' hn.toRat_eq'

theorem bounce_horizontal {v : Vec2 Single} (hn : Upright side n n') (hx : v.x.isFinite = true)
    (hy : v.y.isFinite = true) (hr : Share restitution) (hf : Share friction) :
    Bounced side v.x v.y (bounce v ⟨n, n'⟩ restitution friction).x
      (bounce v ⟨n, n'⟩ restitution friction).y := by
  obtain ⟨ho, houtward⟩ := add_of_right_zero (hn.mul hx).1 (hn.mul' hy).1 (hn.mul' hy).2
  rw [bounce_eq, apply_ite Vec2.x, apply_ite Vec2.y]
  exact bounced hn hx hy ho (houtward.trans (hn.mul hx).2) hr hf

theorem bounce_vertical {v : Vec2 Single} (hn : Upright side n n') (hx : v.x.isFinite = true)
    (hy : v.y.isFinite = true) (hr : Share restitution) (hf : Share friction) :
    Bounced side v.y v.x (bounce v ⟨n', n⟩ restitution friction).y
      (bounce v ⟨n', n⟩ restitution friction).x := by
  obtain ⟨ho, houtward⟩ := add_of_left_zero (hn.mul' hx).1 (hn.mul hy).1 (hn.mul' hx).2
  rw [bounce_eq, apply_ite Vec2.x, apply_ite Vec2.y]
  exact bounced hn hy hx ho (houtward.trans (hn.mul hy).2) hr hf

theorem upright_lower : Upright (-1) (-1 : Single) 0 where
  finite := rfl
  toRat_eq := by
    have hparts : (-1 : Single).parts = .finite .negative (2 ^ 23) (-23) (by decide) := rfl
    rw [toRat_of_finite hparts, factor, scaled]
    norm_num
  unit := by norm_num
  finite' := isFinite_zero
  toRat_eq' := toRat_zero

theorem upright_upper : Upright 1 (1 : Single) 0 where
  finite := isFinite_one
  toRat_eq := toRat_one
  unit := by norm_num
  finite' := isFinite_zero
  toRat_eq' := toRat_zero

/-! ## One axis of the box -/

/-- What is left of a velocity on one axis. -/
structure Reflected (p lo hi along across along' across' : Single) : Prop where
  /-- the component on the axis is finite -/
  along_finite : along'.isFinite = true
  /-- and does not point into the lower wall, if that is touched -/
  lower : TouchesLower p lo → 0 ≤ along'.toRat
  /-- nor into the upper one, if that is the only one -/
  upper : ¬ TouchesLower p lo → TouchesUpper p hi → along'.toRat ≤ 0
  /-- the other component is finite -/
  across_finite : across'.isFinite = true
  /-- and has not turned -/
  across_mem : across'.toRat ∈ Set.uIcc 0 across.toRat

variable {p lo hi along' across' : Single} {v : Vec2 Single}

theorem Bounced.reflected_lower (h : Bounced (-1) along across along' across')
    (hlower : TouchesLower p lo) : Reflected p lo hi along across along' across' where
  along_finite := h.along_finite
  lower _ := by linarith [h.away]
  upper hnot := absurd hlower hnot
  across_finite := h.across_finite
  across_mem := h.across_mem

theorem Bounced.reflected_upper (h : Bounced 1 along across along' across')
    (hlower : ¬ TouchesLower p lo) : Reflected p lo hi along across along' across' where
  along_finite := h.along_finite
  lower htouch := absurd htouch hlower
  upper _ _ := by linarith [h.away]
  across_finite := h.across_finite
  across_mem := h.across_mem

/-- Away from both walls nothing happens. -/
theorem reflected_of_apart (halong : along.isFinite = true) (hacross : across.isFinite = true)
    (hlower : ¬ TouchesLower p lo) (hupper : ¬ TouchesUpper p hi) :
    Reflected p lo hi along across along across where
  along_finite := halong
  lower htouch := absurd htouch hlower
  upper _ htouch := absurd htouch hupper
  across_finite := hacross
  across_mem := Set.right_mem_uIcc

theorem reflectAxis_horizontal (p lo hi : Single) (hx : v.x.isFinite = true)
    (hy : v.y.isFinite = true) (hr : Share restitution) (hf : Share friction) :
    Reflected p lo hi v.x v.y
      (Walls.reflectAxis p lo hi ⟨-1, 0⟩ ⟨1, 0⟩ v restitution friction).x
      (Walls.reflectAxis p lo hi ⟨-1, 0⟩ ⟨1, 0⟩ v restitution friction).y := by
  rw [Walls.reflectAxis]
  split
  next hlower => exact (bounce_horizontal upright_lower hx hy hr hf).reflected_lower hlower
  next hlower =>
    split
    next => exact (bounce_horizontal upright_upper hx hy hr hf).reflected_upper hlower
    next hupper => exact reflected_of_apart hx hy hlower hupper

theorem reflectAxis_vertical (p lo hi : Single) (hx : v.x.isFinite = true)
    (hy : v.y.isFinite = true) (hr : Share restitution) (hf : Share friction) :
    Reflected p lo hi v.y v.x
      (Walls.reflectAxis p lo hi ⟨0, -1⟩ ⟨0, 1⟩ v restitution friction).y
      (Walls.reflectAxis p lo hi ⟨0, -1⟩ ⟨0, 1⟩ v restitution friction).x := by
  rw [Walls.reflectAxis]
  split
  next hlower => exact (bounce_vertical upright_lower hx hy hr hf).reflected_lower hlower
  next hlower =>
    split
    next => exact (bounce_vertical upright_upper hx hy hr hf).reflected_upper hlower
    next hupper => exact reflected_of_apart hy hx hlower hupper

/-! ## The whole box -/

variable {w : Walls Single}

/-- What remains of a velocity on an axis after the whole box. -/
structure Remains (p lo hi v : Single) : Prop where
  finite : v.isFinite = true
  /-- nothing into a touched lower wall -/
  lower : TouchesLower p lo → 0 ≤ v
  /-- nothing into a touched upper wall, if the lower one is not touched as well -/
  upper : ¬ TouchesLower p lo → TouchesUpper p hi → v ≤ 0

/-- The signs that one axis leaves are kept by the other one. -/
theorem Reflected.remains {between : Single} (h : Reflected p lo hi along across along' across')
    (hfinite : between.isFinite = true) (hmem : between.toRat ∈ Set.uIcc 0 along'.toRat) :
    Remains p lo hi between := by
  rw [Set.mem_uIcc] at hmem
  refine ⟨hfinite, fun htouch => ?_, fun hnot htouch => ?_⟩
  · rw [le_iff_toRat isFinite_zero hfinite, toRat_zero]
    have hsign := h.lower htouch
    rcases hmem with hmem | hmem <;> linarith
  · rw [le_iff_toRat hfinite isFinite_zero, toRat_zero]
    have hsign := h.upper hnot htouch
    rcases hmem with hmem | hmem <;> linarith

/-- **What the box leaves of a velocity**: nothing into a touched lower wall, and nothing into a
touched upper wall unless the opposite one is touched as well. -/
theorem Walls.remains_reflect (hbox : w.circle = false) (p : Vec2 Single) (size : Single)
    (hx : v.x.isFinite = true) (hy : v.y.isFinite = true) (hr : Share restitution)
    (hf : Share friction) :
    Remains p.x (w.lo size).x (w.hi size).x (w.reflect p v size restitution friction).x ∧
      Remains p.y (w.lo size).y (w.hi size).y (w.reflect p v size restitution friction).y := by
  rw [Walls.reflect, if_neg (by rw [hbox]; exact Bool.false_ne_true)]
  have hfirst := reflectAxis_horizontal p.x (w.lo size).x (w.hi size).x hx hy hr hf
  have hsecond := reflectAxis_vertical p.y (w.lo size).y (w.hi size).y hfirst.along_finite
    hfirst.across_finite hr hf
  exact ⟨hfirst.remains hsecond.across_finite hsecond.across_mem,
    hsecond.remains hsecond.along_finite Set.right_mem_uIcc⟩

/-- A velocity that no bounce of an axis changes is left as it is. -/
theorem Walls.reflectAxis_of_bounce {lower upper : Vec2 Single}
    (hlower : bounce v lower restitution friction = v)
    (hupper : bounce v upper restitution friction = v) :
    reflectAxis p lo hi lower upper v restitution friction = v := by
  rw [reflectAxis, hlower, hupper, ite_self, ite_self]

/-- At the lower wall of an axis the upper one is not looked at. -/
theorem Walls.reflectAxis_of_touchesLower {lower upper : Vec2 Single} (h : TouchesLower p lo) :
    reflectAxis p lo hi lower upper v restitution friction = bounce v lower restitution friction :=
  if_pos h

/-- Away from the lower wall of the first axis, along this axis. -/
theorem Walls.reflect_right (hbox : w.circle = false) (p : Vec2 Single) (size : Single)
    (hlower : TouchesLower p.x (w.lo size).x) : w.reflect p ⟨1, 0⟩ size 0 0 = ⟨1, 0⟩ := by
  have hbounce : bounce (⟨1, 0⟩ : Vec2 Single) ⟨-1, 0⟩ 0 0 = ⟨1, 0⟩ := by decide +kernel
  rw [reflect, if_neg (by rw [hbox]; exact Bool.false_ne_true)]
  dsimp only
  rw [reflectAxis_of_touchesLower hlower, hbounce]
  exact reflectAxis_of_bounce (by decide +kernel) (by decide +kernel)

/-- Away from the lower wall of the second axis, along this axis. -/
theorem Walls.reflect_up (hbox : w.circle = false) (p : Vec2 Single) (size : Single)
    (hlower : TouchesLower p.y (w.lo size).y) : w.reflect p ⟨0, 1⟩ size 0 0 = ⟨0, 1⟩ := by
  rw [reflect, if_neg (by rw [hbox]; exact Bool.false_ne_true)]
  dsimp only
  rw [reflectAxis_of_bounce (v := ⟨0, 1⟩) (by decide +kernel) (by decide +kernel),
    reflectAxis_of_touchesLower hlower]
  decide +kernel

/-- **Velocities are clear of the touched walls exactly if no two opposite walls are touched.**
Where both walls of an axis are touched, only the lower one is looked at, and a velocity into the
upper one remains. -/
theorem Walls.clears_reflect_iff (hbox : w.circle = false) (p : Vec2 Single) (size : Single) :
    (∀ v : Vec2 Single, v.x.isFinite = true → v.y.isFinite = true → ∀ restitution friction,
      Share restitution → Share friction →
        w.Clears p size (w.reflect p v size restitution friction)) ↔ ¬ w.Pinches p size := by
  constructor
  · have hnone : Share 0 := ⟨by decide, by decide⟩
    rintro h (⟨hlower, hupper⟩ | ⟨hlower, hupper⟩)
    · have hclear := (h ⟨1, 0⟩ rfl rfl 0 0 hnone hnone).1
      rw [reflect_right hbox p size hlower] at hclear
      exact absurd (hclear.upper hupper) (by decide)
    · have hclear := (h ⟨0, 1⟩ rfl rfl 0 0 hnone hnone).2
      rw [reflect_up hbox p size hlower] at hclear
      exact absurd (hclear.upper hupper) (by decide)
  · intro h v hx hy restitution friction hr hf
    obtain ⟨hfirst, hsecond⟩ := remains_reflect hbox p size hx hy hr hf
    refine ⟨⟨hfirst.lower, fun hupper => ?_⟩, ⟨hsecond.lower, fun hupper => ?_⟩⟩
    · exact hfirst.upper (fun hlower => h (.inl ⟨hlower, hupper⟩)) hupper
    · exact hsecond.upper (fun hlower => h (.inr ⟨hlower, hupper⟩)) hupper

/-- A box from the origin to (1, 1). -/
def Walls.small : Walls Single := ⟨false, ⟨0, 0⟩, ⟨1, 1⟩, 0⟩

/-- A particle of size a quarter at its lower left corner touches the two walls there and no
opposite ones. -/
theorem Walls.clears_reflect_small :
    Walls.small.circle = false ∧ ¬ Walls.small.Pinches ⟨0.25, 0.25⟩ 0.25 ∧
      ∀ v : Vec2 Single, v.x.isFinite = true → v.y.isFinite = true →
        ∀ restitution friction, Share restitution → Share friction →
          Walls.small.Clears ⟨0.25, 0.25⟩ 0.25
            (Walls.small.reflect ⟨0.25, 0.25⟩ v 0.25 restitution friction) := by
  have hapart : ¬ Walls.small.Pinches ⟨0.25, 0.25⟩ 0.25 := by decide +kernel
  exact ⟨rfl, hapart, (Walls.clears_reflect_iff rfl ⟨0.25, 0.25⟩ 0.25).2 hapart⟩

/-- A particle of size one has a single allowed place in this box, where it touches all four walls,
and a velocity into the upper wall of the first axis is left as it is. -/
theorem Walls.reflect_collapsed :
    TouchesUpper 1 (Walls.small.hi 1).x ∧
      Walls.small.reflect ⟨1, 1⟩ ⟨1, 0⟩ 1 0.5 0 = ⟨1, 0⟩ ∧
      ¬ Walls.small.Clears ⟨1, 1⟩ 1 (Walls.small.reflect ⟨1, 1⟩ ⟨1, 0⟩ 1 0.5 0) := by
  have hupper : TouchesUpper 1 (Walls.small.hi 1).x := by decide +kernel
  have hkept : Walls.small.reflect ⟨1, 1⟩ ⟨1, 0⟩ 1 0.5 0 = ⟨1, 0⟩ := by decide +kernel
  refine ⟨hupper, hkept, fun hclear => ?_⟩
  rw [hkept] at hclear
  exact absurd (hclear.1.upper hupper) (by decide)

end ParticleDynamics.Boundary
