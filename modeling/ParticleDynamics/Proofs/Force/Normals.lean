import ParticleDynamics.Direction
import ParticleDynamics.Proofs.Force.Pressure
import ParticleDynamics.Proofs.Single.Opposite

/-!
# Both ends of a contact

The pair forces compute the direction of a contact twice, once for each of the two particles, from
differences of positions that have been rounded on their own. They still agree
(`contactNormal_opposite`): rounding treats both signs alike, so the differences are opposite
numbers, and both ends get the same distance. Hence either both divide by it, or both take the
direction of the pair of indices, whatever cosine and sine make of that.
-/

namespace ParticleDynamics

open Single

/-- Single precision with any two functions in place of cosine and sine. -/
@[reducible]
def Single.withCurves (cos sin : Single → Single) : Scalar Single :=
  { (inferInstance : Scalar Single) with cos := cos, sin := sin }

/-- Vectors that are the same on each axis: in their bits, or at least as numbers. -/
structure Vec2.Matches (v w : Vec2 Single) : Prop where
  x_eq : v.x = w.x ∨ (v.x == w.x) = true
  y_eq : v.y = w.y ∨ (v.y == w.y) = true

/-- The bound below which particles are coincident. -/
theorem parts_coincident :
    (coincident : Single).parts = .finite .positive 10995116 (-40) (by decide) := rfl

/-- The distance of particles that are apart is above zero. -/
theorem zero_lt_of_coincident_lt {distance : Single} (h : coincident < distance) :
    0 < distance := by
  have hcompare := lt_iff_parts.1 h
  rw [parts_coincident] at hcompare
  refine lt_iff_parts.2 ?_
  generalize distance.parts = parts at hcompare
  rcases parts with (_ | _) | _ | _ | ⟨_ | _, mantissa, exponent, hpos⟩ <;>
    first
    | rfl
    | cases hcompare

/-- **Both ends measure the same distance.** -/
theorem parts_length_sub {p q : Vec2 Single} (hx : Opposite (p - q).x (q - p).x)
    (hy : Opposite (p - q).y (q - p).y) : (p - q).length.parts = (q - p).length.parts :=
  parts_sqrt_congr (parts_add_congr hx.parts_mul_self hy.parts_mul_self)

/-- **Both ends of a contact agree on its direction**, in single precision. For any two different
indices and finite positions whose difference is finite, the direction in which the one particle is
pushed is on each axis the one in which the other particle is pushed, with the sign changed. This
holds for coincident particles too, and for any functions in place of cosine and sine. Not even the
distance has to be finite. -/
theorem contactNormal_opposite (cos sin : Single → Single) {p q : Vec2 Single} (hp : p.IsFinite)
    (hq : q.IsFinite) (hdelta : (p - q).IsFinite) {i j : UInt32} (hne : i ≠ j) :
    letI := Single.withCurves cos sin
    (contactNormal (p - q) (p - q).length i j).Matches
      (-contactNormal (q - p) (q - p).length j i) := by
  have hx : Opposite (p - q).x (q - p).x := opposite_sub hp.x_finite hq.x_finite
  have hy : Opposite (p - q).y (q - p).y := opposite_sub hp.y_finite hq.y_finite
  have hdistance := parts_length_sub hx hy
  let _ := Single.withCurves cos sin
  by_cases hfar : coincident < (p - q).length
  · have hfar' : coincident < (q - p).length := (lt_congr rfl hdistance).1 hfar
    have hpos : 0 < (p - q).length := zero_lt_of_coincident_lt hfar
    rw [contactNormal_of_apart hfar, contactNormal_of_apart hfar']
    exact ⟨.inr (hx.div hdelta.x_finite hdistance hpos).beq_neg,
      .inr (hy.div hdelta.y_finite hdistance hpos).beq_neg⟩
  · have hnear' : ¬ coincident < (q - p).length := fun h => hfar ((lt_congr rfl hdistance).2 h)
    rw [contactNormal_of_coincident Single.neg_neg hfar hnear' hne]
    exact ⟨.inl rfl, .inl rfl⟩

/-- The origin. -/
def origin : Vec2 Single := ⟨0, 0⟩

/-- A place one unit away from the origin on one axis, and in line with it on the other. -/
def aside : Vec2 Single := ⟨1, 0⟩

/-- Two particles in line, where cosine and sine would have no result. -/
theorem contactNormal_opposite_aside :
    aside.IsFinite ∧ origin.IsFinite ∧ (aside - origin).IsFinite ∧ (2 : UInt32) ≠ 9 ∧
      letI := Single.withCurves (fun _ => undefined) (fun _ => undefined)
      (contactNormal (aside - origin) (aside - origin).length 2 9).Matches
        (-contactNormal (origin - aside) (origin - aside).length 9 2) := by
  have hp : aside.IsFinite := ⟨isFinite_one, isFinite_zero⟩
  have hq : origin.IsFinite := ⟨isFinite_zero, isFinite_zero⟩
  have hdelta : (aside - origin).IsFinite := ⟨by decide +kernel, by decide +kernel⟩
  exact ⟨hp, hq, hdelta, by decide, contactNormal_opposite _ _ hp hq hdelta (by decide)⟩

end ParticleDynamics
