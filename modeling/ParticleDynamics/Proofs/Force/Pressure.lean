import ParticleDynamics.Force.Fluid
import ParticleDynamics.Proofs.Module.Procedure
import ParticleDynamics.Proofs.Single.Quotients

/-!
# Pressure and density over the same neighbours

The density counts a neighbour by the kernel, the pressure by one minus the distance in units of the
radius of influence. For a positive radius both leave out the same neighbours, those at the radius
or beyond it, and no rounding blurs the edge: a distance below the radius is below it by one part in
`2^24`, so neither the weight nor its square rounds to zero. The kernel looks at the sign of the
radius as well, the weight of the pressure does not: under a negative radius it is at least one for
every neighbour (`Fluid.same_iff`).

So with a positive radius the pressure comes from the neighbours that have a density weight and
from no others (`Fluid.apply_weighed`).
-/

namespace ParticleDynamics

namespace Fluid

open Single
open Float.Model (Format UnpackedFloat)

/-! ## One neighbour -/

variable {distance radius : Single}

/-- Whether a neighbour at a distance counts for the density. -/
def Weighs (distance radius : Single) : Prop := (kernel distance radius == 0) = false

/-- Whether the pressure of a neighbour at a distance is passed over. -/
def PassedOver (distance radius : Single) : Prop := 1 - distance / radius ≤ 0

instance : Decidable (Weighs distance radius) :=
  inferInstanceAs (Decidable ((kernel distance radius == 0) = false))

theorem not_weighs_of_le_zero (h : radius ≤ 0) : ¬ Weighs distance radius := by
  rw [Weighs, kernel, if_pos (.inl h)]
  decide

/-- A distance that does not reach a finite radius is below it. -/
theorem lt_of_not_le (hr : radius.isFinite = true) (hd : 0 ≤ distance)
    (h : ¬ radius ≤ distance) : distance < radius := by
  rcases zero_le_iff.1 hd with hdistance | ⟨hdistance, -⟩
  · exact absurd (le_infinity hr hdistance) h
  · rw [le_iff_toRat hr hdistance] at h
    exact (lt_iff_toRat hdistance hr).2 (not_le.1 h)

/-- A distance below a positive radius: both formulas count the neighbour. -/
theorem counted_of_lt (hr : radius.isFinite = true) (hd : 0 ≤ distance)
    (hlt : distance < radius) : Weighs distance radius ∧ ¬ PassedOver distance radius := by
  have hdistance : distance.isFinite = true :=
    isFinite_of_mem isFinite_zero hr hd (le_of_lt hlt)
  have hpositive : ¬ radius ≤ 0 := by
    rw [le_iff_toRat hr isFinite_zero, toRat_zero]
    rw [le_iff_toRat isFinite_zero hdistance, toRat_zero] at hd
    rw [lt_iff_toRat hdistance hr] at hlt
    linarith
  have hinside : ¬ radius ≤ distance := by
    rw [le_iff_toRat hr hdistance]
    exact not_le.2 ((lt_iff_toRat hdistance hr).1 hlt)
  obtain ⟨hnonneg, hbelow⟩ := div_le_of_lt hdistance hr hd hlt
  obtain ⟨hsliver, hone⟩ := sliver_le_one_sub hnonneg hbelow
  constructor
  · rw [Weighs, kernel, if_neg (not_or.2 ⟨hpositive, hinside⟩)]
    exact mul_self_bne_zero hsliver hone
  · exact fun hpassed => absurd (le_trans hsliver hpassed) (by decide)

/-- A distance from a positive radius on: neither formula counts the neighbour. -/
theorem ignored_of_le (hr : radius.isFinite = true) (hpos : 0 < radius)
    (hle : radius ≤ distance) : ¬ Weighs distance radius ∧ PassedOver distance radius := by
  constructor
  · rw [Weighs, kernel, if_pos (.inr hle)]
    decide
  · exact one_sub_le_zero (one_le_div hr hpos hle)

/-- Under a radius of zero only coincident particles are not passed over. -/
theorem passedOver_zero_iff (hd : 0 ≤ distance) : PassedOver distance 0 ↔ 0 < distance := by
  have hparts := parts_div distance 0
  have hinfinite (hdistance : 0 < distance) (h : UnpackedFloat.div Format.binary32
      distance.parts (0 : Single).parts = .infinity .positive) :
      PassedOver distance 0 ↔ 0 < distance := by
    rw [h, unpack_pack_infinity] at hparts
    exact iff_of_true (one_sub_le_zero (le_infinity isFinite_one hparts)) hdistance
  rcases parts_of_zero_le hd with h | ⟨sign, h⟩ | ⟨mantissa, exponent, hpos, h⟩
  · exact hinfinite (lt_iff_parts.2 (by rw [h]; rfl)) (by rw [h]; rfl)
  · rw [h, show UnpackedFloat.div _ (.zero sign) (0 : Single).parts = .notANumber from rfl,
      unpack_pack_notANumber] at hparts
    refine iff_of_false (not_one_sub_le_of_notANumber hparts) ?_
    rw [zero_lt_iff (isFinite_of_zero h), toRat_of_zero h]
    exact lt_irrefl 0
  · exact hinfinite (lt_iff_parts.2 (by rw [h]; rfl)) (by rw [h]; rfl)

/-- The quotient by a radius that is negative, or the zero with a sign, is not above zero. -/
theorem not_passedOver_of_le (h : distance / radius ≤ 0) : ¬ PassedOver distance radius :=
  fun hpassed => absurd (le_trans (one_le_one_sub h) hpassed) (by decide)

/-- Under a negative radius, and under the zero with a sign, no neighbour is passed over. -/
theorem not_passedOver_of_negative (hr : radius.isFinite = true) (hle : radius ≤ 0)
    (hne : radius ≠ 0) (hd : 0 ≤ distance) : ¬ PassedOver distance radius := by
  have hparts := parts_div distance radius
  -- an infinite quotient below zero is far from being passed over
  have hinfinite (h : UnpackedFloat.div Format.binary32 distance.parts radius.parts =
      .infinity .negative) : ¬ PassedOver distance radius := by
    rw [h, unpack_pack_infinity] at hparts
    exact not_passedOver_of_le (infinity_le hparts isFinite_zero)
  rw [le_iff_toRat hr isFinite_zero, toRat_zero] at hle
  rcases parts_of_isFinite hr with ⟨sign', h'⟩ | ⟨sign', mantissa', exponent', hpos', h'⟩
  · -- the radius is the negative zero: the quotient is infinite, or no number at distance zero
    obtain rfl : sign' = .negative := by
      cases sign' with
      | negative => rfl
      | positive => exact absurd (eq_zero_of_parts h') hne
    rcases parts_of_zero_le hd with h | ⟨sign, h⟩ | ⟨mantissa, exponent, hpos, h⟩
    · exact hinfinite (by rw [h, h']; rfl)
    · rw [h, h', show UnpackedFloat.div _ (.zero sign) (.zero .negative) = .notANumber from rfl,
        unpack_pack_notANumber] at hparts
      exact not_one_sub_le_of_notANumber hparts
    · exact hinfinite (by rw [h, h']; rfl)
  · -- the radius is below zero, and so is the quotient of a finite distance
    have hscaled := scaled_pos hpos' exponent'
    have hradius : radius.toRat ≠ 0 := by
      rw [toRat_of_finite h']
      cases sign' <;> simp [factor, hscaled.ne']
    rcases zero_le_iff.1 hd with hdistance | ⟨hdistance, hnonneg⟩
    · rw [toRat_of_finite h'] at hle
      cases sign' with
      | positive =>
        rw [factor, one_mul] at hle
        exact absurd hscaled hle.not_gt
      | negative => exact hinfinite (by rw [hdistance, h']; rfl)
    · refine not_passedOver_of_le ((rounds_div hdistance hr hradius).ge_of_ge 0 isFinite_zero ?_)
      rw [toRat_zero]
      exact div_nonpos_of_nonneg_of_nonpos hnonneg hle

/-- **When pressure and density agree about a neighbour**: under a positive radius always, under a
radius of zero if it is apart, and otherwise never. -/
theorem same_iff (hr : radius.isFinite = true) (hd : 0 ≤ distance) :
    (PassedOver distance radius ↔ ¬ Weighs distance radius) ↔
      0 < radius ∨ radius = 0 ∧ 0 < distance := by
  by_cases hpos : 0 < radius
  · refine iff_of_true ?_ (.inl hpos)
    by_cases hle : radius ≤ distance
    · obtain ⟨hweighs, hpassed⟩ := ignored_of_le hr hpos hle
      exact iff_of_true hpassed hweighs
    · obtain ⟨hweighs, hpassed⟩ := counted_of_lt hr hd (lt_of_not_le hr hd hle)
      exact iff_of_false hpassed fun hnot => hnot hweighs
  · have hle : radius ≤ 0 := by
      rw [le_iff_toRat hr isFinite_zero, toRat_zero]
      rw [zero_lt_iff hr] at hpos
      exact not_lt.1 hpos
    rw [iff_true_right (not_weighs_of_le_zero hle)]
    by_cases hzero : radius = 0
    · subst hzero
      rw [passedOver_zero_iff hd]
      exact ⟨fun h => .inr ⟨rfl, h⟩, fun h => (h.resolve_left hpos).2⟩
    · refine iff_of_false (not_passedOver_of_negative hr hle hzero hd) ?_
      rintro (h | ⟨h, -⟩)
      · exact hpos h
      · exact hzero h

end Fluid

/-! ## Part of the neighbours -/

variable {α β : Type}

namespace Procedure

/-- Steps that do nothing may be left out. -/
theorem foldlM_filter {step : β → UInt32 → Procedure α β} {kept : UInt32 → Bool}
    {near : List UInt32} (h : ∀ j ∈ near, kept j = false → ∀ b, step b j = .done b) (b : β) :
    near.foldlM step b = (near.filter kept).foldlM step b := by
  induction near generalizing b with
  | nil => rfl
  | cons j near ih =>
    have hrest := ih fun k hk => h k (List.mem_cons_of_mem j hk)
    rw [List.foldlM_cons]
    cases hkept : kept j with
    | true =>
      rw [List.filter_cons_of_pos hkept, List.foldlM_cons]
      exact congrArg (bind (step b j)) (funext hrest)
    | false =>
      rw [List.filter_cons_of_neg (by rw [hkept]; exact Bool.false_ne_true),
        h j List.mem_cons_self hkept b]
      exact hrest b

/-- Reading a field leaves everything as it is. -/
theorem snd_run_fieldOf (site : Site) (name : String) (row : UInt32) (reach : Reach α) :
    ((fieldOf name row).run site reach).2 = reach := by
  rw [fieldOf, run]
  exact snd_run_require site _ reach

/-- Asking for an answer that may be a breach leaves everything as it is. -/
theorem run_sound (site : Site) (answer : Except Breach β) (reach : Reach α) :
    (sound answer).run site reach =
      (answer.mapError fun breach => crashMessage (some breach.message), reach) := by
  cases answer with
  | ok result => rfl
  | error breach => rfl

end Procedure

variable [Scalar α]

/-- The view in which the search finds only some of the particles. -/
def View.keeping (v : View α) (kept : UInt32 → Bool) : View α :=
  { v with
    search := fun point radius excluded => (v.search point radius excluded).map (·.filter kept) }

omit [Scalar α] in
@[simp] theorem View.index_keeping (v : View α) (kept : UInt32 → Bool) :
    (v.keeping kept).index = v.index := rfl

omit [Scalar α] in
@[simp] theorem View.params_keeping (v : View α) (kept : UInt32 → Bool) :
    (v.keeping kept).params = v.params := rfl

theorem View.neighborsOf_keeping (v : View α) (kept : UInt32 → Bool) (point : Vec2 α) (radius : α) :
    (v.keeping kept).neighborsOf point radius =
      (v.neighborsOf point radius).map (·.filter kept) := by
  change ((v.search point radius (some v.index)).map (·.filter kept)).map (·.filter v.isAlive) =
    ((v.search point radius (some v.index)).map (·.filter v.isAlive)).map (·.filter kept)
  cases v.search point radius (some v.index) with
  | error breach => rfl
  | ok found =>
    refine congrArg Except.ok ?_
    change (found.filter kept).filter v.isAlive = (found.filter v.isAlive).filter kept
    rw [Array.filter_filter, Array.filter_filter]
    simp only [Bool.and_comm]

namespace Fluid

open Procedure

variable {v : View α} {site : Site} {reach : Reach α}

/-- The acceleration once the neighbours are known. -/
def accelerateBy (v : View α) (me : Particle α) (density : α) (near : List UInt32) :
    Procedure α Unit := do
  let force ← near.foldlM (addPressure v me.position (pressure v density)) 0
  Procedure.update fun p => { p with acceleration := p.acceleration + force * me.inverseMass }

/-- **What a run of the apply phase goes by.** -/
theorem run_accelerate_eq_ite (v : View α) (site : Site) (reach : Reach α) :
    (accelerate v).run site reach =
      if reach.particle.inverseMass == 0 then (.ok (), reach)
      else
        match ((fieldOf densityField v.index).run site reach).1 with
        | .error message => (.error message, reach)
        | .ok density =>
          match v.neighborsOf reach.particle.position (v.params.get influenceRadius) with
          | .error breach => (.error (crashMessage (some breach.message)), reach)
          | .ok near => (accelerateBy v reach.particle density near.toList).run site reach := by
  change (if reach.particle.inverseMass == 0 then _ else _ : Procedure α Unit).run site reach = _
  split
  next => rfl
  next =>
    obtain ⟨answer, hfield⟩ : ∃ answer,
        (fieldOf densityField v.index).run site reach = (answer, reach) :=
      ⟨_, Prod.ext rfl (snd_run_fieldOf site _ _ reach)⟩
    rw [bind_eq, run_bind, hfield]
    cases answer with
    | error message => rfl
    | ok density =>
      dsimp only
      change ((sound (v.neighborsOf reach.particle.position _)).bind _).run site reach = _
      rw [run_bind, run_sound]
      cases v.neighborsOf reach.particle.position (v.params.get influenceRadius) with
      | error breach => rfl
      | ok near => rfl

end Fluid

/-! ## Distances -/

/-- Both components are finite numbers. -/
structure Vec2.IsFinite (a : Vec2 Single) : Prop where
  x_finite : a.x.isFinite = true
  y_finite : a.y.isFinite = true

/-- The distance of finite positions is a number that is not below zero; it may be infinite. -/
theorem Vec2.zero_le_distance {a b : Vec2 Single} (ha : a.IsFinite) (hb : b.IsFinite) :
    0 ≤ a.distance b := by
  have hx := Single.parts_sub_ne_notANumber ha.x_finite
    (Single.ne_notANumber_of_isFinite hb.x_finite)
  have hy := Single.parts_sub_ne_notANumber ha.y_finite
    (Single.ne_notANumber_of_isFinite hb.y_finite)
  exact Single.zero_le_sqrt (Single.zero_le_add (Single.zero_le_mul_self hx)
    (Single.zero_le_mul_self hy))

namespace Fluid

open Single Procedure
open Float.Model (UnpackedFloat)

/-! ## The whole run -/

variable {v : View Single} {me : Particle Single} {site : Site} {reach : Reach Single}

/-- The radius and all positions that the pressure on a particle goes by are finite. -/
structure AllFinite (v : View Single) (me : Particle Single) : Prop where
  radius : (v.params.get influenceRadius).isFinite = true
  own : me.position.IsFinite
  others : ∀ j other, v.other j = some other → other.position.IsFinite

/-- The radius tells whether a neighbour at the distance is within it. -/
def Graded (distance radius : Single) : Prop := 0 < radius ∨ radius = 0 ∧ 0 < distance

/-- Whether the particle at an index counts for the density at a position. -/
def weighed (v : View Single) (position : Vec2 Single) (j : UInt32) : Bool :=
  (v.other j).any fun other =>
    decide (Weighs (position.distance other.position) (v.params.get influenceRadius))

/-- All neighbours that the search finds are graded. -/
def AllGraded (v : View Single) (me : Particle Single) : Prop :=
  ∀ near, v.neighborsOf me.position (v.params.get influenceRadius) = .ok near →
    ∀ j ∈ near, ∀ other, v.other j = some other →
      Graded (me.position.distance other.position) (v.params.get influenceRadius)

/-- None of the neighbours that the search finds counts for the density. -/
def Unweighed (v : View Single) (me : Particle Single) : Prop :=
  ∀ near, v.neighborsOf me.position (v.params.get influenceRadius) = .ok near →
    ∀ j ∈ near, weighed v me.position j = false

/-- A neighbour that does not count for the density adds no force. -/
theorem addPressure_of_not_weighed (hfinite : AllFinite v me) {j : UInt32}
    (hgraded : ∀ other, v.other j = some other →
      Graded (me.position.distance other.position) (v.params.get influenceRadius))
    (h : weighed v me.position j = false) (own : Single) (force : Vec2 Single) :
    addPressure v me.position own force j = .done force := by
  rw [addPressure]
  cases hother : v.other j with
  | none => rfl
  | some other =>
    rw [weighed, hother, Option.any_some, decide_eq_false_iff_not] at h
    have hpassed : PassedOver (me.position.distance other.position)
        (v.params.get influenceRadius) :=
      ((same_iff hfinite.radius
        (Vec2.zero_le_distance hfinite.own (hfinite.others j other hother))).2
          (hgraded other hother)).2 h
    exact if_pos hpassed

/-- **The pressure goes by the neighbours that count for the density**, and by no others. Whoever
has no weight in the density has none in the pressure either, so that leaving them out changes
nothing that is added. -/
theorem run_accelerate_keeping (hfinite : AllFinite v reach.particle)
    (hgraded : AllGraded v reach.particle) :
    (accelerate (v.keeping (weighed v reach.particle.position))).run site reach =
      (accelerate v).run site reach := by
  rw [run_accelerate_eq_ite, run_accelerate_eq_ite, View.index_keeping, View.params_keeping,
    View.neighborsOf_keeping]
  split
  next => rfl
  next =>
    cases ((fieldOf densityField v.index).run site reach).1 with
    | error message => rfl
    | ok density =>
      cases hnear : v.neighborsOf reach.particle.position (v.params.get influenceRadius) with
      | error breach => rfl
      | ok near =>
        have hskip : ∀ j ∈ near.toList, weighed v reach.particle.position j = false →
            ∀ force, addPressure v reach.particle.position (pressure v density) force j =
              .done force := fun j hj hnot =>
          addPressure_of_not_weighed hfinite (hgraded near hnear j (Array.mem_toList_iff.1 hj))
            hnot _
        change (accelerateBy v reach.particle density (near.filter _).toList).run site reach =
          (accelerateBy v reach.particle density near.toList).run site reach
        rw [accelerateBy, accelerateBy, Array.toList_filter, ← foldlM_filter hskip]

/-- Without neighbours that count, the acceleration keeps its value. -/
theorem same_acceleration (hfinite : AllFinite v reach.particle)
    (hgraded : AllGraded v reach.particle) (hnone : Unweighed v reach.particle)
    (hmass : reach.particle.inverseMass.isFinite = true) :
    Same ((accelerate v).run site reach).2.particle.acceleration.x reach.particle.acceleration.x ∧
      Same ((accelerate v).run site reach).2.particle.acceleration.y
        reach.particle.acceleration.y := by
  rw [run_accelerate_eq_ite]
  split
  next => exact ⟨same_refl _, same_refl _⟩
  next =>
    cases ((fieldOf densityField v.index).run site reach).1 with
    | error message => exact ⟨same_refl _, same_refl _⟩
    | ok density =>
      cases hnear : v.neighborsOf reach.particle.position (v.params.get influenceRadius) with
      | error breach => exact ⟨same_refl _, same_refl _⟩
      | ok near =>
        have hskip : ∀ j ∈ near.toList, false = false →
            ∀ force, addPressure v reach.particle.position (pressure v density) force j =
              .done force := fun j hj _ =>
          addPressure_of_not_weighed hfinite (hgraded near hnear j (Array.mem_toList_iff.1 hj))
            (hnone near hnear j (Array.mem_toList_iff.1 hj)) _
        have hforce : near.toList.foldlM (addPressure v reach.particle.position
            (pressure v density)) 0 = Procedure.done 0 := by
          rw [foldlM_filter hskip, List.filter_false]
          rfl
        -- the force is zero, and so is what the mass makes of it
        obtain ⟨hshare, hzero⟩ := mul_of_left_zero isFinite_zero hmass toRat_zero
        change Same ((accelerateBy v reach.particle density near.toList).run site
            reach).2.particle.acceleration.x _ ∧
          Same ((accelerateBy v reach.particle density near.toList).run site
            reach).2.particle.acceleration.y _
        rw [accelerateBy, hforce]
        exact ⟨same_add_zero _ hshare hzero, same_add_zero _ hshare hzero⟩

/-- Under a positive radius every neighbour is graded. -/
theorem allGraded_of_pos (h : 0 < v.params.get influenceRadius) : AllGraded v me :=
  fun _ _ _ _ _ _ => .inl h

/-- **Pressure and density see the same neighbours where the radius is graded.** A neighbour is
passed over by the one exactly if it does not count for the other, under a positive radius, or apart
under a radius of zero, and nowhere else. If that holds of all neighbours found, the run is that
over the neighbours that count for the density; if there are none of these, a particle whose mass
has a finite inverse keeps the value of its acceleration. -/
theorem apply_weighed (site : Site) (hfinite : AllFinite v reach.particle) :
    (∀ j other, v.other j = some other →
      ((PassedOver (reach.particle.position.distance other.position)
          (v.params.get influenceRadius) ↔
        ¬ Weighs (reach.particle.position.distance other.position)
          (v.params.get influenceRadius)) ↔
        Graded (reach.particle.position.distance other.position)
          (v.params.get influenceRadius))) ∧
    (AllGraded v reach.particle →
      (module.run .apply (v.keeping (weighed v reach.particle.position))).run site reach =
        (module.run .apply v).run site reach ∧
      (Unweighed v reach.particle → reach.particle.inverseMass.isFinite = true →
        Same ((module.run .apply v).run site reach).2.particle.acceleration.x
            reach.particle.acceleration.x ∧
          Same ((module.run .apply v).run site reach).2.particle.acceleration.y
            reach.particle.acceleration.y)) :=
  ⟨fun j other hother => same_iff hfinite.radius
      (Vec2.zero_le_distance hfinite.own (hfinite.others j other hother)),
    fun hgraded => ⟨run_accelerate_keeping hfinite hgraded, same_acceleration hfinite hgraded⟩⟩

/-! ## Two particles at a distance of one -/

/-- A particle at a distance of one from the origin. -/
def atOne : Particle Single := Birth.withId { Birth.standard with position := ⟨1, 0⟩ } 1

/-- The particle at the origin, which sees the other one. -/
def couple (radius : Single) : View Single where
  index := 0
  dt := 1
  params := ⟨true, #[.scalar radius, .scalar 1, .scalar 1]⟩
  snapshot := #[Birth.standard.withId 0, atOne]
  search _ _ _ := .ok #[1]

/-- Where the module is called for it. -/
def coupleSite : Site := ⟨"fluid", .build [("fluid", [densityField])]⟩

/-- The particle with a table of zero densities. -/
def coupleReach : Reach Single :=
  { particle := Birth.standard.withId 0, table := (Table.create 5).resize 2 }

theorem neighborsOf_couple (radius : Single) (point : Vec2 Single) (within : Single) :
    (couple radius).neighborsOf point within = .ok #[1] := by
  have hother : (couple radius).other 1 = some atOne := rfl
  have halive : (couple radius).isAlive 1 = true := by
    rw [View.isAlive, hother, Option.any_some]
    decide +kernel
  change Except.ok ((#[1] : Array UInt32).filter (couple radius).isAlive) = _
  simp [halive]

theorem allFinite_couple {radius : Single} (h : radius.isFinite = true) :
    AllFinite (couple radius) coupleReach.particle where
  radius := h
  own := ⟨rfl, rfl⟩
  others j other hother := by
    have hmem : other ∈ (couple radius).snapshot := Array.mem_of_getElem? hother
    simp only [couple, List.mem_toArray, List.mem_cons, List.not_mem_nil, or_false] at hmem
    rcases hmem with rfl | rfl <;> exact ⟨rfl, rfl⟩

/-- The one neighbour does not count. -/
theorem unweighed_couple {radius : Single}
    (h : weighed (couple radius) coupleReach.particle.position 1 = false) :
    Unweighed (couple radius) coupleReach.particle := by
  intro near hnear j hj
  rw [neighborsOf_couple] at hnear
  cases hnear
  obtain rfl : j = 1 := by simpa using hj
  exact h

/-- At the edge of a radius of one the neighbour does not count, and adds nothing. -/
theorem apply_weighed_couple :
    AllFinite (couple 1) coupleReach.particle ∧ AllGraded (couple 1) coupleReach.particle ∧
      Unweighed (couple 1) coupleReach.particle ∧
      Same ((module.run .apply (couple 1)).run coupleSite coupleReach).2.particle.acceleration.x
        coupleReach.particle.acceleration.x := by
  have hfinite : AllFinite (couple 1) coupleReach.particle := allFinite_couple rfl
  have hgraded : AllGraded (couple 1) coupleReach.particle := allGraded_of_pos (by decide +kernel)
  have hnone : Unweighed (couple 1) coupleReach.particle := unweighed_couple (by decide +kernel)
  exact ⟨hfinite, hgraded, hnone,
    (((apply_weighed coupleSite hfinite).2 hgraded).2 hnone (by decide +kernel)).1⟩

/-- Under a radius of minus one no neighbour counts for the density, and the pressure accelerates
the particle by two. -/
theorem accelerated_unweighed :
    AllFinite (couple (-1)) coupleReach.particle ∧ Unweighed (couple (-1)) coupleReach.particle ∧
      coupleReach.particle.acceleration.x = 0 ∧
      ((module.run .apply (couple (-1))).run coupleSite coupleReach).2.particle.acceleration.x =
        1 + 1 :=
  ⟨allFinite_couple rfl, unweighed_couple (by decide +kernel), rfl, by decide +kernel⟩

end Fluid

end ParticleDynamics
