import Mathlib.Tactic.FieldSimp
import Mathlib.Tactic.Positivity
import ParticleDynamics.Proofs.Force.Reactions
import ParticleDynamics.Proofs.Scalar.Roots

/-!
# The tension of a single joint

Where one joint alone links two particles (`Joints.Linked`), each of them is displaced by its share
of the deviation from the rest length. The two shares make up the whole as soon as one of the
particles is free (`Particle.share_add_share`), a pinned one having no share at all. So the distance
takes a part of the way to the rest length that the stiffness says (`Joints.length_pulled`), in the
direction in which the particles were, and does not fall below where two particles count as
coincident (`Joints.lt_mean`): a joint never loses its direction.
-/

namespace ParticleDynamics

variable {K : Type} [Field K] [LinearOrder K] [IsStrictOrderedRing K] [FloorRing K]
  [Scalar.Curves K]

theorem coincident_pos : (0 : K) < coincident := by
  unfold coincident
  norm_num

namespace Particle

variable {p q : Particle K}

omit [IsStrictOrderedRing K] in
theorem inverseMass_of_neg (h : p.mass < 0) : p.inverseMass = 0 := if_neg h.not_gt

theorem inverseMass_pos (h : 0 < p.mass) : 0 < p.inverseMass := by
  rw [inverseMass_of_pos h]
  exact one_div_pos.2 h

theorem inverseMass_nonneg (p : Particle K) : 0 ≤ p.inverseMass := by
  by_cases h : 0 < p.mass
  · exact (inverseMass_pos h).le
  · exact (if_neg h : p.inverseMass = 0).ge

/-- The share of a particle in what happens to a pair. -/
def share (p q : Particle K) : K := p.inverseMass / (p.inverseMass + q.inverseMass)

omit [IsStrictOrderedRing K] in
theorem share_of_neg (h : p.mass < 0) (q : Particle K) : share p q = 0 := by
  rw [share, inverseMass_of_neg h, zero_div]

/-- **The shares of a pair make up the whole** if one of the two is free. The whole correction is
thus split between the two, and a pinned end leaves all of it to the other one. -/
theorem share_add_share (h : 0 < p.mass ∨ 0 < q.mass) : share p q + share q p = 1 := by
  have hsum : 0 < p.inverseMass + q.inverseMass := by
    rcases h with hp | hq
    · exact add_pos_of_pos_of_nonneg (inverseMass_pos hp) q.inverseMass_nonneg
    · exact add_pos_of_nonneg_of_pos p.inverseMass_nonneg (inverseMass_pos hq)
  rw [share, share, add_comm q.inverseMass, ← add_div, div_self hsum.ne']

end Particle

open Particle

namespace Joints

/-! ## One joint between two particles -/

/-- **One joint links two particles**, at a rest length: of all joints that have one of them for an
end, this is the only one, and its other end is the other particle. -/
def Linked (params : ParamBag K) (i j : UInt32) (rest : K) : Prop :=
  ∃ pair, ((joints params).filter fun joint =>
    (partner joint.1 i).isSome || (partner joint.1 j).isSome) = [(pair, rest)] ∧
      partner pair i = some j

variable {params : ParamBag K} {i j : UInt32} {rest : K}

omit [IsStrictOrderedRing K] in
theorem Linked.symm (h : Linked params i j rest) : Linked params j i rest := by
  obtain ⟨pair, honly, hpartner⟩ := h
  refine ⟨pair, honly ▸ List.filter_congr fun joint _ => Bool.or_comm .., partner_comm hpartner⟩

omit [IsStrictOrderedRing K] in
theorem Linked.ne (h : Linked params i j rest) : i ≠ j := by
  obtain ⟨pair, -, hpartner⟩ := h
  exact (partner_ne hpartner).symm

variable {v : View K} {p q : Particle K}

omit [IsStrictOrderedRing K] in
/-- A joint that the particle is no end of does not displace it. -/
theorem addPull_of_partner_eq_none {joint : (K × K) × K} (h : partner joint.1 v.index = none) :
    addPull v p 0 joint = 0 := by
  rw [addPull, h]

/-- How far a particle is displaced by its joint to another one. -/
def pulled (stiffness rest : K) (p q : Particle K) (i j : UInt32) : Vec2 K :=
  -(contactNormal (p.position - q.position) (p.position - q.position).length i j *
    ((p.position - q.position).length - rest) * share p q * stiffness)

omit [IsStrictOrderedRing K] in
/-- **All joints together displace a linked particle as the one joint does.** A particle that is
linked is named by one joint only, and all the others add nothing. -/
theorem Linked.sum_addPull (h : Linked v.params v.index j rest) (hq : v.other j = some q)
    (halive : q.isAlive = true) :
    ((joints v.params).map (addPull v p 0)).sum =
      pulled (v.params.get stiffness) rest p q v.index j := by
  obtain ⟨pair, honly, hpartner⟩ := h
  rw [← List.sum_map_filter_add_sum_map_filter_not
      (fun joint => ((partner joint.1 v.index).isSome || (partner joint.1 j).isSome) = true)]
  have hothers : (((joints v.params).filter fun joint =>
      ¬ ((partner joint.1 v.index).isSome || (partner joint.1 j).isSome) = true).map
        (addPull v p 0)).sum = 0 := by
    refine List.sum_eq_zero (List.forall_mem_map.2 fun joint hjoint => ?_)
    have hneither := of_decide_eq_true (List.mem_filter.1 hjoint).2
    refine addPull_of_partner_eq_none (Option.not_isSome_iff_eq_none.1 fun hsome => hneither ?_)
    rw [hsome, Bool.true_or]
  simp only [Bool.decide_eq_true]
  rw [hothers, add_zero, honly, List.map_singleton, List.sum_singleton, addPull, hpartner]
  dsimp only
  rw [hq]
  dsimp only
  rw [if_pos halive, zero_sub]
  rfl

omit [IsStrictOrderedRing K] in
/-- Whoever is pinned is not displaced. -/
theorem pulled_of_neg (h : p.mass < 0) (stiffness rest : K) (q : Particle K) (i j : UInt32) :
    pulled stiffness rest p q i j = 0 := by
  rw [pulled, share_of_neg h]
  ext
  · simp
  · simp

omit [IsStrictOrderedRing K] in
/-- **What the constrain phase leaves of a linked particle**, free or pinned. -/
theorem Linked.particle_run_pull (h : Linked v.params v.index j rest) (site : Procedure.Site)
    (reach : Procedure.Reach K) (hp : v.other v.index = some p) (hp0 : p.mass ≠ 0)
    (hq : v.other j = some q) (hq0 : q.mass ≠ 0) :
    ((pull v).run site reach).2.particle =
      { reach.particle with
        position := reach.particle.position +
          pulled (v.params.get stiffness) rest p q v.index j } := by
  rcases lt_or_gt_of_ne hp0 with hpinned | hfree
  · rw [pulled_of_neg hpinned, add_zero, pull, hp]
    dsimp only
    rw [inverseMass_of_neg hpinned, if_pos (beq_self_eq_true 0)]
    rfl
  · rw [Joints.particle_run_pull site reach hp hfree, h.sum_addPull hq (bne_iff_ne.2 hq0)]

/-! ## Both ends at once -/

section Ends

variable {stiffness : K}

/-- **Both ends are displaced along the line between them.** The direction stays, and the length is
all that changes, by a fraction that the stiffness sets. -/
theorem sub_pulled (hne : i ≠ j) (hfree : 0 < p.mass ∨ 0 < q.mass)
    (hfar : coincident < (p.position - q.position).length) :
    (p.position + pulled stiffness rest p q i j) - (q.position + pulled stiffness rest q p j i) =
      (p.position - q.position) *
        (1 - ((p.position - q.position).length - rest) * stiffness /
          (p.position - q.position).length) := by
  have hshares := share_add_share hfree
  rw [pulled, pulled, length_sub_comm p q, contactNormal_comm p q _ hne, contactNormal, if_pos hfar]
  have hpos := coincident_pos.trans hfar
  generalize (p.position - q.position).length = distance at hpos ⊢
  have hq : share q p = 1 - share p q := eq_sub_of_add_eq' hshares
  have hdistance : distance ≠ 0 := hpos.ne'
  ext
  · simp [hq]
    field_simp
    ring
  · simp [hq]
    field_simp
    ring

/-- The distance after both ends were displaced is a mean of the distance before and the rest
length. -/
theorem length_pulled (hroots : Scalar.Curves.Rooted K) (hne : i ≠ j)
    (hfree : 0 < p.mass ∨ 0 < q.mass) (hstiff : 0 ≤ stiffness ∧ stiffness ≤ 1)
    (hrest : coincident < rest) (hfar : coincident < (p.position - q.position).length) :
    ((p.position + pulled stiffness rest p q i j) -
        (q.position + pulled stiffness rest q p j i)).length =
      rest + (1 - stiffness) * ((p.position - q.position).length - rest) := by
  have hpos := coincident_pos.trans hfar
  have hrest0 := coincident_pos.trans hrest
  rw [sub_pulled hne hfree hfar]
  have hmean : (p.position - q.position).length *
      (1 - ((p.position - q.position).length - rest) * stiffness /
        (p.position - q.position).length) =
      rest + (1 - stiffness) * ((p.position - q.position).length - rest) := by
    generalize (p.position - q.position).length = distance at hpos ⊢
    have hdistance : distance ≠ 0 := hpos.ne'
    field_simp
    ring
  rw [Vec2.length_mul hroots _ ?_, hmean]
  -- the direction is not reversed, since a mean of two positive numbers is not negative
  refine nonneg_of_mul_nonneg_right (a := (p.position - q.position).length) ?_ hpos
  rw [hmean]
  nlinarith [mul_nonneg hstiff.1 hrest0.le, mul_nonneg (sub_nonneg.2 hstiff.2) hpos.le]

/-- A mean of two numbers above a third is above it. -/
theorem lt_mean {bound distance : K} (hstiff : 0 ≤ stiffness ∧ stiffness ≤ 1)
    (hrest : bound < rest) (hfar : bound < distance) :
    bound < rest + (1 - stiffness) * (distance - rest) := by
  rcases hstiff.1.eq_or_lt with rfl | hpos
  · linarith
  · nlinarith [mul_pos hpos (sub_pos.2 hrest),
      mul_nonneg (sub_nonneg.2 hstiff.2) (sub_nonneg.2 hfar.le)]

omit [IsStrictOrderedRing K] in
/-- **The centre of mass of two free ends stays.** -/
theorem weighted_pulled (hne : i ≠ j) (hp : 0 < p.mass) (hq : 0 < q.mass) :
    (p.position + pulled stiffness rest p q i j) * p.mass +
        (q.position + pulled stiffness rest q p j i) * q.mass =
      p.position * p.mass + q.position * q.mass := by
  have hshare : share p q * p.mass = share q p * q.mass := share_mul_mass hp hq
  rw [pulled, pulled, length_sub_comm p q, contactNormal_comm p q _ hne]
  generalize (p.position - q.position).length = distance
  generalize contactNormal (p.position - q.position) distance i j = n
  ext
  · simp
    linear_combination -n.x * (distance - rest) * stiffness * hshare
  · simp
    linear_combination -n.y * (distance - rest) * stiffness * hshare

end Ends

end Joints

end ParticleDynamics
