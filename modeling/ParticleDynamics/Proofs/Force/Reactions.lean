import Mathlib.Tactic.LinearCombination
import ParticleDynamics.Force.Fluid
import ParticleDynamics.Force.Joints
import ParticleDynamics.Proofs.Scalar.Plane

/-!
# Action and reaction

What a pair force does to one particle of a pair is the opposite of what it does to the other, once
both are weighed with the masses: for a contact (`Collisions.contact_reverse`), for a joint
(`Joints.tension_reverse`) and for the pressure of the fluid (`Fluid.push_reverse`). Each of the two
works out its own side from what it sees, and what they have to agree on is the distance, the
direction up to its sign, and how the pair is divided up (`Particle.share_mul_mass`).
-/

namespace ParticleDynamics

namespace Procedure

variable {α : Type} {site : Site} {reach : Reach α}

/-- A field that has a slot is read there. -/
theorem read_eq_ok (site : Site) {name : String} {slot : Nat}
    (hslot : site.layout.slot? site.owner name = some slot) {table : Table α} {row : UInt32}
    {value : α} (hvalue : table.get? row.toNat slot = some value) :
    (do readCell table row (← site.slotOf site.owner name)) = .ok value := by
  have hplace : site.slotOf site.owner name = .ok slot := by rw [Site.slotOf, hslot]
  have hread : readCell table row slot = .ok value := by rw [readCell, hvalue]
  rw [hplace]
  exact hread

/-- Reading a field that is there gives its value. -/
theorem run_fieldOf {name : String} {row : UInt32} {value : α}
    (h : (do readCell reach.table row (← site.slotOf site.owner name)) = .ok value) :
    (fieldOf name row).run site reach = (.ok value, reach) := by
  rw [fieldOf, run, Option.getD_none, h]
  rfl

/-- Asking for the neighbours that there are gives them. -/
theorem run_neighbors [Scalar α] {v : View α} {radius : α} {near : Array UInt32}
    (h : v.neighborsOf reach.particle.position radius = .ok near) :
    (neighbors v radius).run site reach = (.ok near, reach) := by
  change (sound (v.neighborsOf reach.particle.position radius)).run site reach = _
  rw [h]
  rfl

end Procedure

variable {K : Type} [Field K] [LinearOrder K] [FloorRing K] [Scalar.Curves K]

namespace Particle

variable {p q : Particle K}

theorem inverseMass_of_pos (h : 0 < p.mass) : p.inverseMass = 1 / p.mass := if_pos h

theorem inverseMass_mul_mass (h : 0 < p.mass) : p.inverseMass * p.mass = 1 := by
  rw [inverseMass_of_pos h, one_div_mul_cancel h.ne']

/-- A force divided by the mass, weighed with the mass, is the force. -/
theorem mul_inverseMass_mul_mass (h : 0 < p.mass) (force : Vec2 K) :
    force * p.inverseMass * p.mass = force := by
  have hone := inverseMass_mul_mass h
  ext
  · rw [Vec2.mul_x, Vec2.mul_x, mul_assoc, hone, mul_one]
  · rw [Vec2.mul_y, Vec2.mul_y, mul_assoc, hone, mul_one]

/-- A particle of positive mass can be moved. -/
theorem beq_inverseMass_of_pos (h : 0 < p.mass) : (p.inverseMass == 0) = false := by
  rw [inverseMass_of_pos h]
  exact beq_eq_false_iff_ne.2 (one_div_ne_zero h.ne')

/-- A particle of positive mass is alive. -/
theorem isAlive_of_pos (h : 0 < p.mass) : p.isAlive = true := bne_iff_ne.2 h.ne'

/-- The difference of two positions is as long as the reversed one. -/
theorem length_sub_comm (p q : Particle K) :
    (q.position - p.position).length = (p.position - q.position).length := by
  rw [← neg_sub, Vec2.length_neg]

/-- The direction of a pair is reversed with the pair. -/
theorem contactNormal_comm (p q : Particle K) (distance : K) {i j : UInt32} (h : i ≠ j) :
    contactNormal (q.position - p.position) distance j i =
      -contactNormal (p.position - q.position) distance i j := by
  rw [← neg_sub p.position, contactNormal_reverse _ _ h]

/-- **Weighed with the masses, both particles of a pair have the same share** in it. -/
theorem share_mul_mass (hp : 0 < p.mass) (hq : 0 < q.mass) :
    p.inverseMass / (p.inverseMass + q.inverseMass) * p.mass =
      q.inverseMass / (q.inverseMass + p.inverseMass) * q.mass := by
  rw [add_comm q.inverseMass, div_mul_eq_mul_div, div_mul_eq_mul_div, inverseMass_mul_mass hp,
    inverseMass_mul_mass hq]

end Particle

open Particle

variable {v v' : View K} {p q : Particle K} {j : UInt32}

/-! ## Contacts -/

namespace Collisions

/-- The response to one neighbour. -/
def contact (v : View K) (me : Particle K) (j : UInt32) : Response K := respond v me ⟨0, 0⟩ j

/-- The response to each neighbour is added to that to the others. -/
theorem respond_eq (v : View K) (me : Particle K) (r : Response K) (j : UInt32) :
    respond v me r j =
      ⟨r.shift + (contact v me j).shift, r.impulse + (contact v me j).impulse⟩ := by
  rw [contact, respond, respond]
  split
  next => simp
  next other hother =>
    dsimp only
    split
    next => simp
    next =>
      split
      next => simp [sub_eq_add_neg]
      next => simp

/-- The responses to all neighbours add up. -/
theorem foldl_respond (v : View K) (me : Particle K) (near : List UInt32) (r : Response K) :
    near.foldl (respond v me) r =
      ⟨r.shift + (near.map fun j => (contact v me j).shift).sum,
        r.impulse + (near.map fun j => (contact v me j).impulse).sum⟩ := by
  induction near generalizing r with
  | nil => simp
  | cons j rest ih => rw [List.foldl_cons, ih, respond_eq]; simp [add_assoc]

/-- The response to a neighbour, in terms of the two particles. -/
theorem contact_eq (hq : v.other j = some q) :
    contact v p j =
      let distance := (p.position - q.position).length
      let n := contactNormal (p.position - q.position) distance v.index j
      let share := p.inverseMass / (p.inverseMass + q.inverseMass)
      let approach := (p.velocity - q.velocity).dot n
      if p.size + q.size ≤ distance then ⟨0, 0⟩
      else
        ⟨n * (p.size + q.size - distance) * share,
          if approach < 0 then -(n * (1 + v.params.get restitution) * approach * share) else 0⟩ := by
  rw [contact, respond, hq]
  dsimp only
  split
  next => rfl
  next =>
    rw [zero_add, zero_sub]
    split <;> rfl

/-- **Action and reaction in a contact.** Seen from the other end the normal and the relative
velocity change their signs, and everything else is symmetric in the two. -/
theorem contact_reverse (hp : v'.other v.index = some p)
    (hq : v.other v'.index = some q) (hparams : v'.params = v.params) (hne : v.index ≠ v'.index)
    (hp0 : 0 < p.mass) (hq0 : 0 < q.mass) :
    (contact v p v'.index).shift * p.mass + (contact v' q v.index).shift * q.mass = 0 ∧
      (contact v p v'.index).impulse * p.mass + (contact v' q v.index).impulse * q.mass = 0 := by
  have hshare := share_mul_mass hp0 hq0
  rw [contact_eq hp, contact_eq hq]
  dsimp only
  rw [hparams, length_sub_comm p q, contactNormal_comm p q _ hne, add_comm q.size,
    ← neg_sub p.velocity, Vec2.dot_neg_neg]
  -- what both ends have in common, and the two shares, which the masses turn into each other
  generalize (p.position - q.position).length = distance
  generalize contactNormal (p.position - q.position) distance v.index v'.index = n
  generalize (p.velocity - q.velocity).dot n = approach
  generalize p.inverseMass / (p.inverseMass + q.inverseMass) = share at hshare ⊢
  generalize q.inverseMass / (q.inverseMass + p.inverseMass) = share' at hshare ⊢
  split
  next => simp
  next =>
    refine ⟨?_, ?_⟩
    · ext
      · simp
        linear_combination n.x * (p.size + q.size - distance) * hshare
      · simp
        linear_combination n.y * (p.size + q.size - distance) * hshare
    · split
      next =>
        generalize v.params.get restitution = e
        ext
        · simp
          linear_combination -n.x * (1 + e) * approach * hshare
        · simp
          linear_combination -n.y * (1 + e) * approach * hshare
      next => simp

/-- What separating leaves: the responses to all neighbours, added up. -/
theorem particle_run_separate (site : Procedure.Site) (reach : Procedure.Reach K)
    {near : Array UInt32} (hp : v.other v.index = some p) (hp0 : 0 < p.mass)
    (hnear : v.neighborsOf p.position (p.size + v.params.get maxRadius) = .ok near) :
    ((separate v).run site reach).2.particle =
      { reach.particle with
        position := reach.particle.position + (near.toList.map fun j => (contact v p j).shift).sum
        velocity := reach.particle.velocity +
          (near.toList.map fun j => (contact v p j).impulse).sum } := by
  have hsum := foldl_respond v p near.toList ⟨0, 0⟩
  rw [Array.foldl_toList, zero_add, zero_add] at hsum
  rw [separate, hp]
  dsimp only
  rw [beq_inverseMass_of_pos hp0, if_neg Bool.false_ne_true, Procedure.neighborsOf, hnear]
  change { reach.particle with
    position := reach.particle.position + (near.foldl (respond v p) ⟨0, 0⟩).shift
    velocity := reach.particle.velocity + (near.foldl (respond v p) ⟨0, 0⟩).impulse } = _
  rw [hsum]

end Collisions

/-! ## Joints -/

namespace Joints

/-- What one joint adds does not depend on the others. -/
theorem addPull_eq (v : View K) (me : Particle K) (shift : Vec2 K) (joint : (K × K) × K) :
    addPull v me shift joint = shift + addPull v me 0 joint := by
  rw [addPull, addPull]
  split
  next => simp
  next =>
    split
    next => simp
    next =>
      split
      next => simp [sub_eq_add_neg]
      next => simp

/-- The displacements by all joints add up. -/
theorem foldl_addPull (v : View K) (me : Particle K) (joints : List ((K × K) × K))
    (shift : Vec2 K) :
    joints.foldl (addPull v me) shift = shift + (joints.map (addPull v me 0)).sum := by
  induction joints generalizing shift with
  | nil => simp
  | cons joint rest ih => rw [List.foldl_cons, ih, addPull_eq, add_assoc]; rfl

/-- Whoever is the partner of a particle has it for a partner. -/
theorem partner_comm {ends : K × K} {i j : UInt32} (h : partner ends i = some j) :
    partner ends j = some i := by
  simp only [partner] at h ⊢
  grind

/-- **Action and reaction in a joint.** A joint pulls along the line between its ends, which is the
same line for both, run the other way. -/
theorem addPull_reverse (hp : v'.other v.index = some p) (hq : v.other v'.index = some q)
    (hparams : v'.params = v.params) (hp0 : 0 < p.mass) (hq0 : 0 < q.mass) {joint : (K × K) × K}
    (hpartner : partner joint.1 v.index = some v'.index) :
    addPull v p 0 joint * p.mass + addPull v' q 0 joint * q.mass = 0 := by
  have hshare := share_mul_mass hp0 hq0
  rw [addPull, addPull, hpartner, partner_comm hpartner]
  dsimp only
  rw [hp, hq]
  dsimp only
  rw [if_pos (isAlive_of_pos hp0), if_pos (isAlive_of_pos hq0), hparams, length_sub_comm p q,
    contactNormal_comm p q _ (partner_ne hpartner).symm]
  generalize (p.position - q.position).length = distance
  generalize contactNormal (p.position - q.position) distance v.index v'.index = n
  generalize v.params.get stiffness = k
  ext
  · simp
    linear_combination -n.x * (distance - joint.2) * k * hshare
  · simp
    linear_combination -n.y * (distance - joint.2) * k * hshare

/-- What pulling leaves: the displacements by all joints, added up. -/
theorem particle_run_pull (site : Procedure.Site) (reach : Procedure.Reach K)
    (hp : v.other v.index = some p) (hp0 : 0 < p.mass) :
    ((pull v).run site reach).2.particle =
      { reach.particle with
        position := reach.particle.position + ((joints v.params).map (addPull v p 0)).sum } := by
  have hsum := foldl_addPull v p (joints v.params) 0
  rw [zero_add] at hsum
  rw [pull, hp]
  dsimp only
  rw [beq_inverseMass_of_pos hp0, if_neg Bool.false_ne_true, hsum]
  rfl

end Joints

/-! ## Pressure -/

namespace Fluid

/-- The force of one neighbour, given its density. -/
def push (v : View K) (position : Vec2 K) (own density : K) (j : UInt32) (other : Particle K) :
    Vec2 K :=
  let distance := (position - other.position).length
  let weight := 1 - distance / v.params.get influenceRadius
  if weight ≤ 0 then 0
  else
    contactNormal (position - other.position) distance v.index j *
      (own + pressure v density) * (0.5 : K) * weight

/-- **Action and reaction by pressure.** It holds of the accelerations themselves, without any
masses. -/
theorem push_reverse (hparams : v'.params = v.params) (hne : v.index ≠ v'.index) (density density' : K) :
    push v p.position (pressure v density) density' v'.index q +
      push v' q.position (pressure v' density') density v.index p = 0 := by
  have hpressure (density : K) : pressure v' density = pressure v density := by
    rw [pressure, hparams, pressure]
  rw [push, push, hparams, length_sub_comm p q, contactNormal_comm p q _ hne, hpressure, hpressure,
    add_comm (pressure v density')]
  split
  next => exact add_zero 0
  next =>
    ext
    · simp
    · simp

/-- The force of the neighbour at an index, if there is one, given the densities. -/
def pushAt (v : View K) (position : Vec2 K) (density : UInt32 → K) (j : UInt32) : Vec2 K :=
  (v.other j).elim 0 (push v position (pressure v (density v.index)) (density j) j)

section Running

variable {site : Procedure.Site} {reach : Procedure.Reach K} {density : UInt32 → K}

/-- The force of a neighbour whose density can be read is added to the force so far. -/
theorem run_addPressure {j : UInt32} (hq : v.other j = some q)
    (hdensity : (do Procedure.readCell reach.table j (← site.slotOf site.owner densityField)) =
      .ok (density j)) (position : Vec2 K) (force : Vec2 K) :
    (addPressure v position (pressure v (density v.index)) force j).run site reach =
      (.ok (force + pushAt v position density j), reach) := by
  rw [addPressure, pushAt, hq, Option.elim_some, push]
  dsimp only
  split
  next => rw [add_zero]; rfl
  next =>
    rw [Procedure.bind_eq, Procedure.run_bind, Procedure.run_fieldOf hdensity]
    rfl

/-- The forces of all neighbours add up. -/
theorem run_foldlM_addPressure {near : List UInt32}
    (hnear : ∀ j ∈ near, (∃ q, v.other j = some q) ∧
      (do Procedure.readCell reach.table j (← site.slotOf site.owner densityField)) =
        .ok (density j)) (position : Vec2 K) (force : Vec2 K) :
    (near.foldlM (addPressure v position (pressure v (density v.index))) force).run site reach =
      (.ok (force + (near.map (pushAt v position density)).sum), reach) := by
  induction near generalizing force with
  | nil => rw [List.map_nil, List.sum_nil, add_zero]; rfl
  | cons j rest ih =>
    obtain ⟨⟨⟨q, hq⟩, hdensity⟩, hlater⟩ := List.forall_mem_cons.1 hnear
    rw [List.foldlM_cons, Procedure.bind_eq, Procedure.run_bind, run_addPressure hq hdensity]
    dsimp only
    rw [ih hlater, List.map_cons, List.sum_cons, add_assoc]

/-- What accelerating leaves: the forces of all neighbours, added up. -/
theorem run_accelerate (site : Procedure.Site) (reach : Procedure.Reach K) {near : Array UInt32}
    (hp0 : 0 < reach.particle.mass)
    (hown : (do Procedure.readCell reach.table v.index (← site.slotOf site.owner densityField)) =
      .ok (density v.index))
    (hfound : v.neighborsOf reach.particle.position (v.params.get influenceRadius) = .ok near)
    (hnear : ∀ j ∈ near.toList, (∃ q, v.other j = some q) ∧
      (do Procedure.readCell reach.table j (← site.slotOf site.owner densityField)) =
        .ok (density j)) :
    (accelerate v).run site reach =
      (.ok (), { reach with particle := { reach.particle with
        acceleration := reach.particle.acceleration +
          (near.toList.map (pushAt v reach.particle.position density)).sum *
            reach.particle.inverseMass } }) := by
  have hsum := run_foldlM_addPressure hnear reach.particle.position 0
  rw [zero_add] at hsum
  change Procedure.run site (if reach.particle.inverseMass == 0 then _ else _) reach = _
  rw [beq_inverseMass_of_pos hp0, if_neg Bool.false_ne_true, Procedure.bind_eq,
    Procedure.run_bind, Procedure.run_fieldOf hown]
  dsimp only
  rw [Procedure.bind_eq, Procedure.run_bind, Procedure.run_neighbors hfound]
  dsimp only
  rw [Procedure.bind_eq, Procedure.run_bind, hsum]
  rfl

end Running

end Fluid

end ParticleDynamics
