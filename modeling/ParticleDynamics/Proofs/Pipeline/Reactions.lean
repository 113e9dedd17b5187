import Mathlib.Algebra.Order.Field.Basic
import ParticleDynamics.Proofs.Force.Footprints
import ParticleDynamics.Proofs.Pipeline.Pairs
import ParticleDynamics.Proofs.Scratch.Fields

/-!
# What pair forces conserve

The particles of a pair each work out their own side of it, and the two sides are opposite once they
are weighed with the masses. So in all nothing is left: a turn of the collisions keeps the centre of
mass and the momentum, one of the joints keeps the centre of mass, and what the fluid adds to the
accelerations is without a net force (`Scene.turns_conserve`).

The three modules look at their pairs in different ways. The collisions and the joints go by the
particles as they were when the pass began. The fluid takes its own position from the particle as it
is now, and the densities from the scratch table, which its turn only reads.
-/

namespace ParticleDynamics

variable {K : Type} [Field K] [LinearOrder K] [FloorRing K] [Scalar.Curves K]

open Finset (range sum_congr)

namespace Scene

variable {began current : Scene K}

namespace Weighty

variable {layout : ScratchLayout} {dt : K} {params : ParamBag K}

/-! ### Collisions -/

/-- The response of the particle at an index to the one at another. -/
def contactBetween (began : Scene K) (layout : ScratchLayout) (dt : K) (params : ParamBag K)
    (index other : Nat) : Collisions.Response K :=
  began.particles[index]?.elim ⟨0, 0⟩ fun p =>
    Collisions.contact
      ((began.passOf layout .constrain dt ⟨Collisions.module, params⟩).view index) p other.toUInt32

/-- The call for a particle adds up its responses to all others. -/
theorem particle_call_collisions [IsStrictOrderedRing K] (h : Weighty began current)
    (hfinds : FindsCloser began.grid.query began.particles fun p =>
      p.size + params.get Collisions.maxRadius)
    (hsizes : ∀ p ∈ began.particles, p.size ≤ params.get Collisions.maxRadius) {index : Nat}
    {q : Particle K} (hq : began.particles[index]? = some q) (p : Particle K) (table : Table K) :
    ((began.passOf layout .constrain dt ⟨Collisions.module, params⟩).call index p
        table).2.particle =
      { p with
        position := p.position + ∑ other ∈ (range began.particles.size).erase index,
          (contactBetween began layout dt params index other).shift
        velocity := p.velocity + ∑ other ∈ (range began.particles.size).erase index,
          (contactBetween began layout dt params index other).impulse } := by
  let pass := began.passOf layout .constrain dt ⟨Collisions.module, params⟩
  let v := pass.view index
  have hself : v.other v.index = some q := h.other_view layout .constrain dt _ index hq
  obtain ⟨near, hnear, -, hsum⟩ :=
    FindsCloser.exists_near (v := v) hfinds h.few h.isAlive_began rfl hq
  have hbetween : contactBetween began layout dt params index =
      fun other => Collisions.contact v q other.toUInt32 := by
    funext other
    rw [contactBetween, hq]
    rfl
  -- who is out of reach is out of touch, since no size is above the greatest radius
  have hfar (other : Nat) (r : Particle K) (hr : began.particles[other]? = some r)
      (hle : q.size + params.get Collisions.maxRadius ≤ (q.position - r.position).length) :
      Collisions.contact v q other.toUInt32 = ⟨0, 0⟩ := by
    have hsize := hsizes r (Array.mem_of_getElem? hr)
    rw [Collisions.contact_eq (h.other_view layout .constrain dt _ index hr)]
    exact if_pos ((add_le_add_right hsize _).trans hle)
  refine (Collisions.particle_run_separate pass.site ⟨p, table, #[]⟩ hself (h.pos hq)
    hnear).trans ?_
  rw [hbetween,
    hsum _ fun other r hr _ hle => congrArg Collisions.Response.shift (hfar other r hr hle),
    hsum _ fun other r hr _ hle => congrArg Collisions.Response.impulse (hfar other r hr hle)]
  rfl

/-- The two sides of a contact cancel out. -/
theorem contactBetween_reverse (h : Weighty began current) {i j : Nat} {p q : Particle K}
    (hp : began.particles[i]? = some p) (hq : began.particles[j]? = some q) (hne : i ≠ j) :
    (contactBetween began layout dt params i j).shift * p.mass +
        (contactBetween began layout dt params j i).shift * q.mass = 0 ∧
      (contactBetween began layout dt params i j).impulse * p.mass +
        (contactBetween began layout dt params j i).impulse * q.mass = 0 := by
  let pass := began.passOf layout .constrain dt ⟨Collisions.module, params⟩
  rw [contactBetween, contactBetween, hp, hq]
  exact @Collisions.contact_reverse K _ _ _ _ (pass.view i) (pass.view j) p q
    (h.other_view layout .constrain dt _ j hp) (h.other_view layout .constrain dt _ i hq) rfl
    (h.toUInt32_ne hp hq hne) (h.pos hp) (h.pos hq)

/-- **A turn of the collisions keeps the centre of mass and the momentum.** -/
theorem collisions_conserve [IsStrictOrderedRing K] (h : Weighty began current)
    (hfinds : FindsCloser began.grid.query began.particles fun p =>
      p.size + params.get Collisions.maxRadius)
    (hsizes : ∀ p ∈ began.particles, p.size ≤ params.get Collisions.maxRadius) :
    let after := (began.passOf layout .constrain dt ⟨Collisions.module, params⟩).turn current
    Weighty began after ∧
      weighted Particle.position after.particles = weighted Particle.position current.particles ∧
      weighted Particle.velocity after.particles = weighted Particle.velocity current.particles := by
  let pass := began.passOf layout .constrain dt ⟨Collisions.module, params⟩
  obtain ⟨hafter, hposition⟩ := h.weighted_turn pass Particle.position
    (fun i j => (contactBetween began layout dt params i j).shift)
    (fun index p q _ hq _ => by rw [h.particle_call_collisions hfinds hsizes hq]; exact ⟨rfl, rfl⟩)
    fun i j p q hp hq hne => (h.contactBetween_reverse hp hq hne).1
  obtain ⟨-, hvelocity⟩ := h.weighted_turn pass Particle.velocity
    (fun i j => (contactBetween began layout dt params i j).impulse)
    (fun index p q _ hq _ => by rw [h.particle_call_collisions hfinds hsizes hq]; exact ⟨rfl, rfl⟩)
    fun i j p q hp hq hne => (h.contactBetween_reverse hp hq hne).2
  exact ⟨hafter, hposition, hvelocity⟩

/-! ### Joints -/

/-- The displacement of the particle at an index by its joints to the one at another. -/
def pullBetween (began : Scene K) (layout : ScratchLayout) (dt : K) (params : ParamBag K)
    (index other : Nat) : Vec2 K :=
  let v := (began.passOf layout .constrain dt ⟨Joints.module, params⟩).view index
  began.particles[index]?.elim 0 fun p =>
    ((Joints.joints params).map fun joint =>
      if Joints.partner joint.1 v.index = some other.toUInt32 then Joints.addPull v p 0 joint
      else 0).sum

/-- **A joint pulls a particle towards one other at most**, so that what it adds can be spread over
all of them. -/
theorem addPull_eq_sum {v : View K} (hfew : v.snapshot.size ≤ 2 ^ 32) {index : Nat}
    (hindex : v.index = index.toUInt32) (p : Particle K) (joint : (K × K) × K) :
    Joints.addPull v p 0 joint = ∑ other ∈ (range v.snapshot.size).erase index,
      if Joints.partner joint.1 v.index = some other.toUInt32 then Joints.addPull v p 0 joint
      else 0 := by
  cases hpartner : Joints.partner joint.1 v.index with
  | none =>
    rw [Joints.addPull, hpartner]
    exact (Finset.sum_eq_zero fun _ _ => if_neg (Option.some_ne_none _).symm).symm
  | some word =>
    have hword : word.toNat.toUInt32 = word := UInt32.ofNat_toNat
    by_cases hlt : word.toNat < v.snapshot.size
    · have hmem : word.toNat ∈ (range v.snapshot.size).erase index := by
        refine Finset.mem_erase.2 ⟨fun hsame => ?_, Finset.mem_range.2 hlt⟩
        exact Joints.partner_ne hpartner (by rw [hindex, ← hsame, hword])
      rw [Finset.sum_eq_single word.toNat (fun other hother hne => if_neg fun hsame => hne ?_)
        fun hnot => absurd hmem hnot, if_pos (congrArg some hword.symm)]
      have hother := Finset.mem_range.1 (Finset.mem_of_mem_erase hother)
      rw [Option.some.inj hsame, toNat_toUInt32 (Nat.lt_of_lt_of_le hother hfew)]
    · have hnone : v.other word = none := Array.getElem?_eq_none (Nat.not_lt.1 hlt)
      rw [Joints.addPull, hpartner]
      dsimp only
      rw [hnone]
      exact (Finset.sum_eq_zero fun _ _ => ite_self 0).symm

/-- The call for a particle adds up its displacements towards all others. -/
theorem particle_call_joints (h : Weighty began current) {index : Nat} {q : Particle K}
    (hq : began.particles[index]? = some q) (p : Particle K) (table : Table K) :
    ((began.passOf layout .constrain dt ⟨Joints.module, params⟩).call index p table).2.particle =
      { p with
        position := p.position + ∑ other ∈ (range began.particles.size).erase index,
          pullBetween began layout dt params index other } := by
  let pass := began.passOf layout .constrain dt ⟨Joints.module, params⟩
  let v := pass.view index
  have hself : v.other v.index = some q := h.other_view layout .constrain dt _ index hq
  have hsum : ((Joints.joints params).map (Joints.addPull v q 0)).sum =
      ∑ other ∈ (range began.particles.size).erase index,
        pullBetween began layout dt params index other := by
    have hspread := List.map_congr_left fun joint (_ : joint ∈ Joints.joints params) =>
      addPull_eq_sum (v := v) h.few rfl q joint
    rw [hspread, sum_map_sum]
    refine sum_congr rfl fun other _ => ?_
    rw [pullBetween, hq]
    rfl
  refine (Joints.particle_run_pull pass.site ⟨p, table, #[]⟩ hself (h.pos hq)).trans ?_
  rw [← hsum]
  rfl

/-- The two sides of all joints between two particles cancel out. -/
theorem pullBetween_reverse (h : Weighty began current) {i j : Nat} {p q : Particle K}
    (hp : began.particles[i]? = some p) (hq : began.particles[j]? = some q) :
    pullBetween began layout dt params i j * p.mass +
      pullBetween began layout dt params j i * q.mass = 0 := by
  let pass := began.passOf layout .constrain dt ⟨Joints.module, params⟩
  let v := pass.view i
  let v' := pass.view j
  have hjoint (joint : (K × K) × K) :
      (if Joints.partner joint.1 v.index = some j.toUInt32 then Joints.addPull v p 0 joint else 0) *
          p.mass +
        (if Joints.partner joint.1 v'.index = some i.toUInt32 then Joints.addPull v' q 0 joint
          else 0) * q.mass = 0 := by
    by_cases hpartner : Joints.partner joint.1 v.index = some j.toUInt32
    · have hback : Joints.partner joint.1 v'.index = some i.toUInt32 :=
        Joints.partner_comm hpartner
      rw [if_pos hpartner, if_pos hback]
      exact Joints.addPull_reverse (v := v) (h.other_view layout .constrain dt _ j hp)
        (h.other_view layout .constrain dt _ i hq) rfl (h.pos hp) (h.pos hq) hpartner
    · have hnot : ¬ Joints.partner joint.1 v'.index = some i.toUInt32 :=
        fun hback => hpartner (Joints.partner_comm hback)
      rw [if_neg hpartner, if_neg hnot, Vec2.zero_mul, Vec2.zero_mul, add_zero]
  rw [pullBetween, pullBetween, hp, hq]
  dsimp only [Option.elim_some]
  rw [Vec2.list_sum_mul, Vec2.list_sum_mul, ← List.sum_map_add]
  exact List.sum_eq_zero (List.forall_mem_map.2 fun joint _ => hjoint joint)

/-- **A turn of the joints keeps the centre of mass.** -/
theorem joints_conserve (h : Weighty began current) :
    let after := (began.passOf layout .constrain dt ⟨Joints.module, params⟩).turn current
    Weighty began after ∧
      weighted Particle.position after.particles = weighted Particle.position current.particles := by
  refine h.weighted_turn _ Particle.position (pullBetween began layout dt params)
    (fun index p q hp hq _ => ?_) fun i j p q hp hq _ => h.pullBetween_reverse hp hq
  rw [h.particle_call_joints hq]
  exact ⟨rfl, rfl⟩

/-! ### Fluid -/

/-- The acceleration of the particle at an index by the one at another, given the densities. -/
def accelerationBetween (began : Scene K) (layout : ScratchLayout) (dt : K) (params : ParamBag K)
    (density : UInt32 → K) (index other : Nat) : Vec2 K :=
  began.particles[index]?.elim 0 fun p =>
    Fluid.pushAt ((began.passOf layout .apply dt ⟨Fluid.module, params⟩).view index) p.position
      density other.toUInt32 * p.inverseMass

/-- The call for a particle that is where it was adds up the accelerations by all others. -/
theorem particle_call_fluid [IsStrictOrderedRing K] (h : Weighty began current)
    (hradius : 0 < params.get Fluid.influenceRadius)
    (hfinds : FindsCloser began.grid.query began.particles fun _ =>
      params.get Fluid.influenceRadius)
    {slot : Nat} (hslot : layout.slot? (Fluid.module : Module K).name Fluid.densityField = some slot)
    {table : Table K} {density : UInt32 → K}
    (hdensity : ∀ j : UInt32, j.toNat < began.particles.size →
      table.get? j.toNat slot = some (density j))
    {index : Nat} {q : Particle K} (hq : began.particles[index]? = some q) {p : Particle K}
    (hplace : p.position = q.position) (hmass : p.mass = q.mass) :
    ((began.passOf layout .apply dt ⟨Fluid.module, params⟩).call index p table).2.particle =
      { p with
        acceleration := p.acceleration + ∑ other ∈ (range began.particles.size).erase index,
          accelerationBetween began layout dt params density index other } := by
  let pass := began.passOf layout .apply dt ⟨Fluid.module, params⟩
  let v := pass.view index
  let site := pass.site
  have hread {j : UInt32} (hj : j.toNat < began.particles.size) :=
    Procedure.read_eq_ok site hslot (hdensity j hj)
  obtain ⟨near, hnear, hothers, hsum⟩ :=
    FindsCloser.exists_near (v := v) hfinds h.few h.isAlive_began rfl hq
  -- who is out of reach pushes with no weight
  have hfar (other : Nat) (r : Particle K) (hr : began.particles[other]? = some r)
      (hle : params.get Fluid.influenceRadius ≤ (q.position - r.position).length) :
      Fluid.pushAt v q.position density other.toUInt32 = 0 := by
    rw [Fluid.pushAt, h.other_view layout .apply dt _ index hr, Option.elim_some, Fluid.push]
    exact if_pos (sub_nonpos.2 ((one_le_div hradius).2 hle))
  have hinverse : p.inverseMass = q.inverseMass := by
    rw [Particle.inverseMass, hmass, Particle.inverseMass]
  have hbetween : accelerationBetween began layout dt params density index =
      fun other => Fluid.pushAt v q.position density other.toUInt32 * q.inverseMass := by
    funext other
    rw [accelerationBetween, hq]
    rfl
  have hindex : index < began.particles.size := (Array.getElem?_eq_some_iff.1 hq).1
  have hown : v.index.toNat < began.particles.size :=
    (toNat_toUInt32 (Nat.lt_of_lt_of_le hindex h.few)).symm ▸ hindex
  have hpos : 0 < p.mass := hmass ▸ h.pos hq
  have hrun := Fluid.run_accelerate (v := v) site ⟨p, table, #[]⟩ hpos (hread hown)
    (hplace ▸ hnear) fun j hj => by
      obtain ⟨r, hr⟩ := hothers j hj
      exact ⟨⟨r, hr⟩, hread (Array.getElem?_eq_some_iff.1 hr).1⟩
  refine (congrArg (fun result => result.2.particle) hrun).trans ?_
  dsimp only
  rw [hbetween, hplace, hinverse, hsum _ fun other r hr _ hle => hfar other r hr hle, Vec2.sum_mul]
  rfl

/-- The accelerations of two particles by each other cancel out. -/
theorem accelerationBetween_reverse (h : Weighty began current) (density : UInt32 → K) {i j : Nat}
    {p q : Particle K} (hp : began.particles[i]? = some p) (hq : began.particles[j]? = some q)
    (hne : i ≠ j) :
    accelerationBetween began layout dt params density i j * p.mass +
      accelerationBetween began layout dt params density j i * q.mass = 0 := by
  let pass := began.passOf layout .apply dt ⟨Fluid.module, params⟩
  have hparams : (pass.view j).params = (pass.view i).params := rfl
  rw [accelerationBetween, accelerationBetween, hp, hq, Option.elim_some, Option.elim_some,
    Particle.mul_inverseMass_mul_mass (h.pos hp), Particle.mul_inverseMass_mul_mass (h.pos hq),
    Fluid.pushAt, Fluid.pushAt, h.other_view layout .apply dt _ i hq,
    h.other_view layout .apply dt _ j hp]
  exact Fluid.push_reverse hparams (h.toUInt32_ne hp hq hne) _ _

/-- **A turn of the fluid adds no net force.** -/
theorem fluid_conserve [IsStrictOrderedRing K] (h : Weighty began current)
    (hradius : 0 < params.get Fluid.influenceRadius)
    (hfinds : FindsCloser began.grid.query began.particles fun _ =>
      params.get Fluid.influenceRadius)
    (hfield : ⟨(Fluid.module : Module K).name, Fluid.densityField⟩ ∈ layout.fields)
    (hfits : current.table.Fits layout current.particles.size)
    (hplaces : current.particles.map Particle.position = began.particles.map Particle.position) :
    let after := (began.passOf layout .apply dt ⟨Fluid.module, params⟩).turn current
    Weighty began after ∧
      weighted Particle.acceleration after.particles =
        weighted Particle.acceleration current.particles := by
  let pass := began.passOf layout .apply dt ⟨Fluid.module, params⟩
  obtain ⟨slot, hslot, -⟩ := ScratchLayout.exists_slot hfield
  have hplace : layout.slotAt? (.field ⟨(Fluid.module : Module K).name, Fluid.densityField⟩) =
      some slot := hslot
  let density (j : UInt32) : K := (current.table.get? j.toNat slot).getD 0
  have hdensity (index : Nat) (j : UInt32) (hj : j.toNat < began.particles.size) :
      (pass.moment current index).table.get? j.toNat slot = some (density j) := by
    obtain ⟨value, hvalue⟩ := hfits.exists_get? hplace (h.size_eq ▸ hj)
    have hsame : density j = value := congrArg (·.getD 0) hvalue
    rw [pass.get?_table_moment fun _ => Fluid.staysIn_accelerate, hvalue, hsame]
  refine h.weighted_turn pass Particle.acceleration
    (accelerationBetween began layout dt params density) (fun index p q hp hq hmass => ?_)
    fun i j p q hp hq hne => h.accelerationBetween_reverse density hp hq hne
  -- no one has moved, so a call finds its particle where it was when the pass began
  obtain ⟨q', hq', hunmoved⟩ := exists_of_map_eq hplaces hp
  obtain rfl := Option.some.inj (hq.symm.trans hq')
  rw [h.particle_call_fluid hradius hfinds hslot (hdensity index) hq hunmoved hmass]
  exact ⟨rfl, rfl⟩

end Weighty

/-- **Action and reaction in the turns of the pair forces.** Read exactly, with any functions for
square roots, cosines and sines, all masses positive, and an index that finds whoever is closer than
what it is asked for:

* if no particle is larger than the collisions expect, their turn in a constrain pass keeps the sum
  of all masses times positions and that of all masses times velocities;
* the turn of the joints in a constrain pass, whatever they join, keeps the sum of all masses times
  positions;
* if its radius of influence is positive, the densities are there and no one has moved since the
  apply pass began, the turn of the fluid adds to the accelerations what sums up to nothing when
  weighed with the masses.

None of them changes a mass, so that the turns can follow each other. -/
theorem turns_conserve [IsStrictOrderedRing K] (h : Weighty began current) (layout : ScratchLayout)
    (dt : K) :
    (∀ params : ParamBag K,
      FindsCloser began.grid.query began.particles
        (fun p => p.size + params.get Collisions.maxRadius) →
      (∀ p ∈ began.particles, p.size ≤ params.get Collisions.maxRadius) →
      let after := (began.passOf layout .constrain dt ⟨Collisions.module, params⟩).turn current
      Weighty began after ∧
        weighted Particle.position after.particles =
          weighted Particle.position current.particles ∧
        weighted Particle.velocity after.particles =
          weighted Particle.velocity current.particles) ∧
    (∀ params : ParamBag K,
      let after := (began.passOf layout .constrain dt ⟨Joints.module, params⟩).turn current
      Weighty began after ∧
        weighted Particle.position after.particles =
          weighted Particle.position current.particles) ∧
    (∀ params : ParamBag K, 0 < params.get Fluid.influenceRadius →
      FindsCloser began.grid.query began.particles
        (fun _ => params.get Fluid.influenceRadius) →
      ⟨(Fluid.module : Module K).name, Fluid.densityField⟩ ∈ layout.fields →
      current.table.Fits layout current.particles.size →
      current.particles.map Particle.position = began.particles.map Particle.position →
      let after := (began.passOf layout .apply dt ⟨Fluid.module, params⟩).turn current
      Weighty began after ∧
        weighted Particle.acceleration after.particles =
          weighted Particle.acceleration current.particles) :=
  ⟨fun _ hfinds hsizes => h.collisions_conserve hfinds hsizes, fun _ => h.joints_conserve,
    fun _ hradius hfinds hfield hfits hplaces =>
      h.fluid_conserve hradius hfinds hfield hfits hplaces⟩

/-- Two particles one length unit apart, each larger than that, and approaching each other. -/
def overlapping : Array (Particle ℚ) :=
  #[⟨0, ⟨0, 0⟩, ⟨3, 0⟩, ⟨0, 0⟩, 2, 1, ⟨1, 1, 1, 1⟩⟩, ⟨1, ⟨1, 0⟩, ⟨0, 0⟩, ⟨0, 0⟩, 2, 2, ⟨1, 1, 1, 1⟩⟩]

/-- An overlapping pair keeps its centre of mass and its momentum. -/
theorem turns_conserve_overlapping :
    letI := BucketGrid.rationalCurves
    ∃ grid, (BucketGrid.ofBounds (⟨⟨0, 0⟩, 1, 1, 1⟩ : Bounds ℚ)).build overlapping = .ok grid ∧
      let layout : ScratchLayout := ⟨[⟨"fluid", "density"⟩]⟩
      let scene : Scene ℚ := ⟨overlapping, grid, (Table.create layout.stride).resize 2, {}⟩
      let collided := (scene.passOf layout .constrain 1
        ⟨Collisions.module, ⟨true, #[.scalar 1, .scalar 2]⟩⟩).turn scene
      let pulled := (scene.passOf layout .constrain 1
        ⟨Joints.module, ⟨true, #[.scalar 1, .scalar 1, .array #[0], .array #[1],
          .array #[4]]⟩⟩).turn scene
      let pressed := (scene.passOf layout .apply 1
        ⟨Fluid.module, ⟨true, #[.scalar 4, .scalar 1, .scalar 5]⟩⟩).turn scene
      weighted Particle.position collided.particles = ⟨2, 0⟩ ∧
        weighted Particle.velocity collided.particles = ⟨3, 0⟩ ∧
        weighted Particle.position pulled.particles = ⟨2, 0⟩ ∧
        weighted Particle.acceleration pressed.particles = 0 := by
  let := BucketGrid.rationalCurves
  have hallocate : BucketGrid.allocate (⟨⟨0, 0⟩, 1, 1, 1⟩ : Bounds ℚ) =
      .ok (BucketGrid.ofBounds ⟨⟨0, 0⟩, 1, 1, 1⟩) := rfl
  have hfew : overlapping.size ≤ 2 ^ 32 := by decide
  obtain ⟨grid, hbuild, -⟩ := BucketGrid.exists_build (BucketGrid.tidy_of_allocate hallocate)
    ⟨by decide, by decide, by decide, by decide⟩ hfew
  have hclose : ∀ p ∈ overlapping, ∀ q ∈ overlapping,
      q.position.distanceSquared p.position ≤ 1 ∧ p.size = 2 ∧ 0 < p.mass := by decide +kernel
  have hfinds {radius : Particle ℚ → ℚ} (hradius : ∀ p ∈ overlapping, radius p = 4) :
      FindsCloser grid.query overlapping radius := by
    refine .of_build (.allocate hallocate) one_pos (by decide) (by decide) (by decide) hbuild
      (fun p hp => ?_) fun p hp q hq _ => ?_
    · rw [hradius p hp]
      norm_num
    · rw [hradius p hp]
      exact (hclose p hp q hq).1.trans (by norm_num)
  have hbefore : weighted Particle.position overlapping = ⟨2, 0⟩ ∧
      weighted Particle.velocity overlapping = ⟨3, 0⟩ ∧
      weighted Particle.acceleration overlapping = 0 := by decide +kernel
  let scene : Scene ℚ := ⟨overlapping, grid, (Table.create 5).resize 2, {}⟩
  have hweighty : Weighty scene scene := ⟨hfew, fun p hp => (hclose p hp p hp).2.2, rfl⟩
  obtain ⟨hcollisions, hjoints, hfluid⟩ :=
    turns_conserve hweighty ⟨[⟨"fluid", "density"⟩]⟩ 1
  have hsize (p : Particle ℚ) (hp : p ∈ overlapping) : p.size = 2 := (hclose p hp p hp).2.1
  have hreach (p : Particle ℚ) (hp : p ∈ overlapping) : p.size + 2 = 4 := by
    rw [hsize p hp]
    norm_num
  obtain ⟨-, hposition, hvelocity⟩ :=
    hcollisions ⟨true, #[.scalar 1, .scalar 2]⟩ (hfinds hreach) fun p hp => (hsize p hp).le
  obtain ⟨-, hpulled⟩ := hjoints
    ⟨true, #[.scalar 1, .scalar 1, .array #[0], .array #[1], .array #[4]]⟩
  obtain ⟨-, hpressed⟩ := hfluid ⟨true, #[.scalar 4, .scalar 1, .scalar 5]⟩ (by decide +kernel)
    (hfinds fun _ _ => rfl) (by decide) ⟨Table.hasRows_resize (by decide) 2, rfl⟩ rfl
  exact ⟨grid, hbuild, hposition.trans hbefore.1, hvelocity.trans hbefore.2.1,
    hpulled.trans hbefore.1, hpressed.trans hbefore.2.2⟩

end Scene

end ParticleDynamics
