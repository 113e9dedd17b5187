import ParticleDynamics.Force.Standard
import ParticleDynamics.Pipeline.Integration
import ParticleDynamics.Proofs.Module.Records
import ParticleDynamics.Proofs.Single.Order

/-!
# What the standard modules do to a pinned particle

No standard module changes the mass of a particle. A pinned particle they leave as it is, except
that in the apply phase it may be given an acceleration (`Module.sparesPinned_of_mem_standard`).

The modules find out in different ways that a particle is pinned. Some look at the particle itself,
others at how it was when the pass began, and these find it pinned only if it was so then. Both ways
come to the same when no mass changes in between, but neither is good enough alone.
-/

namespace ParticleDynamics

variable {α : Type} [Scalar α]

namespace Particle

/-- The particle without any motion. -/
def atRest (p : Particle α) : Particle α := { p with velocity := 0, acceleration := 0 }

/-- What may become of a pinned particle in a phase: it may get another acceleration in the apply
phase, and nothing else. -/
structure Spared (phase : Phase) (p q : Particle α) : Prop where
  but_acceleration : q = { p with acceleration := q.acceleration }
  acceleration_eq : phase ≠ .apply → q.acceleration = p.acceleration

/-- What may become of a particle that a module is called for with a view: its mass stays, and if it
is pinned and was pinned when the pass began, it is spared. -/
structure Kept (phase : Phase) (v : View α) (p q : Particle α) : Prop where
  mass_eq : q.mass = p.mass
  spared : p.isPinned = true → (v.other v.index).any isPinned = true → p.Spared phase q

/-- Whoever is pinned counts as infinitely heavy. -/
def Immovable (α : Type) [Scalar α] : Prop :=
  ∀ p : Particle α, p.isPinned = true → (p.inverseMass == 0) = true

/-- A pinned particle of machine numbers has no inverse mass. -/
theorem immovable_single : Immovable Single := by
  intro p hpinned
  rw [isPinned, decide_eq_true_eq] at hpinned
  rw [inverseMass, if_neg (Single.lt_asymm hpinned)]
  decide

/-- A pinned particle of machine numbers is alive. -/
theorem isAlive_of_isPinned {p : Particle Single} (hpinned : p.isPinned = true) :
    p.isAlive = true := by
  rw [isPinned, decide_eq_true_eq] at hpinned
  exact Single.bne_of_lt hpinned

omit [Scalar α] in
theorem Spared.refl (phase : Phase) (p : Particle α) : p.Spared phase p := ⟨rfl, fun _ => rfl⟩

omit [Scalar α] in
theorem Spared.eq {phase : Phase} {p q : Particle α} (h : p.Spared phase q) (hphase : phase ≠ .apply) :
    q = p := by
  rw [h.but_acceleration, h.acceleration_eq hphase]

variable {phase : Phase} {v : View α} {p q me : Particle α}

theorem Kept.refl : p.Kept phase v p := ⟨rfl, fun _ _ => .refl phase p⟩

/-- Nothing has to be spared of a particle that is not pinned. -/
theorem Kept.of_not_pinned (h : ¬ p.isPinned = true) (hmass : q.mass = p.mass) : p.Kept phase v q :=
  ⟨hmass, fun hpinned => absurd hpinned h⟩

/-- Nothing has to be spared of a particle that was not immovable when the pass began. -/
theorem Kept.of_movable (hα : Immovable α) (hme : v.other v.index = some me)
    (h : ¬ (me.inverseMass == 0) = true) (hmass : q.mass = p.mass) : p.Kept phase v q := by
  refine ⟨hmass, fun _ hpinned => absurd (hα me ?_) h⟩
  rwa [hme, Option.any_some] at hpinned

/-- In the apply phase a particle may be given an acceleration. -/
theorem Kept.of_acceleration {acceleration : Vec2 α} :
    p.Kept .apply v { p with acceleration := acceleration } :=
  ⟨rfl, fun _ _ => ⟨rfl, fun h => absurd rfl h⟩⟩

end Particle

/-- A module that keeps all masses and spares the pinned, whatever it is called with. -/
def Module.SparesPinned (m : Module α) : Prop :=
  ∀ (phase : Phase) (v : View α) (p : Particle α), (m.run phase v).Leaves (p.Kept phase v) p

/-- What a call of such a module leaves. -/
theorem Module.SparesPinned.kept {m : Module α} (h : m.SparesPinned) (phase : Phase) (v : View α)
    (site : Procedure.Site) (reach : Procedure.Reach α) :
    reach.particle.Kept phase v ((m.run phase v).run site reach).2.particle :=
  (h phase v reach.particle).run site

open Procedure Particle

/-! ## Module by module -/

theorem Environment.sparesPinned : (module : Module α).SparesPinned := by
  intro phase v p
  cases phase with
  | state => exact .refl
  | apply => exact .of_acceleration
  | constrain => exact .refl
  | correct => exact .refl

theorem Boundary.sparesPinned : (module : Module α).SparesPinned := by
  intro phase v p
  change (if p.isPinned then _ else _ : Procedure α Unit).Leaves _ p
  split
  next => exact .refl
  next hfree =>
    cases phase with
    | state => exact .refl
    | apply => exact .refl
    | constrain => exact .of_not_pinned hfree rfl
    | correct => exact .of_not_pinned hfree rfl

theorem Fluid.silent_addPressure {v : View α} (position : Vec2 α) (own : α) (force : Vec2 α)
    (j : UInt32) : (addPressure v position own force j).Silent := by
  rw [addPressure]
  dsimp only
  split
  next => exact fun _ => rfl
  next other hother =>
    split
    next => exact fun _ => rfl
    next => exact (Silent.fieldOf _ _).bind fun density _ => rfl

theorem Fluid.silent_storeDensity (v : View α) : (storeDensity v).Silent :=
  Silent.self.bind fun _ => (Silent.neighbors v _).bind fun _ => .setFieldOf _ _ _

theorem Fluid.leaves_accelerate (v : View α) (p : Particle α) :
    (accelerate v).Leaves (p.Kept .apply v) p := by
  change (if p.inverseMass == 0 then _ else _ : Procedure α Unit).Leaves _ p
  split
  next => exact .refl
  next =>
    refine (Silent.fieldOf _ _).leaves_bind .refl fun density => ?_
    refine (Silent.neighbors v _).leaves_bind .refl fun near => ?_
    refine (Silent.foldlM (silent_addPressure _ _) _ _).leaves_bind .refl fun force => ?_
    exact .of_acceleration

theorem Fluid.sparesPinned : (module : Module α).SparesPinned := by
  intro phase v p
  cases phase with
  | state => exact (silent_storeDensity v p).mono fun q hq => hq ▸ .refl
  | apply => exact leaves_accelerate v p
  | constrain => exact .refl
  | correct => exact .refl

theorem Collisions.leaves_separate (hα : Immovable α) (phase : Phase) (v : View α) (p : Particle α) :
    (separate v).Leaves (p.Kept phase v) p := by
  rw [separate]
  split
  next => exact .refl
  next me hme =>
    split
    next => exact .refl
    next hmovable =>
      refine (Silent.sound _).leaves_bind .refl fun near => ?_
      exact .of_movable hα hme hmovable rfl

theorem Collisions.leaves_settle (phase : Phase) (v : View α) (p : Particle α) :
    (settle v).Leaves (p.Kept phase v) p := by
  change (if p.isPinned then _ else _ : Procedure α Unit).Leaves _ p
  split
  next => exact .refl
  next hfree =>
    refine (Silent.readPair _ _ _).leaves_bind .refl fun post => ?_
    dsimp only
    split
    next => exact .refl
    next =>
      split
      next => exact .of_not_pinned hfree rfl
      next => exact .refl

theorem Collisions.sparesPinned (hα : Immovable α) : (module : Module α).SparesPinned := by
  intro phase v p
  cases phase with
  | state => exact .refl
  | apply => exact .refl
  | constrain => exact leaves_separate hα .constrain v p
  | correct => exact leaves_settle .correct v p

theorem Joints.leaves_pull (hα : Immovable α) (phase : Phase) (v : View α) (p : Particle α) :
    (pull v).Leaves (p.Kept phase v) p := by
  rw [pull]
  split
  next => exact .refl
  next me hme =>
    split
    next => exact .refl
    next hmovable => exact .of_movable hα hme hmovable rfl

theorem Joints.leaves_follow (phase : Phase) (v : View α) (p : Particle α) :
    (follow v).Leaves (p.Kept phase v) p := by
  change (if p.isPinned ∨ v.dt ≤ 0 then _ else _ : Procedure α Unit).Leaves _ p
  split
  next => exact .refl
  next hfree =>
    split
    next =>
      refine (Silent.readPair _ _ _).leaves_bind .refl fun post => ?_
      exact .of_not_pinned (fun hpinned => hfree (.inl hpinned)) rfl
    next => exact .refl

theorem Joints.sparesPinned (hα : Immovable α) : (module : Module α).SparesPinned := by
  intro phase v p
  cases phase with
  | state => exact .refl
  | apply => exact .refl
  | constrain => exact leaves_pull hα .constrain v p
  | correct => exact leaves_follow .correct v p

/-! ## All of them -/

/-- **The standard modules keep all masses and spare the pinned**, if these count as infinitely
heavy. What the apply phase may add to their accelerations comes to nothing, because the integration
passes over them. -/
theorem Module.sparesPinned_of_mem_standard (hα : Immovable α) {m : Module α}
    (hm : m ∈ standard) : m.SparesPinned := by
  simp only [standard, List.mem_cons, List.not_mem_nil, or_false] at hm
  rcases hm with rfl | rfl | rfl | rfl | rfl | rfl
  · exact Environment.sparesPinned
  · exact Fluid.sparesPinned
  · exact Boundary.sparesPinned
  · exact Collisions.sparesPinned hα
  · exact Joints.sparesPinned hα
  · exact fun _ _ _ => .refl

end ParticleDynamics
