import ParticleDynamics.Force.Collisions
import ParticleDynamics.Proofs.Force.Confinement
import ParticleDynamics.Proofs.Pipeline.Deaths

/-!
# Confined particles

What the constraints leave of the particles is decided by the last module that takes part in them:
the last pass of constraints ends with its turn (`Scene.runPhase_of_last`), and whoever is alive
after a turn was alive when it began (`Pass.exists_of_getElem?_turn`). With walls that form a box in
that place, the correct pass begins with every live particle inside its allowed box, unless it is
pinned, however many passes there were and whatever happened before (`Pipeline.step_confines`).
-/

namespace ParticleDynamics

variable {α : Type} [Scalar α]

namespace Boundary

/-- **What the constrain phase of the walls leaves of a particle.** -/
theorem particle_run_constrain (v : View α) (site : Procedure.Site) (reach : Procedure.Reach α) :
    ((run .constrain v).run site reach).2.particle =
      if reach.particle.isPinned then reach.particle
      else { reach.particle with
        position :=
          (Walls.ofParams v.params).project reach.particle.position reach.particle.size } := by
  have hrun : run .constrain v =
      .read fun me => if me.isPinned then .done () else confine v := rfl
  rw [hrun, Procedure.run_read]
  split
  · rfl
  · rfl

end Boundary

namespace Pass

variable {pass : Pass α}

/-- A turn leaves the dead alone. -/
theorem sparesDead_turn (scene : Scene α) : scene.SparesDead (pass.turn scene) :=
  moment_induction (motive := fun _ current => scene.SparesDead current) (.refl scene)
    (fun failed current index ih => ih.trans (Scene.sparesDead_visit pass failed current index))
    scene.particles.size

/-- **Whoever is alive after a turn was alive when it began**, and is what its call left. The dead
are passed over, and no one comes back to life who was not called. -/
theorem exists_of_getElem?_turn {scene : Scene α} {index : Nat} {q : Particle α}
    (hq : (pass.turn scene).particles[index]? = some q) (halive : q.isAlive = true) :
    ∃ p table, scene.particles[index]? = some p ∧ q = (pass.call index p table).2.particle := by
  have hspares : scene.SparesDead (pass.turn scene) := sparesDead_turn scene
  have hlive : Particle.isLiveAt scene.particles index = true := by
    rw [← Bool.not_eq_false]
    intro hdead
    have hafter := hspares.isLiveAt_eq_false hdead
    rw [Particle.isLiveAt, hq, Option.any_some, halive] at hafter
    cases hafter
  obtain ⟨p, hp, halive'⟩ := (Option.any_eq_true ..).1 hlive
  exact ⟨p, _, hp, Option.some.inj (hq.symm.trans (getElem?_turn scene hp halive'))⟩

end Pass

namespace Scene

variable {registry : Registry α} {layout : ScratchLayout} {phase : Phase} {dt : α}

/-- **A pass ends with the turn of the last module that takes part.** What the modules before it did
is somewhere in the scene that its turn begins with, and may be anything. -/
theorem runPhase_of_last {entry : Entry α}
    (hlast : (registry.entries.toList.filter (takesPart phase)).getLast? = some entry)
    (began : Scene α) :
    ∃ current, began.runPhase registry layout phase dt =
      (began.passOf layout phase dt entry).turn current := by
  obtain ⟨earlier, hsplit⟩ := List.getLast?_eq_some_iff.1 hlast
  rw [runPhase, hsplit, List.foldl_append]
  exact ⟨_, rfl⟩

/-- Where there is a pass of constraints, there is a last one. -/
theorem Relaxes.exists_last {scene last : Scene α} {course : List (Scene α)}
    (h : Relaxes registry layout dt scene course last) (hpasses : 0 < course.length) :
    ∃ began : Scene α, last = began.runPhase registry layout .constrain dt := by
  induction h with
  | rest scene => cases hpasses
  | @pass scene began last later hbegan hlater ih =>
    cases hlater with
    | rest => exact ⟨began, rfl⟩
    | pass => exact ih (Nat.succ_pos _)

end Scene

namespace Pipeline

open Boundary

variable {p : Pipeline Single} {store : Store Single} {registry : Registry Single} {dt : Single}
  {params : ParamBag Single}

/-- **The correct pass begins with confined particles.** Rebuilding the index moves no one, so they
are as the last pass of constraints has left them. -/
theorem Course.inside_correct (course : Course p store registry dt)
    (hlast : (registry.entries.toList.filter (Scene.takesPart .constrain)).getLast? =
      some ⟨Boundary.module, params⟩)
    (hbox : (Walls.ofParams params).circle = false) (hpasses : 0 < p.iterations.toNat) :
    ∀ q ∈ course.correct.particles, q.isAlive = true → q.isPinned = false →
      (Walls.ofParams params).HasBox q.size → (Walls.ofParams params).Inside q.size q.position := by
  intro q hq halive hfree hsize
  obtain ⟨began, hbegan⟩ := course.relaxes.exists_last (course.length_constrain ▸ hpasses)
  obtain ⟨current, hturn⟩ : ∃ current, began.runPhase registry registry.scratch .constrain dt =
      (began.passOf registry.scratch .constrain dt ⟨Boundary.module, params⟩).turn current :=
    Scene.runPhase_of_last hlast began
  rw [Scene.particles_of_rebuild course.rebuild_relaxed, hbegan, hturn] at hq
  obtain ⟨index, hq⟩ := Array.mem_iff_getElem?.1 hq
  obtain ⟨before, table, -, rfl⟩ := Pass.exists_of_getElem?_turn hq halive
  -- what the walls have left of the particle is where they put it
  have hcall : (((began.passOf registry.scratch .constrain dt ⟨Boundary.module, params⟩).call index
      before table).2.particle) = _ := Boundary.particle_run_constrain ..
  rw [hcall] at hfree hsize ⊢
  by_cases hpinned : before.isPinned
  · rw [if_pos hpinned, hpinned] at hfree
    cases hfree
  · rw [if_neg hpinned] at hsize ⊢
    exact (Walls.confines hbox hsize).inside before.position

/-- **Box confinement.** Whatever the walls of a box, whichever way round, and however large the
particle, as long as the allowed box is bounded by numbers: the nearest allowed place is inside it,
for infinite positions and for those that are not a number as well; a place inside is left as it is;
and what has been moved is not moved again. So where such walls are the last module that takes part
in the constraints, and there is a pass of constraints, the correct pass of every step begins with
every live particle that is not pinned inside its allowed box. -/
theorem step_confines (p : Pipeline Single) (store : Store Single) (dt : Single)
    (hlast : (registry.entries.toList.filter (Scene.takesPart .constrain)).getLast? =
      some ⟨Boundary.module, params⟩)
    (hbox : (Walls.ofParams params).circle = false) (hpasses : 1 ≤ p.iterations.toNat) :
    (∀ (w : Walls Single) (size : Single), w.circle = false → w.HasBox size → w.Confines size) ∧
      ∀ stepped, p.step store registry dt = .ok stepped →
        ∃ course : Course p store registry dt, stepped = p.finish store course.last ∧
          ∀ q ∈ course.correct.particles, q.isAlive = true → q.isPinned = false →
            (Walls.ofParams params).HasBox q.size →
              (Walls.ofParams params).Inside q.size q.position := by
  refine ⟨fun w size hbox hsize => Walls.confines hbox hsize, fun stepped hstep => ?_⟩
  obtain ⟨course, hcourse⟩ := exists_course_finish hstep
  exact ⟨course, hcourse, course.inside_correct hlast hbox hpasses⟩

/-! ### Particles between inverted walls -/

/-- A particle far from the origin whose height is not a number, and one that overlaps another. -/
def stray : Store Single where
  particles := #[
    { (Birth.standard (α := Single)).withId 0 with position := ⟨-90.0, .undefined⟩ },
    (Birth.standard (α := Single)).withId 1,
    { (Birth.standard (α := Single)).withId 2 with position := ⟨0, 1⟩ }]
  issued := 3

/-- A box whose left wall is to the right of the right one. -/
def inverted : ParamBag Single :=
  ⟨true, #[.scalar 0, .scalar 5.0, .scalar (-5.0), .scalar (-5.0), .scalar 5.0, .scalar 500.0,
    .scalar 0.5, .scalar 0]⟩

/-- Collisions, and then the walls. -/
def walled : Registry Single where
  entries := #[⟨Collisions.module, ⟨true, #[.scalar 0.5, .scalar 10.0]⟩⟩,
    ⟨Boundary.module, inverted⟩]

/-- Two passes of constraints between these walls leave all three particles inside. -/
theorem step_confines_stray :
    (∀ q ∈ stray.particles, (Walls.ofParams inverted).HasBox q.size) ∧
    ∃ stepped, still.step stray walled 0 = .ok stepped ∧
      ∃ course : Course still stray walled 0, stepped = still.finish stray course.last ∧
        ∀ q ∈ course.correct.particles, q.isAlive = true → q.isPinned = false →
          (Walls.ofParams inverted).HasBox q.size →
            (Walls.ofParams inverted).Inside q.size q.position := by
  have hallocate : BucketGrid.allocate still.grid.bounds = .ok still.grid := rfl
  obtain ⟨stepped, hstep⟩ : ∃ stepped, still.step stray walled 0 = .ok stepped :=
    exists_step (.allocate hallocate) rfl ⟨by decide, by decide, by decide, by decide⟩
  have hlast : (walled.entries.toList.filter (Scene.takesPart .constrain)).getLast? =
      some ⟨Boundary.module, inverted⟩ := rfl
  obtain ⟨-, hconfines⟩ :=
    step_confines still stray 0 hlast (by decide +kernel) (by decide)
  exact ⟨by decide +kernel, stepped, hstep, hconfines stepped hstep⟩

end Pipeline

end ParticleDynamics
