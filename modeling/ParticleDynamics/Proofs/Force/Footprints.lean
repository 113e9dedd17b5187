import ParticleDynamics.Force.Standard
import ParticleDynamics.Proofs.Module.Footprint

/-!
# What the standard modules touch

The fluid is the only standard module that writes to the scratch table. It does so in the state
phase, in the row of the particle it is called for, and reads nothing from the table in that phase.
All other calls of standard modules read at most. So in every phase the calls of a standard module
for different particles are clear of each other (`Module.keepsApart_of_mem_standard`).
-/

namespace ParticleDynamics

variable {α : Type} [Scalar α] {v : View α} {site : Procedure.Site} {f : Footprint}

open Procedure

/-! ## Modules that leave the table alone -/

theorem Environment.staysIn_run (phase : Phase) : (module.run phase v).StaysIn site f := by
  cases phase with
  | state => trivial
  | apply => exact .update _
  | constrain => trivial
  | correct => trivial

theorem Boundary.staysIn_run (phase : Phase) : (module.run phase v).StaysIn site f := by
  refine StaysIn.self.bind fun me => ?_
  split
  next => trivial
  next =>
    cases phase with
    | state => trivial
    | apply => trivial
    | constrain => exact .update _
    | correct => exact .update _

theorem Collisions.staysIn_separate : (separate v).StaysIn site f := by
  rw [separate]
  split
  next => trivial
  next me hme =>
    split
    next => trivial
    next => exact (StaysIn.sound _).bind fun near => .update _

theorem Joints.staysIn_pull : (pull v).StaysIn site f := by
  rw [pull]
  split
  next => trivial
  next me hme =>
    split
    next => trivial
    next => exact .update _

/-! ## Modules that read the table -/

theorem Collisions.staysIn_settle : (settle v).StaysIn site .readOnly := by
  refine StaysIn.self.bind fun me => ?_
  split
  next => trivial
  next =>
    refine (StaysIn.readPair trivial trivial).bind fun post => ?_
    dsimp only
    split
    next => trivial
    next =>
      split
      next => exact .update _
      next => trivial

theorem Collisions.staysIn_run (phase : Phase) : (module.run phase v).StaysIn site .readOnly := by
  cases phase with
  | state => trivial
  | apply => trivial
  | constrain => exact staysIn_separate
  | correct => exact staysIn_settle

theorem Joints.staysIn_follow : (follow v).StaysIn site .readOnly := by
  refine StaysIn.self.bind fun me => ?_
  split
  next => trivial
  next =>
    split
    next => exact (StaysIn.readPair trivial trivial).bind fun post => .update _
    next => trivial

theorem Joints.staysIn_run (phase : Phase) : (module.run phase v).StaysIn site .readOnly := by
  cases phase with
  | state => trivial
  | apply => trivial
  | constrain => exact staysIn_pull
  | correct => exact staysIn_follow

/-! ## The fluid -/

theorem Fluid.staysIn_addPressure (position : Vec2 α) (own : α) (force : Vec2 α) (j : UInt32) :
    (addPressure v position own force j).StaysIn site .readOnly := by
  rw [addPressure]
  dsimp only
  split
  next => trivial
  next other hother =>
    split
    next => trivial
    next => exact (StaysIn.fieldOf fun _ _ => trivial).bind fun density => trivial

theorem Fluid.staysIn_accelerate : (accelerate v).StaysIn site .readOnly := by
  refine StaysIn.self.bind fun me => ?_
  split
  next => trivial
  next =>
    refine (StaysIn.fieldOf fun _ _ => trivial).bind fun density => ?_
    refine (StaysIn.neighbors v _).bind fun near => ?_
    exact (StaysIn.foldlM (staysIn_addPressure me.position _) _ _).bind fun force => .update _

/-- The density goes into the row of the particle. -/
theorem Fluid.staysIn_storeDensity : (storeDensity v).StaysIn site (.writeRow v.index) := by
  -- the neighbours are looked up in the view, so that only the last operation is left
  refine StaysIn.self.bind fun me => ?_
  refine (StaysIn.neighbors v _).bind fun near => ?_
  exact .setFieldOf (fun _ _ => rfl) _

theorem Fluid.keepsApart (phase : Phase) (layout : ScratchLayout) :
    (module : Module α).KeepsApart phase layout := by
  cases phase with
  | state => exact Module.keepsApart_of_writeRow fun _ _ => staysIn_storeDensity
  | apply => exact Module.keepsApart_of_readOnly fun _ _ => staysIn_accelerate
  | constrain => exact Module.keepsApart_of_readOnly fun _ _ => trivial
  | correct => exact Module.keepsApart_of_readOnly fun _ _ => trivial

/-! ## All of them -/

/-- **The calls of a standard module are clear of each other**, in every phase and wherever fields
are kept. Only the fluid writes in the table, in the row of the particle it is called for, and in a
phase in which it reads nothing there. -/
theorem Module.keepsApart_of_mem_standard {m : Module α} (hm : m ∈ standard) (phase : Phase)
    (layout : ScratchLayout) : m.KeepsApart phase layout := by
  simp only [standard, List.mem_cons, List.not_mem_nil, or_false] at hm
  rcases hm with rfl | rfl | rfl | rfl | rfl | rfl
  · exact keepsApart_of_readOnly fun _ _ => Environment.staysIn_run phase
  · exact Fluid.keepsApart phase layout
  · exact keepsApart_of_readOnly fun _ _ => Boundary.staysIn_run phase
  · exact keepsApart_of_readOnly fun _ _ => Collisions.staysIn_run phase
  · exact keepsApart_of_readOnly fun _ _ => Joints.staysIn_run phase
  · exact keepsApart_of_readOnly fun _ _ => trivial

end ParticleDynamics
