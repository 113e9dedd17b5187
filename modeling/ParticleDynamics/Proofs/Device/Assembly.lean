import ParticleDynamics.Device.Simulation
import ParticleDynamics.Proofs.Block.Table
import ParticleDynamics.Proofs.Device.Buffers

/-!
# The buffers of a new simulation

There is one buffer for each binding with a use (`Simulation.map_fst_buffers`). These are all
different (`Simulation.nodup_buffers`), and the first ones are those of the program. Each buffer
therefore has the size it was given and holds zeros (`Simulation.buffer_assemble`), and what the
modules may write to is none of the buffers of the program (`Simulation.firstBinding_le`).
-/

namespace ParticleDynamics

namespace FixedBinding

/-- All bindings of the program are listed. -/
theorem mem_all (binding : FixedBinding) : binding ∈ all := by
  cases binding <;> decide

end FixedBinding

namespace Device

namespace Memory

variable {m : Memory} {place : Place} {entries : List (Nat × Nat)}

/-- Allocating buffers leaves those alone that stand elsewhere. -/
theorem buffer_foldl_allocate_of_notMem
    (h : ∀ entry ∈ entries, Place.bound entry.1 ≠ place) :
    (entries.foldl (fun (m : Memory) entry => m.allocate (.bound entry.1) entry.2) m).buffer place =
      m.buffer place := by
  induction entries generalizing m with
  | nil => rfl
  | cons entry rest ih =>
    obtain ⟨hfirst, hlater⟩ := List.forall_mem_cons.1 h
    exact (ih hlater).trans (buffer_allocate_ne hfirst)

/-- **Under a binding that is allocated once there is the buffer that was allocated.** Allocating
under another binding does not touch it, and its own binding does not come a second time. -/
theorem buffer_foldl_allocate (hnodup : (entries.map Prod.fst).Nodup) {binding words : Nat}
    (hmem : (binding, words) ∈ entries) :
    (entries.foldl (fun (m : Memory) entry => m.allocate (.bound entry.1) entry.2) m).buffer
      (.bound binding) = { size := words } := by
  induction entries generalizing m with
  | nil => cases hmem
  | cons entry rest ih =>
    obtain ⟨hfresh, hrest⟩ := List.nodup_cons.1 hnodup
    rcases List.mem_cons.1 hmem with rfl | hmem
    · have hlater : ∀ entry ∈ rest, Place.bound entry.1 ≠ .bound binding :=
        fun entry hentry hsame =>
          hfresh (List.mem_map.2 ⟨entry, hentry, Place.bound.inj hsame⟩)
      exact (buffer_foldl_allocate_of_notMem hlater).trans (buffer_allocate_self ..)
    · exact ih hrest hmem

end Memory

/-- The buffers of the modules stand under the bindings of the modules. -/
theorem map_fst_moduleBuffers (bindings : BindingTable) (capacity : Nat) :
    (moduleBuffers bindings capacity).map Prod.fst = bindings.blocks.flatMap Block.bindings := by
  simp only [moduleBuffers, List.map_flatMap, List.map_cons, List.map_map, Function.comp_def]
  rfl

/-- The modules have a buffer for each of their bindings. -/
theorem map_fst_flatMap_uses (bindings : BindingTable) (capacity : Nat) :
    (bindings.blocks.flatMap Block.uses).map Prod.fst =
      (moduleBuffers bindings capacity).map Prod.fst := by
  rw [map_fst_moduleBuffers, List.map_flatMap]
  exact List.flatMap_congr fun b _ => b.map_fst_uses

namespace Simulation

variable {registry : Registry Single} {settings : Settings Single} {program : Program}

/-- **There is one buffer for each binding with a use.** -/
theorem map_fst_buffers (program : Program) (settings : Settings Single) :
    (buffers program settings).map Prod.fst = program.bindings.uses.map Prod.fst := by
  rw [buffers, BindingTable.uses, List.map_append, List.map_append,
    map_fst_flatMap_uses program.bindings (room settings)]
  rfl

/-- **No two buffers stand under one binding.** A second buffer would hide the first one, and with
it what was written there. -/
theorem nodup_buffers (hbuild : Program.build settings.workgroupSize registry = .ok program) :
    ((buffers program settings).map Prod.fst).Nodup := by
  rw [map_fst_buffers, (Program.layout_of_build hbuild).1, Registry.bindings,
    BindingTable.map_fst_uses]
  exact List.nodup_range

/-- What the modules write to is none of the buffers of the program. -/
theorem firstBinding_le (hbuild : Program.build settings.workgroupSize registry = .ok program)
    {capacity binding words : Nat}
    (h : (moduleBuffers program.bindings capacity).lookup binding = some words) :
    firstBinding ≤ binding := by
  have hmem : binding ∈ (moduleBuffers program.bindings capacity).map Prod.fst := by
    obtain ⟨before, after, hbuffers, -⟩ := List.lookup_eq_some_iff.1 h
    simp [hbuffers]
  rw [map_fst_moduleBuffers, (Program.layout_of_build hbuild).1, Registry.bindings,
    BindingTable.bindings_build] at hmem
  exact (List.mem_range'_1.1 hmem).1

/-- **A buffer of the program starts out with its size and with zeros**, but for the shape of the
neighbour index. The shape is all that is written while a simulation is assembled, and it has a
buffer of its own. -/
theorem buffer_assemble (hbuild : Program.build settings.workgroupSize registry = .ok program)
    (camera : Camera Single) {binding : FixedBinding} (hgrid : binding ≠ .grid) :
    (assemble program settings camera).memory.buffer (.bound binding.number) =
      { size := fixedWords (room settings) program.scratch.stride
          (max settings.deviceGridCells 1).toNat (max settings.maxPerCell 1).toNat binding } := by
  have hplace : Place.bound FixedBinding.grid.number ≠ .bound binding.number := by
    cases binding <;> simp [FixedBinding.number] at hgrid ⊢
  rw [assemble, Memory.buffer_modify_ne _ _ hplace]
  refine Memory.buffer_foldl_allocate (nodup_buffers hbuild) ?_
  exact List.mem_append_left _ (List.mem_map_of_mem (FixedBinding.mem_all binding))

end Simulation

end Device

end ParticleDynamics
