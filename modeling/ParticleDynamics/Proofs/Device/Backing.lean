import ParticleDynamics.Proofs.Block.Table
import ParticleDynamics.Proofs.Device.Assembly
import ParticleDynamics.Proofs.Registry.Actions
import ParticleDynamics.Proofs.Scratch.Slots
import ParticleDynamics.Proofs.Shader.Mistakes

/-!
# A buffer for each binding

The program of a registry has a use for each binding up to the count of the registry's table, and
the device is given one buffer for each of them: as many words as the registers of a block have,
and one for each particle that there is room for under the binding of an array (`lookup_block`,
`lookup_array`). So a simulation is never refused because a buffer is missing
(`Simulation.create_ne_device`).

What a registry is laid out like, and what a module that is added leaves alone, is put together in
`Registry.LaidOut`.
-/

namespace ParticleDynamics

namespace Device

/-! ## Buffers by binding -/

/-- Under a key that is listed once there is what is listed with it. -/
theorem lookup_of_mem {entries : List (Nat × Nat)} (hnodup : (entries.map Prod.fst).Nodup)
    {binding words : Nat} (hmem : (binding, words) ∈ entries) :
    entries.lookup binding = some words := by
  obtain ⟨front, back, rfl⟩ := List.append_of_mem hmem
  refine List.lookup_eq_some_iff.2 ⟨front, back, rfl, fun entry hentry => bne_iff_ne.2 ?_⟩
  rintro rfl
  rw [List.map_append, List.nodup_append] at hnodup
  exact hnodup.2.2 _ (List.mem_map_of_mem hentry) _ List.mem_cons_self rfl

variable {α : Type} {r : Registry α} {block : Block} {capacity : Nat}

/-- The buffers of the modules stand under bindings that are all different. -/
theorem nodup_moduleBuffers (r : Registry α) (capacity : Nat) :
    ((moduleBuffers r.bindings capacity).map Prod.fst).Nodup := by
  rw [map_fst_moduleBuffers]
  exact BindingTable.nodup_bindings _

/-- **The buffer of a block** has the words of its registers. -/
theorem lookup_block (hblock : block ∈ r.bindings.blocks) :
    (moduleBuffers r.bindings capacity).lookup block.binding = some block.words :=
  lookup_of_mem (nodup_moduleBuffers r capacity)
    (List.mem_flatMap.2 ⟨block, hblock, List.mem_cons_self⟩)

/-- **The buffer of an array** has one word for each particle that there is room for. How long an
array is stands in the block of its module, and may be less. -/
theorem lookup_array (hblock : block ∈ r.bindings.blocks) {array : ArrayEntry}
    (harray : array ∈ block.arrays) :
    (moduleBuffers r.bindings capacity).lookup array.binding = some capacity :=
  lookup_of_mem (nodup_moduleBuffers r capacity) (List.mem_flatMap.2 ⟨block, hblock,
    List.mem_cons_of_mem _ (List.mem_map.2 ⟨array, harray, rfl⟩)⟩)

/-- **No binding of a module is without a buffer.** A simulation is checked for it all the same
before it is created; by the two lemmas above the check always passes. -/
theorem unbacked_eq_none (bindings : BindingTable) (capacity : Nat) :
    unbacked? bindings capacity = none := by
  refine List.find?_eq_none.2 fun binding hbinding hnone => ?_
  rw [map_fst_flatMap_uses bindings capacity] at hbinding
  obtain ⟨entry, hentry, rfl⟩ := List.mem_map.1 hbinding
  have hmissing := List.lookup_eq_none_iff.1 (Option.isNone_iff_eq_none.1 hnone) entry hentry
  exact bne_iff_ne.1 hmissing rfl

namespace Simulation

variable {takes : Acceptance} {registry : Registry Single} {settings : Settings Single}
  {camera : Camera Single} {program : Program} {d : Simulation}

/-- What becomes of a program depends on what the device takes, and on nothing else. -/
theorem create_of_build (hbuild : Program.build settings.workgroupSize registry = .ok program)
    (takes : Acceptance) (camera : Camera Single) : create takes registry settings camera =
      if takes.program program &&
          (buffers program settings).all (fun buffer => takes.buffer buffer.2)
      then .ok (assemble program settings camera) else .error (.breach .rejected) := by
  rw [create, hbuild]
  simp only [bind, Except.bind, unbacked_eq_none]
  split
  next => rfl
  next => rfl

/-- **A missing buffer is never the reason** for which there is no simulation. What remains are
mistakes in the program text, and what the device itself does not take. -/
theorem create_ne_device (takes : Acceptance) (registry : Registry Single)
    (settings : Settings Single) (camera : Camera Single) (reason : String) :
    create takes registry settings camera ≠ .error (.device reason) := by
  intro h
  cases hbuild : Program.build settings.workgroupSize registry with
  | error refusal =>
    obtain ⟨report, rfl⟩ := eq_program_of_build hbuild
    rw [create, hbuild] at h
    cases h
  | ok program =>
    rw [create_of_build hbuild] at h
    split at h <;> cases h

/-- A simulation is that of the program of its registry. -/
theorem exists_program_of_create (h : create takes registry settings camera = .ok d) :
    ∃ program, Program.build settings.workgroupSize registry = .ok program ∧
      d = assemble program settings camera := by
  cases hbuild : Program.build settings.workgroupSize registry with
  | error refusal =>
    rw [create, hbuild] at h
    cases h
  | ok program =>
    rw [create_of_build hbuild] at h
    split at h
    next => exact ⟨program, rfl, (Except.ok.inj h).symm⟩
    next => cases h

/-- The buffers of a new simulation have the sizes that they are asked for. -/
theorem size_buffer_of_build (hbuild : Program.build settings.workgroupSize registry = .ok program)
    (camera : Camera Single) {binding words : Nat}
    (hmem : (binding, words) ∈ buffers program settings) :
    ((assemble program settings camera).memory.buffer (.bound binding)).size = words := by
  -- the shape of the neighbour index is written into a buffer that keeps its size
  exact (Memory.size_perform (.write (.bound FixedBinding.grid.number) 0 _) (.bound binding)).trans
    (congrArg Buffer.size (Memory.buffer_foldl_allocate (nodup_buffers hbuild) hmem))

end Simulation

end Device

/-! ## What a registry is laid out like -/

namespace Registry

open Device

/-- **How the data of a registry is laid out and backed.** -/
structure LaidOut (r : Registry Single) : Prop where
  /-- the bindings of the modules are those behind the ones of the program, in the order of
  registration -/
  bindings : r.bindings.blocks.flatMap Block.bindings =
    List.range' firstBinding (r.bindings.bindingCount - firstBinding)
  /-- there is one block for each module, -/
  modules : (Program.placed r).map Prod.fst = r.modules ∧
    (Program.placed r).map Prod.snd = r.bindings.blocks
  /-- it has the name of the module and slots for its parameters, and the bindings of its arrays
  come right after its own -/
  block : ∀ m block, (m, block) ∈ Program.placed r → block.owner = m.name ∧ block.Packs m.params ∧
    block.bindings = List.range' block.binding (block.arrays.length + 1)
  /-- the program has one use for each binding up to the count -/
  uses : r.bindings.uses.map Prod.fst = List.range r.bindings.bindingCount
  /-- every binding of a module has a buffer, of one size -/
  backed : ∀ capacity, ∀ block ∈ r.bindings.blocks,
    (moduleBuffers r.bindings capacity).lookup block.binding = some block.words ∧
    ∀ array ∈ block.arrays, (moduleBuffers r.bindings capacity).lookup array.binding = some capacity
  /-- a missing buffer does not keep a simulation from being created -/
  created : ∀ takes settings camera reason,
    Simulation.create takes r settings camera ≠ .error (.device reason)
  /-- a simulation that is created has one buffer for each binding up to the count, of its size -/
  buffers : ∀ {takes settings camera d}, Simulation.create takes r settings camera = .ok d →
    d.program.bindings = r.bindings ∧
    (Simulation.buffers d.program settings).map Prod.fst = List.range r.bindings.bindingCount ∧
    ∀ binding words, (binding, words) ∈ Simulation.buffers d.program settings →
      (d.memory.buffer (.bound binding)).size = words
  /-- one more module leaves the blocks and the slots of the others as they are -/
  registered : ∀ {m change}, r.register m = .ok change →
    change.registry.bindings.blocks = r.bindings.blocks ++
      [Block.pack m.name m.params r.bindings.bindingCount] ∧
    ∀ {owner name slot}, r.scratch.slot? owner name = some slot →
      change.registry.scratch.slot? owner name = some slot
  /-- with a counter that is a word the blocks are the same, as long as the count is a word -/
  counted : ∀ blocks,
    BindingTable.allocateFrom firstBinding (r.modules.map Module.declared) = .ok blocks ↔
      blocks = r.bindings.blocks ∧ r.bindings.bindingCount < 4294967296

/-- **The data of every registry is laid out without gaps and overlaps**, and there is a buffer for
all of it. -/
theorem laid_out (r : Registry Single) : r.LaidOut where
  bindings := BindingTable.bindings_build _
  modules := ⟨map_fst_placed r, by
    refine List.map_snd_zip ?_
    rw [r.length_blocks, Registry.modules, List.length_map, Array.length_toList]⟩
  block m block hplaced := by
    obtain ⟨start, rfl⟩ := exists_start hplaced
    exact ⟨rfl, Block.packs_pack m.params m.name start,
      (Block.orderly_pack m.params start m.name).bindings_eq⟩
  uses := BindingTable.map_fst_uses _
  backed capacity block hblock := ⟨lookup_block hblock, fun array harray =>
    lookup_array hblock harray⟩
  created takes settings camera reason :=
    Simulation.create_ne_device takes r settings camera reason
  buffers {takes settings camera d} h := by
    obtain ⟨program, hbuild, rfl⟩ := Simulation.exists_program_of_create h
    have hbindings := (Program.layout_of_build hbuild).1
    refine ⟨hbindings, ?_, fun binding words hmem =>
      Simulation.size_buffer_of_build hbuild camera hmem⟩
    rw [Simulation.map_fst_buffers]
    exact (congrArg (fun table => table.uses.map Prod.fst) hbindings).trans
      (BindingTable.map_fst_uses _)
  registered {m change} h := by
    obtain ⟨-, params, -, rfl⟩ := register_eq_ok_iff.1 h
    refine ⟨?_, slot?_of_push rfl⟩
    rw [Registry.bindings, modules_of_push rfl, List.map_append]
    exact BindingTable.build_concat _ _
  counted _ := BindingTable.allocateFrom_build_iff

end Registry

end ParticleDynamics
