import ParticleDynamics.Proofs.Block.Slots
import ParticleDynamics.Registry.Basic

/-!
# Which module has which bindings

The blocks of a list of modules are laid out one after the other, so that no binding has two uses
(`BindingTable.nodup_bindings`). In a registry the block at a place is the layout of the module at
that place (`Registry.exists_block`), and registering one more module leaves the blocks of the
others where they are (`Registry.block_of_push`).
-/

namespace ParticleDynamics

/-- The next module starts behind the bindings of this one. -/
theorem Block.nextBinding_eq {α : Type} (decls : List (ParamDecl α)) (owner : String)
    (binding : Nat) : (pack owner decls binding).nextBinding =
      binding + (pack owner decls binding).bindings.length := by
  rw [nextBinding, bindings, List.length_cons, List.length_map, Nat.add_assoc, Nat.add_comm 1]
  rfl

namespace BindingTable

variable {α : Type} {binding : Nat} {modules : List (String × List (ParamDecl α))}

/-- The bindings of modules that are laid out one after the other follow one another. -/
theorem exists_flatMap_bindings (binding : Nat) (modules : List (String × List (ParamDecl α))) :
    ∃ count, (packFrom binding modules).flatMap Block.bindings = List.range' binding count := by
  induction modules generalizing binding with
  | nil => exact ⟨0, rfl⟩
  | cons first rest ih =>
    obtain ⟨count, hcount⟩ := ih (Block.pack first.1 first.2 binding).nextBinding
    have hfirst := (Block.orderly_pack first.2 binding first.1).bindings_eq
    refine ⟨(Block.pack first.1 first.2 binding).arrays.length + 1 + count, ?_⟩
    rw [packFrom, List.flatMap_cons, hcount, Block.nextBinding_eq, hfirst, List.length_range']
    exact List.range'_append_1

/-- **A list of modules is laid out behind the one before it.** Laying out carries nothing along
but the next free binding, so only the number of bindings taken so far passes from one list to the
next. -/
theorem packFrom_append (binding : Nat) (modules more : List (String × List (ParamDecl α))) :
    packFrom binding (modules ++ more) = packFrom binding modules ++
      packFrom (binding + ((packFrom binding modules).flatMap Block.bindings).length) more := by
  induction modules generalizing binding with
  | nil => rfl
  | cons first rest ih =>
    rw [List.cons_append, packFrom, packFrom, ih, List.cons_append, List.flatMap_cons,
      List.length_append, ← Nat.add_assoc, ← Block.nextBinding_eq]

/-- **No binding has two uses.** Blocks take their bindings in ascending order, each from where the
one before it stopped, and so no two of them can meet. -/
theorem nodup_bindings (modules : List (String × List (ParamDecl α))) :
    ((build modules).blocks.flatMap Block.bindings).Nodup := by
  obtain ⟨count, hcount⟩ := exists_flatMap_bindings firstBinding modules
  rw [build, hcount]
  exact List.nodup_range'

/-- The block at a place is the layout of the module there. -/
theorem exists_getElem?_packFrom {place : Nat} {owner : String} {decls : List (ParamDecl α)}
    (h : modules[place]? = some (owner, decls)) :
    ∃ start, (packFrom binding modules)[place]? = some (Block.pack owner decls start) := by
  induction modules generalizing binding place with
  | nil => cases h
  | cons first rest ih =>
    cases place with
    | zero =>
      obtain rfl := Option.some.inj h
      exact ⟨binding, rfl⟩
    | succ place => exact ih h

end BindingTable

namespace Registry

variable {α : Type} {r : Registry α}

/-- **A module has the block at its place.** Blocks stand in the order of registration, and nothing
of a block but its first binding depends on the modules before it. -/
theorem exists_block {place : Nat} {entry : Entry α} (h : r.entries[place]? = some entry) :
    ∃ start, r.bindings.blocks[place]? =
      some (Block.pack entry.module.name entry.module.params start) := by
  refine BindingTable.exists_getElem?_packFrom ?_
  simp [modules, Module.declared, h]

/-- There is one block for each module. -/
theorem length_blocks (r : Registry α) : r.bindings.blocks.length = r.entries.size := by
  rw [bindings, BindingTable.build, BindingTable.length_packFrom]
  simp [modules]

/-- The block of a module is without gaps and overlaps. -/
theorem orderly_block {place : Nat} {block : Block} (h : r.bindings.blocks[place]? = some block) :
    block.Orderly := by
  have hlt : place < r.entries.size := r.length_blocks ▸ (List.getElem?_eq_some_iff.1 h).1
  obtain ⟨start, hstart⟩ := exists_block (Array.getElem?_eq_getElem hlt)
  obtain rfl := Option.some.inj (h.symm.trans hstart)
  exact Block.orderly_pack _ _ _

/-- **A binding tells the place of its module.** A push names nothing but a binding, and this is why
it is clear whose data it brings. -/
theorem place_eq_of_binding {place other : Nat} {block block' : Block} {binding : Nat}
    (h : r.bindings.blocks[place]? = some block) (h' : r.bindings.blocks[other]? = some block')
    (hmem : binding ∈ block.bindings) (hmem' : binding ∈ block'.bindings) : place = other := by
  have hapart := (List.nodup_flatMap.1
    (BindingTable.nodup_bindings (r.modules.map Module.declared))).2
  obtain ⟨hlt, rfl⟩ := List.getElem?_eq_some_iff.1 h
  obtain ⟨hlt', rfl⟩ := List.getElem?_eq_some_iff.1 h'
  rcases Nat.lt_trichotomy place other with hbefore | heq | hafter
  · exact absurd hmem' (List.pairwise_iff_getElem.1 hapart _ _ hlt hlt' hbefore hmem)
  · exact heq
  · exact absurd hmem (List.pairwise_iff_getElem.1 hapart _ _ hlt' hlt hafter hmem')

/-- **One more module leaves the blocks of the others where they are.** A copy on the other side
therefore stays valid when a module is registered, and only what is new has to be pushed. -/
theorem block_of_push {grown : Registry α} {entry : Entry α} {place : Nat} {block : Block}
    (hgrown : grown.entries = r.entries.push entry)
    (h : r.bindings.blocks[place]? = some block) : grown.bindings.blocks[place]? = some block := by
  rw [bindings, modules_of_push hgrown, List.map_append, BindingTable.build,
    BindingTable.packFrom_append]
  exact (List.getElem?_append_left (List.getElem?_eq_some_iff.1 h).1).trans h

/-- Changing values keeps the modules. -/
theorem modules_modifyEntry (r : Registry α) (place : Nat) {f : Entry α → Entry α}
    (hf : ∀ entry, (f entry).module = entry.module) :
    (r.modifyEntry place f).modules = r.modules := by
  refine List.ext_getElem? fun index => ?_
  simp only [modules, modifyEntry, List.getElem?_map, Array.getElem?_toList,
    Array.getElem?_modify]
  split
  next => cases r.entries[index]? <;> simp [hf]
  next => rfl

/-- The layout depends on the modules alone. -/
theorem bindings_modifyEntry (r : Registry α) (place : Nat) {f : Entry α → Entry α}
    (hf : ∀ entry, (f entry).module = entry.module) :
    (r.modifyEntry place f).bindings = r.bindings := by
  rw [bindings, modules_modifyEntry r place hf, bindings]

end Registry

end ParticleDynamics
