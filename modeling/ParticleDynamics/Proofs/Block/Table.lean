import ParticleDynamics.Block.Binding
import ParticleDynamics.Proofs.Block.Bindings

/-!
# The table of all blocks

One counter of bindings goes through the list of modules. So the bindings of a table are those from
the first one of a module up to the count, each of them once and in the order of the modules
(`BindingTable.bindings_build`), and a module that is added takes those from the count on
(`BindingTable.build_concat`). With a counter that is a word the same table comes about as long as
the count is a word (`BindingTable.allocateFrom_eq_ok_iff`).

Within its block each declaration has one slot behind that of the flag, the scalars before the
arrays (`Block.Packs`).
-/

namespace ParticleDynamics

/-! ## One module -/

namespace Block

variable {α : Type} (decls : List (ParamDecl α))

/-- Every declaration is a scalar or an array. -/
theorem length_ofKind_add :
    (ofKind .scalar decls).length + (ofKind .array decls).length = decls.length := by
  have hkinds : ofKind .array decls =
      decls.zipIdx.filter fun entry => !decide (entry.1.kind = .scalar) :=
    List.filter_congr fun entry _ => by cases entry.1.kind <;> rfl
  rw [hkinds, ofKind, ← List.length_eq_length_filter_add, List.length_zipIdx]

/-- **The block of a list of declarations**, with a slot for the flag and one for each of them. -/
structure Packs (b : Block) : Prop where
  /-- the slots of the flag, of the scalars and of the lengths of the arrays follow one another -/
  linear_slots : b.slots.map BlockSlot.linear = List.range (decls.length + 1)
  /-- every slot is a component of a register -/
  component_lt : ∀ slot ∈ b.slots, slot.component < 4
  /-- there are as many registers as this takes -/
  registers : decls.length + 1 ≤ 4 * b.registers ∧ 4 * b.registers < decls.length + 1 + 4
  /-- the scalars are those that are declared, in order -/
  scalars : b.scalars.map (fun entry => (entry.name, entry.param)) =
    (ofKind .scalar decls).map fun entry => (entry.1.name, entry.2)
  /-- the arrays are those that are declared, in order -/
  arrays : b.arrays.map (fun entry => (entry.name, entry.param)) =
    (ofKind .array decls).map fun entry => (entry.1.name, entry.2)

theorem packs_pack (owner : String) (binding : Nat) : (pack owner decls binding).Packs decls := by
  have horderly := orderly_pack decls binding owner
  have hcount : (pack owner decls binding).slotCount = decls.length + 1 := by
    rw [← length_ofKind_add, slotCount, pack, length_packScalars, length_packArrays]
    omega
  refine ⟨hcount ▸ horderly.linear_slots, horderly.component_lt, ?_, ?_, ?_⟩
  · have hregisters : (pack owner decls binding).registers =
        ((pack owner decls binding).slotCount + 3) / 4 := rfl
    rw [hregisters, hcount]
    omega
  · rw [pack, packScalars, List.map_map, ← List.zipIdx_map_fst 1 (ofKind .scalar decls),
      List.map_map, List.zipIdx_map_fst]
    rfl
  · rw [pack, packArrays, List.map_map, ← List.zipIdx_map_fst 0 (ofKind .array decls), List.map_map,
      List.zipIdx_map_fst]
    rfl

end Block

/-! ## All modules -/

namespace BindingTable

variable {α : Type}

/-- The greatest of consecutive numbers is the last one. -/
theorem foldl_max_range' (start count : Nat) :
    (List.range' start count).foldl (fun most binding => max most (binding + 1)) start =
      start + count := by
  induction count generalizing start with
  | zero => rfl
  | succ count ih =>
    rw [List.range'_succ, List.foldl_cons, Nat.max_eq_right (Nat.le_succ start), ih]
    omega

/-- The count is the first binding behind those of the modules. -/
theorem bindingCount_build (modules : List (String × List (ParamDecl α))) :
    (build modules).bindingCount =
      firstBinding + ((build modules).blocks.flatMap Block.bindings).length := by
  obtain ⟨count, hcount⟩ := exists_flatMap_bindings firstBinding modules
  rw [bindingCount, build, hcount, foldl_max_range', List.length_range']

/-- **The bindings of the modules are those up to the count**, in order. No number is left out
between two modules, and the count is the first one that is still free. -/
theorem bindings_build (modules : List (String × List (ParamDecl α))) :
    (build modules).blocks.flatMap Block.bindings =
      List.range' firstBinding ((build modules).bindingCount - firstBinding) := by
  obtain ⟨count, hcount⟩ := exists_flatMap_bindings firstBinding modules
  rw [bindingCount_build, Nat.add_sub_cancel_left, build, hcount, List.length_range']

/-- **One more module takes the bindings from the count on**, and leaves the blocks of the others as
they are. -/
theorem build_concat (modules : List (String × List (ParamDecl α)))
    (added : String × List (ParamDecl α)) :
    (build (modules ++ [added])).blocks = (build modules).blocks ++
      [Block.pack added.1 added.2 (build modules).bindingCount] := by
  rw [bindingCount_build]
  exact packFrom_append firstBinding modules [added]

/-- All bindings with a use, those of the program and those of the modules, are the ones up to the
count. -/
theorem map_fst_uses (modules : List (String × List (ParamDecl α))) :
    (build modules).uses.map Prod.fst = List.range (build modules).bindingCount := by
  have hfixed : (FixedBinding.all.map fun fixed => (fixed.number, fixed.use)).map Prod.fst =
      List.range' 0 firstBinding := rfl
  have hmodules : ((build modules).blocks.flatMap Block.uses).map Prod.fst =
      (build modules).blocks.flatMap Block.bindings := by
    rw [List.map_flatMap]
    exact List.flatMap_congr fun b _ => b.map_fst_uses
  have hle : firstBinding ≤ (build modules).bindingCount :=
    Nat.le.intro (bindingCount_build modules).symm
  rw [uses, List.map_append, hfixed, hmodules, bindings_build, List.range_eq_range',
    ← Nat.add_sub_cancel' hle, Nat.add_sub_cancel_left]
  exact List.range'_append_1 (s := 0)

/-! ### A counter that is a word -/

/-- The blocks of a list of modules from a binding on, with a counter that has to be a word all the
time. -/
def allocateFrom (binding : Nat) : List (String × List (ParamDecl α)) → Except Breach (List Block)
  | [] => .ok []
  | (owner, decls) :: rest => do
    let block ← Block.allocate owner decls binding
    return block :: (← allocateFrom block.nextBinding rest)

/-- A module can be laid out if the binding after it is a word. -/
theorem allocate_eq_ok_iff {owner : String} {decls : List (ParamDecl α)} {binding : Nat}
    {block : Block} : Block.allocate owner decls binding = .ok block ↔
      block = Block.pack owner decls binding ∧ block.nextBinding < 4294967296 := by
  rw [Block.allocate]
  constructor
  · intro h
    obtain ⟨next, hnext, hblock⟩ := bind_eq_ok_iff.1 h
    obtain rfl := Except.ok.inj hblock
    exact ⟨rfl, (fitWord_eq_ok_iff.1 hnext).1⟩
  · rintro ⟨rfl, hlt⟩
    exact bind_eq_ok_iff.2 ⟨_, fitWord_eq_ok_iff.2 ⟨hlt, rfl⟩, rfl⟩

/-- **A counter that is a word leads to the same blocks**, as long as the last binding and the one
after it are words. -/
theorem allocateFrom_eq_ok_iff {binding : Nat} {modules : List (String × List (ParamDecl α))}
    {blocks : List Block} (hbinding : binding < 4294967296) :
    allocateFrom binding modules = .ok blocks ↔ blocks = packFrom binding modules ∧
      binding + (blocks.flatMap Block.bindings).length < 4294967296 := by
  induction modules generalizing binding blocks with
  | nil =>
    rw [allocateFrom, packFrom, Except.ok.injEq, eq_comm]
    exact (and_iff_left_of_imp fun h => h ▸ hbinding).symm
  | cons first rest ih =>
    rw [allocateFrom, packFrom]
    constructor
    · intro h
      obtain ⟨block, hblock, h⟩ := bind_eq_ok_iff.1 h
      obtain ⟨others, hothers, hall⟩ := bind_eq_ok_iff.1 h
      obtain rfl := Except.ok.inj hall
      obtain ⟨rfl, hnext⟩ := allocate_eq_ok_iff.1 hblock
      obtain ⟨rfl, hlast⟩ := (ih hnext).1 hothers
      refine ⟨rfl, ?_⟩
      rwa [List.flatMap_cons, List.length_append, ← Nat.add_assoc, ← Block.nextBinding_eq]
    · rintro ⟨rfl, hlast⟩
      rw [List.flatMap_cons, List.length_append, ← Nat.add_assoc, ← Block.nextBinding_eq] at hlast
      have hlt := Nat.lt_of_le_of_lt (Nat.le_add_right _ _) hlast
      exact bind_eq_ok_iff.2 ⟨_, allocate_eq_ok_iff.2 ⟨rfl, hlt⟩,
        bind_eq_ok_iff.2 ⟨_, (ih hlt).2 ⟨rfl, hlast⟩, rfl⟩⟩

/-- The blocks of a table, counted in a word. -/
theorem allocateFrom_build_iff {modules : List (String × List (ParamDecl α))}
    {blocks : List Block} : allocateFrom firstBinding modules = .ok blocks ↔
      blocks = (build modules).blocks ∧ (build modules).bindingCount < 4294967296 := by
  rw [allocateFrom_eq_ok_iff (by decide), bindingCount_build]
  exact and_congr_right fun h => by rw [h]; rfl

end BindingTable

end ParticleDynamics
