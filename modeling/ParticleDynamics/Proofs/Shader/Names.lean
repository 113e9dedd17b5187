import Mathlib
import ParticleDynamics.Proofs.Block.Bindings
import ParticleDynamics.Shader.Program

/-!
# The names of a program

A program declares names of four kinds: its own (`Shader.fixedNames`), a variable for the block of
each module, a variable for each array parameter, and a function for each phase of each module. The
latter three are put together from the names of modules, parameters and phases with underscores
between them, which may also be part of those names. A program that could be built declares exactly
these names (`names_perm`).

The name of a function tells its module and its phase, because no phase has an underscore in its
name (`phaseFunction_inj`). Among the names that every program declares, those of functions of
modules called `sim` and `phase` are the only ones that modules can bring about as well
(`phaseFunction_mem_fixedNames_iff`).
-/

namespace ParticleDynamics

variable {α : Type}

namespace Shader

/-- The names that every program declares. -/
def fixedNames : List String :=
  (headItems 0 ++ fixedBindingItems ++ hashItems ++ commonItems ++ gridItems 0).filterMap
    Item.name? ++ Phase.all.map Phase.entry ++ [integrateEntry]

end Shader

namespace Registry

/-- The variables for the blocks of the modules. -/
def uniformNames (r : Registry α) : List String := r.modules.map fun m => uniformVar m.name

/-- The variables for the array parameters of the modules. -/
def arrayNames (r : Registry α) : List String :=
  r.modules.flatMap fun m => (m.params.filter fun decl => decl.kind = .array).map fun decl =>
    arrayVar m.name decl.name

/-- The functions of the modules. -/
def functionNames (r : Registry α) : List String :=
  r.modules.flatMap fun m => m.role.phases.toList.map (Shader.phaseFunction m.name)

end Registry

/-! ## The names that are declared -/

section Declared

/-- The names of items that declare one name each. -/
theorem names_map {β : Type} {item : β → Item} {name : β → String}
    (h : ∀ b, (item b).name? = some (name b)) (items : List β) :
    (items.map item).filterMap Item.name? = items.map name := by
  rw [List.filterMap_map, ← List.filterMap_eq_map]
  exact List.filterMap_congr fun b _ => h b

/-- The names that the bindings of a block declare. -/
theorem names_blockItems (b : Block) : (Shader.blockItems b).filterMap Item.name? =
    uniformVar b.owner :: (b.arrays.map ArrayEntry.name).map (arrayVar b.owner) := by
  rw [List.map_map]
  exact congrArg (uniformVar b.owner :: ·) (names_map (fun _ => rfl) b.arrays)

/-- The names of the array parameters of a module. -/
theorem names_packArrays (decls : List (ParamDecl α)) (binding slot : Nat) :
    (Block.packArrays decls binding slot).map ArrayEntry.name =
      (decls.filter fun decl => decl.kind = .array).map ParamDecl.name := by
  have hkind : (Block.ofKind .array decls).map Prod.fst =
      decls.filter fun decl => decl.kind = .array := by
    rw [← List.zipIdx_map_fst 0 decls, List.filter_map, List.zipIdx_map_fst]
    rfl
  calc (Block.packArrays decls binding slot).map ArrayEntry.name
      = ((Block.ofKind .array decls).zipIdx.map Prod.fst).map fun entry => entry.1.name := by
        rw [Block.packArrays, List.map_map, List.map_map]
        rfl
    _ = ((Block.ofKind .array decls).map Prod.fst).map ParamDecl.name := by
        rw [List.zipIdx_map_fst, List.map_map]
        rfl
    _ = _ := by rw [hkind]

/-- The blocks of a list of modules have the names of the modules and of their array parameters. -/
theorem names_packFrom (binding : Nat) (modules : List (String × List (ParamDecl α))) :
    (BindingTable.packFrom binding modules).map
        (fun b => (b.owner, b.arrays.map ArrayEntry.name)) =
      modules.map fun m => (m.1, (m.2.filter fun decl => decl.kind = .array).map ParamDecl.name) := by
  induction modules generalizing binding with
  | nil => rfl
  | cons first rest ih =>
    rw [BindingTable.packFrom, List.map_cons, List.map_cons, ih]
    exact congrArg (fun names => (first.1, names) :: _) (names_packArrays ..)

/-- The functions that the text of a module declares. -/
theorem names_moduleItems (m : ModuleText) : (Shader.moduleItems m).filterMap Item.name? =
    (m.functions.map Prod.fst).map (Shader.phaseFunction m.owner) := by
  rw [Shader.moduleItems, List.filterMap_append, names_map (fun _ => rfl) m.functions,
    List.map_map]
  cases m.helpers <;> rfl

/-- The texts for some phases come with these phases. -/
theorem map_fst_bodies (places : Places) (m : Module α) (phases : List Phase) (noted : List String) :
    ((m.bodies phases).note places noted).1.map Prod.fst = phases := by
  induction phases generalizing noted with
  | nil => rfl
  | cons phase rest ih =>
    rw [Module.bodies, Emission.note_bind, Emission.note_bind]
    exact congrArg (phase :: ·) (ih _)

/-- The texts of a module: its shared text first, and then those for its phases, over the list of
messages that the shared text leaves. -/
theorem run_texts (places : Places) (m : Module α) :
    let helpers := m.helpers.note places []
    let bodies := (m.bodies m.role.phases.toList).note places helpers.2
    m.texts.run places = ((helpers.1, bodies.1), bodies.2) := by
  rw [Module.texts, Emission.run, Emission.note_bind, Emission.note_bind]
  rfl

/-- A module without mistakes has a function for each of its phases. -/
theorem phases_of_moduleText {places : Places} {m : Module α}
    (h : (Program.moduleText places m).2 = []) :
    (Program.moduleText places m).1.functions.map Prod.fst = m.role.phases.toList := by
  have hphases : (m.texts.run places).1.2.map Prod.fst = m.role.phases.toList := by
    rw [run_texts]
    exact map_fst_bodies ..
  have hmissing := List.filterMap_eq_nil_iff.1 (List.append_eq_nil_iff.1 h).1
  have hbodies : ∀ body ∈ (m.texts.run places).1.2, ∃ text, body.2 = some text := by
    intro body hbody
    have hnone := hmissing body hbody
    cases htext : body.2 with
    | some text => exact ⟨text, rfl⟩
    | none => simp [htext] at hnone
  rw [← hphases]
  refine List.map_filterMap.trans ((List.filterMap_congr fun body hbody => ?_).trans
    (congrFun List.filterMap_eq_map _))
  obtain ⟨phase, body⟩ := body
  obtain ⟨text, rfl⟩ := hbodies _ hbody
  rfl

/-- The modules of a program are those of the registry. -/
theorem map_fst_placed (r : Registry α) : (Program.placed r).map Prod.fst = r.modules := by
  rw [Program.placed]
  refine List.map_fst_zip ?_
  rw [r.length_blocks, Registry.modules, List.length_map, Array.length_toList]

/-- **What a program is made of that could be built**: the texts of the modules, none of them with a
mistake, and the gates. -/
theorem parts_of_build {r : Registry α} {workgroupSize : UInt32} {p : Program}
    (h : Program.build workgroupSize r = .ok p) :
    p.modules = (Program.placed r).map (fun placed =>
        (Program.moduleText ⟨placed.2, r.scratch⟩ placed.1).1) ∧
      (∀ placed ∈ Program.placed r,
        (Program.moduleText ⟨placed.2, r.scratch⟩ placed.1).2 = []) ∧
      p.gates = Program.gatesOf (Program.placed r) := by
  unfold Program.build at h
  split at h
  next => cases h
  next =>
    dsimp only at h
    split at h
    next hmessages =>
      obtain rfl := Except.ok.inj h
      refine ⟨List.map_map, fun placed hplaced => ?_, rfl⟩
      exact List.flatMap_eq_nil_iff.1 (List.isEmpty_iff.1 hmessages) _
        (List.mem_map.2 ⟨placed, hplaced, rfl⟩)
    next => cases h

/-- The texts of a program have a function for each phase of each module. -/
theorem phases_of_build {r : Registry α} {workgroupSize : UInt32} {p : Program}
    (h : Program.build workgroupSize r = .ok p) :
    p.modules.map (fun m => (m.owner, m.functions.map Prod.fst)) =
      r.modules.map fun m => (m.name, m.role.phases.toList) := by
  obtain ⟨hmodules, hclean, -⟩ := parts_of_build h
  rw [hmodules, List.map_map, ← map_fst_placed r, List.map_map]
  refine List.map_congr_left fun placed hplaced => ?_
  exact congrArg (Prod.mk placed.1.name) (phases_of_moduleText (hclean placed hplaced))

/-- The functions that the texts of a program declare. -/
theorem modules_of_build {r : Registry α} {workgroupSize : UInt32} {p : Program}
    (h : Program.build workgroupSize r = .ok p) :
    p.modules.flatMap (fun m => (m.functions.map Prod.fst).map (Shader.phaseFunction m.owner)) =
      r.functionNames := by
  have hphases := congrArg (List.flatMap fun group : String × List Phase =>
    group.2.map (Shader.phaseFunction group.1)) (phases_of_build h)
  rw [List.flatMap_map, List.flatMap_map] at hphases
  exact hphases

/-- The variables that the blocks of a registry declare. -/
theorem names_blocks (r : Registry α) :
    ((r.bindings.blocks.flatMap Shader.blockItems).filterMap Item.name?).Perm
      (r.uniformNames ++ r.arrayNames) := by
  have hblocks : (r.bindings.blocks.flatMap Shader.blockItems).filterMap Item.name? =
      r.modules.flatMap fun m => [uniformVar m.name] ++
        (m.params.filter fun decl => decl.kind = .array).map fun decl =>
          arrayVar m.name decl.name := by
    have hnames := names_packFrom firstBinding (r.modules.map Module.declared)
    calc (r.bindings.blocks.flatMap Shader.blockItems).filterMap Item.name?
        = (r.bindings.blocks.map fun b => (b.owner, b.arrays.map ArrayEntry.name)).flatMap
            fun names => uniformVar names.1 :: names.2.map (arrayVar names.1) := by
          rw [List.filterMap_flatMap, List.flatMap_map]
          exact List.flatMap_congr fun b _ => names_blockItems b
      _ = _ := by
          rw [Registry.bindings, BindingTable.build, hnames, List.flatMap_map, List.flatMap_map]
          refine List.flatMap_congr fun m _ => ?_
          rw [List.map_map]
          rfl
  rw [hblocks]
  refine (List.flatMap_append_perm ..).symm.trans (.of_eq ?_)
  rw [Registry.uniformNames, Registry.arrayNames, List.map_eq_flatMap]

/-- **The names of a program** are its own and those of its modules. -/
theorem names_perm {r : Registry α} {workgroupSize : UInt32} {p : Program}
    (h : Program.build workgroupSize r = .ok p) :
    p.names.Perm (Shader.fixedNames ++ (r.uniformNames ++ r.arrayNames ++ r.functionNames)) := by
  have hfunctions : (p.modules.flatMap Shader.moduleItems).filterMap Item.name? =
      r.functionNames := by
    rw [← modules_of_build h, List.filterMap_flatMap]
    exact List.flatMap_congr fun m _ => names_moduleItems m
  have hentries : (Phase.all.map fun phase =>
      Shader.phaseEntryItem p.workgroupSize phase (p.gates phase)).filterMap Item.name? =
        Phase.all.map Phase.entry := rfl
  have hhead : (Shader.headItems p.scratch.stride).filterMap Item.name? =
      (Shader.headItems 0).filterMap Item.name? := rfl
  have hgrid : (Shader.gridItems p.workgroupSize).filterMap Item.name? =
      (Shader.gridItems 0).filterMap Item.name? := rfl
  have hblocks := names_blocks r
  rw [← (Program.layout_of_build h).1] at hblocks
  refine List.perm_iff_count.2 fun name => ?_
  have hcount := hblocks.count_eq name
  simp only [Program.names, Program.items, Shader.fixedNames, List.filterMap_append, hfunctions,
    hentries, hhead, hgrid, List.count_append] at hcount ⊢
  rw [hcount]
  simp only [List.filterMap_cons, Item.name?, List.filterMap_nil, List.count_nil,
    Shader.integrateItem]
  omega

end Declared

/-! ## Names that are put together -/

section Clashes

/-- What the name of a phase adds to the name of a module. -/
def phaseSuffix (phase : Phase) : List Char := '_' :: phase.name.toList

theorem toList_phaseFunction (owner : String) (phase : Phase) :
    (Shader.phaseFunction owner phase).toList = owner.toList ++ phaseSuffix phase := by
  simp [Shader.phaseFunction, phaseSuffix]

/-- What one phase adds does not end with what another adds. -/
theorem eq_of_phaseSuffix_suffix {phase other : Phase} (h : phaseSuffix phase <:+ phaseSuffix other) :
    phase = other := by
  revert h
  cases phase <;> cases other <;> decide +kernel

/-- **The function of a module and phase tells both.** The names of phases hold no underscore, so
the last one in the name of a function tells where its owner ends. -/
theorem phaseFunction_inj {owner other : String} {phase phase' : Phase} :
    Shader.phaseFunction owner phase = Shader.phaseFunction other phase' ↔
      owner = other ∧ phase = phase' := by
  refine ⟨fun h => ?_, fun ⟨howner, hphase⟩ => howner ▸ hphase ▸ rfl⟩
  have hlist := congrArg String.toList h
  rw [toList_phaseFunction, toList_phaseFunction] at hlist
  have hsuffix : phaseSuffix phase <:+ other.toList ++ phaseSuffix phase' :=
    hlist ▸ List.suffix_append ..
  obtain rfl : phase = phase' := by
    rcases List.suffix_or_suffix_of_suffix hsuffix (List.suffix_append ..) with hend | hend
    · exact eq_of_phaseSuffix_suffix hend
    · exact (eq_of_phaseSuffix_suffix hend).symm
  exact ⟨String.toList_inj.1 (List.append_cancel_right hlist), rfl⟩

theorem uniformVar_inj {owner other : String} : uniformVar owner = uniformVar other ↔ owner = other := by
  refine ⟨fun h => ?_, fun h => h ▸ rfl⟩
  have hlist := congrArg String.toList h
  rw [uniformVar, uniformVar, String.toList_append, String.toList_append] at hlist
  exact String.toList_inj.1 (List.append_cancel_left hlist)

/-- The variable of a block is none of an array parameter. -/
theorem uniformVar_ne_arrayVar (owner other param : String) :
    uniformVar owner ≠ arrayVar other param := by
  intro h
  have hlist := congrArg String.toList h
  simp [uniformVar, arrayVar] at hlist

/-! ### Names that every program declares -/

theorem nodup_fixedNames : Shader.fixedNames.Nodup := by decide +kernel

/-- None of them begins like the variables of modules. -/
theorem prefix_fixedNames : ∀ name ∈ Shader.fixedNames,
    ¬ "u_".toList <+: name.toList ∧ ¬ "a_".toList <+: name.toList := by
  decide +kernel

/-- Some of them end like the functions of modules. -/
theorem suffix_fixedNames : ∀ name ∈ Shader.fixedNames, ∀ phase ∈ Phase.all,
    phaseSuffix phase <:+ name.toList →
      name = Shader.phaseFunction "sim" .state ∧ phase = .state ∨
        name = Shader.phaseFunction "phase" phase := by
  decide +kernel

theorem uniformVar_notMem_fixedNames (owner : String) : uniformVar owner ∉ Shader.fixedNames := by
  intro h
  refine (prefix_fixedNames _ h).1 ?_
  rw [uniformVar, String.toList_append]
  exact List.prefix_append ..

theorem arrayVar_notMem_fixedNames (owner param : String) :
    arrayVar owner param ∉ Shader.fixedNames := by
  intro h
  refine (prefix_fixedNames _ h).2 ?_
  simp only [arrayVar, String.toList_append, List.append_assoc]
  exact List.prefix_append ..

/-- **Two names of modules lead to names of the program**: `sim` in the state phase, and `phase`.
These are the only ones, which is decided name by name for the names that the program has. -/
theorem phaseFunction_mem_fixedNames_iff {owner : String} {phase : Phase} :
    Shader.phaseFunction owner phase ∈ Shader.fixedNames ↔
      owner = "sim" ∧ phase = .state ∨ owner = "phase" := by
  constructor
  · intro h
    have hsuffix : phaseSuffix phase <:+ (Shader.phaseFunction owner phase).toList := by
      rw [toList_phaseFunction]
      exact List.suffix_append ..
    rcases suffix_fixedNames _ h phase phase.mem_all hsuffix with ⟨hname, hphase⟩ | hname
    · exact .inl ⟨(phaseFunction_inj.1 hname).1, hphase⟩
    · exact .inr (phaseFunction_inj.1 hname).1
  · rintro (⟨rfl, rfl⟩ | rfl)
    · decide +kernel
    · cases phase <;> decide +kernel

end Clashes

end ParticleDynamics
