import ParticleDynamics.Force.Standard
import ParticleDynamics.Proofs.Registry.Actions
import ParticleDynamics.Proofs.Shader.Names

/-!
# When the names of a program clash

Building a program looks at each name of a module by itself, and does not compare what is put
together from them. So a program can be built that declares a name twice
(`Registry.names_clash_idling`).

There are four ways for this to happen and no others (`Registry.names_distinct_iff`): two array
parameters whose names come out the same, a function of a module called `sim` or `phase` that is
called like a part of every program, a function called like the variable of a block, and one called
like the variable of an array. Modules with plain names are safe from all of them
(`Registry.Plain.clashless`), the standard modules among them (`Registry.plain_of_standard`).
-/

namespace ParticleDynamics

variable {α : Type}

namespace Registry

/-- **No two names of a program are the same.** -/
structure Clashless (r : Registry α) : Prop where
  /-- array parameters have different variables -/
  arrays : r.arrayNames.Nodup
  /-- no function of a module is the scratch table -/
  sim : ∀ m ∈ r.modules, m.name = "sim" → m.role.implements .state = false
  /-- no function of a module is an entry point -/
  phase : ∀ m ∈ r.modules, m.name = "phase" → ∀ phase, m.role.implements phase = false
  /-- no function of a module is the variable of a block -/
  uniform : ∀ name ∈ r.functionNames, name ∉ r.uniformNames
  /-- no function of a module is the variable of an array parameter -/
  array : ∀ name ∈ r.functionNames, name ∉ r.arrayNames

variable {r : Registry α}

theorem mem_functionNames_iff {name : String} : name ∈ r.functionNames ↔
    ∃ m ∈ r.modules, ∃ phase, m.role.implements phase = true ∧
      Shader.phaseFunction m.name phase = name := by
  simp only [functionNames, List.mem_flatMap, List.mem_map, PhaseSet.mem_toList, Role.implements]

/-- The functions of modules with different names are different. -/
theorem nodup_functionNames (hnames : r.names.Nodup) : r.functionNames.Nodup := by
  have hphases (set : PhaseSet) : set.toList.Nodup :=
    List.Nodup.filter _ (by decide)
  refine List.nodup_flatMap.2 ⟨fun m _ => ?_, ?_⟩
  · exact (hphases _).map fun _ _ heq => (phaseFunction_inj.1 heq).2
  · refine (List.pairwise_map.1 hnames).imp fun hne => ?_
    intro name hname hname'
    obtain ⟨phase, -, rfl⟩ := List.mem_map.1 hname
    obtain ⟨phase', -, heq⟩ := List.mem_map.1 hname'
    exact hne (phaseFunction_inj.1 heq).1.symm

/-- The blocks of modules with different names have different variables. -/
theorem nodup_uniformNames (hnames : r.names.Nodup) : r.uniformNames.Nodup := by
  have hmap : r.uniformNames = r.names.map uniformVar := by
    rw [uniformNames, names, List.map_map]
    rfl
  rw [hmap]
  exact hnames.map fun _ _ heq => uniformVar_inj.1 heq

/-- **Names clash in no other way.** All other pairs of names differ in how they begin or in how
they end. -/
theorem nodup_names_iff {workgroupSize : UInt32} {p : Program} (hnames : r.names.Nodup)
    (h : Program.build workgroupSize r = .ok p) : p.names.Nodup ↔ r.Clashless := by
  rw [(names_perm h).nodup_iff]
  simp only [List.nodup_append', List.disjoint_append_left, List.disjoint_append_right]
  constructor
  · rintro ⟨-, ⟨⟨-, harrays, -⟩, -, huniform, harray⟩, -, hfunctions⟩
    -- a function that clashed with a name of every program would be among both lists
    have hown {m : Module α} (hm : m ∈ r.modules) {phase : Phase}
        (hclash : m.name = "sim" ∧ phase = .state ∨ m.name = "phase") :
        m.role.implements phase = false := by
      by_contra himplements
      exact hfunctions (phaseFunction_mem_fixedNames_iff.2 hclash)
        (mem_functionNames_iff.2 ⟨m, hm, phase, Bool.eq_true_of_not_eq_false himplements, rfl⟩)
    exact ⟨harrays, fun m hm hsim => hown hm (.inl ⟨hsim, rfl⟩),
      fun m hm hphase phase => hown hm (.inr hphase),
      fun name hname hmem => huniform hmem hname, fun name hname hmem => harray hmem hname⟩
  · rintro ⟨harrays, hsim, hphase, huniform, harray⟩
    refine ⟨nodup_fixedNames, ⟨⟨nodup_uniformNames hnames, harrays, ?_⟩,
      nodup_functionNames hnames, fun name hmem hname => huniform name hname hmem,
      fun name hmem hname => harray name hname hmem⟩, ⟨?_, ?_⟩, ?_⟩
    · intro name hname hname'
      obtain ⟨m, -, rfl⟩ := List.mem_map.1 hname
      obtain ⟨m', -, hm'⟩ := List.mem_flatMap.1 hname'
      obtain ⟨decl, -, heq⟩ := List.mem_map.1 hm'
      exact uniformVar_ne_arrayVar _ _ _ heq.symm
    · intro name hfixed hname
      obtain ⟨m, -, rfl⟩ := List.mem_map.1 hname
      exact uniformVar_notMem_fixedNames _ hfixed
    · intro name hfixed hname
      obtain ⟨m, -, hm⟩ := List.mem_flatMap.1 hname
      obtain ⟨decl, -, rfl⟩ := List.mem_map.1 hm
      exact arrayVar_notMem_fixedNames _ _ hfixed
    · intro name hfixed hname
      obtain ⟨m, hm, phase, himplements, rfl⟩ := mem_functionNames_iff.1 hname
      rcases phaseFunction_mem_fixedNames_iff.1 hfixed with ⟨howner, rfl⟩ | howner
      · exact Bool.noConfusion ((hsim m hm howner).symm.trans himplements)
      · exact Bool.noConfusion ((hphase m hm howner phase).symm.trans himplements)

/-- **The names that a program declares are different exactly if none of these clashes occurs**,
whatever registry the program is built from. -/
theorem names_distinct_iff [Scalar α] (hr : r.Reachable) {workgroupSize : UInt32} {p : Program}
    (h : Program.build workgroupSize r = .ok p) : p.names.Nodup ↔ r.Clashless :=
  nodup_names_iff hr.nodup_names h

/-! ## Modules without underscores in their names -/

/-- A list is split at its first underscore in one way. -/
theorem split_at_underscore {front front' back back' : List Char} (hfront : '_' ∉ front)
    (hfront' : '_' ∉ front') (h : front ++ '_' :: back = front' ++ '_' :: back') :
    front = front' ∧ back = back' := by
  induction front generalizing front' with
  | nil =>
    cases front' with
    | nil => exact ⟨rfl, (List.cons.inj h).2⟩
    | cons c rest => exact absurd ((List.cons.inj h).1 ▸ List.mem_cons_self) hfront'
  | cons c rest ih =>
    cases front' with
    | nil => exact absurd ((List.cons.inj h).1 ▸ List.mem_cons_self) hfront
    | cons c' rest' =>
      obtain ⟨rfl, htail⟩ := List.cons.inj h
      obtain ⟨rfl, hback⟩ := ih (fun hmem => hfront (List.mem_cons_of_mem _ hmem))
        (fun hmem => hfront' (List.mem_cons_of_mem _ hmem)) htail
      exact ⟨rfl, hback⟩

/-- The variable of an array parameter tells a module without underscores in its name. -/
theorem arrayVar_inj {owner other param param' : String} (howner : '_' ∉ owner.toList)
    (hother : '_' ∉ other.toList) (h : arrayVar owner param = arrayVar other param') :
    owner = other ∧ param = param' := by
  have hlist : owner.toList ++ '_' :: param.toList = other.toList ++ '_' :: param'.toList := by
    have hvars := congrArg String.toList h
    simpa [arrayVar] using hvars
  obtain ⟨hfront, hback⟩ := split_at_underscore howner hother hlist
  exact ⟨String.toList_inj.1 hfront, String.toList_inj.1 hback⟩

/-- The name of a phase has no underscore. -/
theorem underscore_notMem_phase (phase : Phase) : '_' ∉ phase.name.toList := by
  cases phase <;> decide +kernel

/-- **Modules with plain names**: no underscores, no name of the program's own for a module that has
functions, and in each module different names for the arrays. -/
structure Plain (r : Registry α) : Prop where
  /-- no module has an underscore in its name -/
  underscore : ∀ m ∈ r.modules, '_' ∉ m.name.toList
  /-- no module has two arrays of one name -/
  arrays : ∀ m ∈ r.modules,
    ((m.params.filter fun decl => decl.kind = .array).map ParamDecl.name).Nodup
  /-- a module called like a record or an entry point of the program, or like the beginning of the
  variables of blocks, has no functions -/
  functions : ∀ m ∈ r.modules, m.name = "sim" ∨ m.name = "phase" ∨ m.name = "u" →
    ∀ phase, m.role.implements phase = false

/-- **Plain names do not clash.** So nothing has to be asked of modules whose names are plain. -/
theorem Plain.clashless (h : r.Plain) (hnames : r.names.Nodup) : r.Clashless where
  arrays := by
    refine List.nodup_flatMap.2 ⟨fun m hm => ?_, ?_⟩
    · have hunder := h.underscore m hm
      have hnodup := (h.arrays m hm).map fun _ _ heq => (arrayVar_inj hunder hunder heq).2
      rwa [List.map_map] at hnodup
    · -- arrays of different modules differ in front of the underscore
      refine (List.pairwise_map.1 hnames).imp_of_mem fun hm hm' hne => ?_
      intro name hname hname'
      obtain ⟨decl, -, rfl⟩ := List.mem_map.1 hname
      obtain ⟨decl', -, heq⟩ := List.mem_map.1 hname'
      exact hne (arrayVar_inj (h.underscore _ hm) (h.underscore _ hm') heq.symm).1
  sim m hm hsim := h.functions m hm (.inl hsim) .state
  phase m hm hphase := h.functions m hm (.inr (.inl hphase))
  uniform name hname hmem := by
    obtain ⟨m, hm, phase, himplements, rfl⟩ := mem_functionNames_iff.1 hname
    obtain ⟨other, -, heq⟩ := List.mem_map.1 hmem
    -- the name before the first underscore would have to be `u`, which no module is called
    have hlist : ['u'] ++ '_' :: other.name.toList = m.name.toList ++ '_' :: phase.name.toList := by
      have hnames := congrArg String.toList heq
      rw [toList_phaseFunction] at hnames
      simpa [uniformVar, phaseSuffix] using hnames
    obtain ⟨hu, -⟩ := split_at_underscore (by decide) (h.underscore m hm) hlist
    have hnone := h.functions m hm (.inr (.inr (String.toList_inj.1 hu.symm))) phase
    exact Bool.noConfusion (hnone.symm.trans himplements)
  array name hname hmem := by
    obtain ⟨m, hm, phase, himplements, rfl⟩ := mem_functionNames_iff.1 hname
    obtain ⟨other, -, hother⟩ := List.mem_flatMap.1 hmem
    obtain ⟨decl, -, heq⟩ := List.mem_map.1 hother
    -- what comes after the first underscore has another one, but no phase has one
    have hlist : ['a'] ++ '_' :: (other.name.toList ++ '_' :: decl.name.toList) =
        m.name.toList ++ '_' :: phase.name.toList := by
      have hnames := congrArg String.toList heq
      rw [toList_phaseFunction] at hnames
      simpa [arrayVar, phaseSuffix] using hnames
    obtain ⟨-, hphase⟩ := split_at_underscore (by decide) (h.underscore m hm) hlist
    exact underscore_notMem_phase phase (hphase ▸ List.mem_append_right _ List.mem_cons_self)

/-- **The standard modules have plain names.** -/
theorem plain_of_standard [Scalar α] (h : ∀ m ∈ r.modules, m ∈ Module.standard) : r.Plain := by
  have hnames : (Module.standard : List (Module α)).map Module.name =
      ["environment", "fluid", "boundary", "collisions", "joints", "points"] := rfl
  have harrays : (Module.standard : List (Module α)).map (fun m =>
      (m.params.filter fun decl => decl.kind = .array).map ParamDecl.name) =
        [[], [], [], [], ["a_indexes", "b_indexes", "rest_lengths"], []] := rfl
  have hplain : ∀ name ∈ ["environment", "fluid", "boundary", "collisions", "joints", "points"],
      '_' ∉ name.toList ∧ ¬ (name = "sim" ∨ name = "phase" ∨ name = "u") := by
    decide +kernel
  have hname {m : Module α} (hm : m ∈ r.modules) :=
    hplain m.name (hnames ▸ List.mem_map_of_mem (h m hm))
  refine ⟨fun m hm => (hname hm).1, fun m hm => ?_, fun m hm hown => absurd hown (hname hm).2⟩
  have hnodup : ∀ names ∈ [[], [], [], [], ["a_indexes", "b_indexes", "rest_lengths"], []],
      names.Nodup := by
    decide +kernel
  exact hnodup _ (harrays ▸ List.mem_map_of_mem (h m hm))

/-! ## A clash -/

/-- A program can be built when every name can be used in it and no module makes a mistake. -/
theorem exists_build (workgroupSize : UInt32)
    (hvalid : ∀ m ∈ r.modules, validIdentifier m.name = true)
    (hclean : ∀ placed ∈ Program.placed r,
      (Program.moduleText ⟨placed.2, r.scratch⟩ placed.1).2 = []) :
    ∃ p, Program.build workgroupSize r = .ok p := by
  have hfind : r.modules.find? (fun m => !validIdentifier m.name) = none :=
    List.find?_eq_none.2 fun m hm => by simp [hvalid m hm]
  have hmessages : (((Program.placed r).map fun placed =>
      Program.moduleText ⟨placed.2, r.scratch⟩ placed.1).flatMap Prod.snd).isEmpty = true := by
    rw [List.isEmpty_iff, List.flatMap_eq_nil_iff]
    exact List.forall_mem_map.2 hclean
  unfold Program.build
  rw [hfind]
  exact ⟨_, if_pos hmessages⟩

/-- A module of a given name that does nothing in the state phase. -/
def idle (name : String) : Module Single where
  name := name
  role := .force { state := true }
  run := fun _ _ => .done ()
  fragment := fun _ => .done (some "")

/-- That module alone. -/
def idling (name : String) : Registry Single := { entries := #[⟨idle name, ⟨true, #[]⟩⟩] }

theorem ofModules_idle (name : String) : ofModules [idle name] = .ok (idling name) := by
  with_unfolding_all rfl

theorem reachable_idling (name : String) : (idling name).Reachable := by
  have hact : (Registry.empty : Registry Single).act (.register (idle name)) =
      .ok ⟨(), idling name, []⟩ := by
    with_unfolding_all rfl
  exact .act .empty hact

theorem exists_build_idling (name : String) (hvalid : validIdentifier name = true) :
    ∃ p, Program.build 64 (idling name) = .ok p := by
  refine exists_build 64 (List.forall_mem_singleton.2 hvalid) fun placed hplaced => ?_
  have hmem : placed.1 ∈ (idling name).modules := by
    rw [← map_fst_placed]
    exact List.mem_map_of_mem hplaced
  rw [show placed.1 = idle name from List.mem_singleton.1 hmem]
  rfl

/-- Another name is no matter. -/
theorem names_distinct_idling : ∃ p, Program.build 64 (idling "drift") = .ok p ∧ p.names.Nodup := by
  obtain ⟨p, hp⟩ := exists_build_idling "drift" (by decide +kernel)
  have hplain : (idling "drift").Plain := by
    refine ⟨List.forall_mem_singleton.2 (by decide +kernel),
      List.forall_mem_singleton.2 List.nodup_nil, List.forall_mem_singleton.2 fun hown => ?_⟩
    exact absurd hown (by decide +kernel)
  exact ⟨p, hp, (names_distinct_iff (reachable_idling "drift") hp).2
    (hplain.clashless (reachable_idling "drift").nodup_names)⟩

/-- **A program is built in which a name is declared twice**: the function of the module `sim` in
the state phase is called like the scratch table. -/
theorem names_clash_idling : ∃ (r : Registry Single) (p : Program),
    ofModules [idle "sim"] = .ok r ∧ Program.build 64 r = .ok p ∧ ¬ p.names.Nodup := by
  obtain ⟨p, hp⟩ := exists_build_idling "sim" (by decide +kernel)
  refine ⟨idling "sim", p, ofModules_idle "sim", hp, fun hnodup => ?_⟩
  have hclashless := (nodup_names_iff (reachable_idling "sim").nodup_names hp).1 hnodup
  exact Bool.noConfusion (hclashless.sim (idle "sim") List.mem_cons_self rfl)

end Registry

end ParticleDynamics
