import ParticleDynamics.Proofs.Registry.Remembering

/-!
# Access through a key and access by name

A parameter of a registered module can be written by the name of the module and its own, or through
a handle of the module and the key of the parameter. Where the parameters of the module have
different names, both ways leave the same registry behind (`Registry.keys_agree`). To a parameter of
the kind that is written it is the same write altogether. A write of the other kind is refused by
name, and stores nothing through the key.

The result of writing a number through a key is the number, limited to the range, whatever the kind
of the parameter. So it is what is read right after exactly if the parameter is a scalar or the
result is zero, which is what an array reads as (`Registry.Agree.read_iff`).
-/

namespace ParticleDynamics

variable {α : Type}

/-! ## Keys -/

/-- The keys of declarations are their places. -/
theorem ParamKey.mem_ofDecls_iff {decls : List (ParamDecl α)} {key : ParamKey α} :
    key ∈ ParamKey.ofDecls decls ↔ decls[key.index]? = some key.decl := by
  rw [ParamKey.ofDecls, List.mem_map]
  constructor
  · rintro ⟨⟨decl, index⟩, hentry, rfl⟩
    exact List.mem_zipIdx_iff_getElem?.1 hentry
  · exact fun hdecl => ⟨(key.decl, key.index), List.mem_zipIdx_iff_getElem?.2 hdecl, rfl⟩

/-- Where names are different every declaration is the first one of its name. -/
theorem ParamDecl.firstIn_of_nodup {decls : List (ParamDecl α)} {index : Nat} {decl : ParamDecl α}
    (hnames : (decls.map ParamDecl.name).Nodup) (hdecl : decls[index]? = some decl) :
    ParamDecl.FirstIn decls index decl := by
  refine ⟨hdecl, fun earlier hlt other hother hname => ?_⟩
  have hbound : index < (decls.map ParamDecl.name).length := by
    rw [List.length_map]
    exact (List.getElem?_eq_some_iff.1 hdecl).1
  have hsame : (decls.map ParamDecl.name)[earlier]? = (decls.map ParamDecl.name)[index]? := by
    rw [List.getElem?_map, List.getElem?_map, hother, hdecl]
    exact congrArg some hname
  exact Nat.ne_of_lt hlt ((List.getElem?_inj (Nat.lt_trans hlt hbound) hnames).1 hsame)

/-- **A declaration that is the first one of its name is found if it is of the wanted kind**, and
the name is refused otherwise. -/
theorem Entry.paramIndex_of_firstIn {entry : Entry α} {index : Nat} {decl : ParamDecl α}
    (hfirst : ParamDecl.FirstIn entry.module.params index decl) (kind : ParamKind) :
    entry.paramIndex decl.name kind =
      if decl.kind = kind then .ok index
      else .error (.paramKind entry.module.name decl.name) := by
  rw [Entry.paramIndex, findIdx?_eq_some_iff_firstIn.2 ⟨decl, hfirst, rfl⟩]
  dsimp only
  rw [hfirst.1]

namespace ParamBag

variable {bag : ParamBag α} {param : Nat}

/-- A number that is written to an array changes nothing. -/
theorem writeScalar_of_array {elements : Array α}
    (h : bag.values[param]? = some (.array elements)) (stored : α) :
    bag.writeScalar param stored = bag :=
  congrArg (ParamBag.mk bag.enabled) (values_writeScalar h stored)

/-- Elements that are written to a scalar change nothing. -/
theorem writeArray_of_scalar {old : α} (h : bag.values[param]? = some (.scalar old))
    (elements : Array α) : bag.writeArray param elements = bag := by
  refine congrArg (ParamBag.mk bag.enabled) (values_writeArray (fun other hother => ?_) elements)
  cases h.symm.trans hother

/-- An array reads as zero where a number is wanted. -/
theorem scalarAt_of_array [Scalar α] {elements : Array α}
    (h : bag.values[param]? = some (.array elements)) : bag.scalarAt param = 0 := by
  rw [scalarAt, h]

end ParamBag

/-! ## Reachable registries -/

namespace Registry

/-- Where the values of the module stay the registry stays. -/
theorem rewrite_eq_self {r : Registry α} {place : Nat} {entry : Entry α}
    (hentry : r.entries[place]? = some entry) {write : ParamBag α → ParamBag α}
    (hstays : write entry.params = entry.params) : r.rewrite place write = r := by
  have hentries : (r.rewrite place write).entries = r.entries := by
    refine Array.ext_getElem? fun other => ?_
    rw [getElem?_rewrite]
    split
    next heq =>
      rw [← heq, hentry, Option.map_some, hstays]
    next => rfl
  exact congrArg (Registry.mk · r.sink) hentries

variable [Scalar α]

/-- **The modules of a reachable registry have values of their parameters.** -/
theorem Reachable.sound {r : Registry α} (h : r.Reachable) : r.Sound := by
  induction h with
  | empty => exact ⟨.nil, fun entry hentry => absurd hentry (Array.not_mem_empty entry)⟩
  | act _ hact ih => exact ih.act hact
  | detach _ ih => exact ⟨ih.names, ih.entries⟩

/-! ## Two ways to write -/

/-- What an operation leaves behind: the registry afterwards, and the same one if it is refused. -/
def after {β : Type} (r : Registry α) : Except Refusal (Change α β) → Registry α
  | .ok change => change.registry
  | .error _ => r

section Ways

variable {r : Registry α} {place : Nat} {entry : Entry α} {key : ParamKey α}

/-- What is read through a key after the values of the module were changed. -/
theorem get_rewrite (hentry : r.entries[place]? = some entry)
    (write : ParamBag α → ParamBag α) :
    Handle.get ⟨place⟩ (r.rewrite place write) key = .ok ((write entry.params).get key) := by
  have hrewritten : (r.rewrite place write).entries[place]? =
      some { entry with params := write entry.params } := by
    rw [getElem?_rewrite, if_pos rfl, hentry, Option.map_some]
  exact bind_eq_ok_iff.2 ⟨_, lift_eq_ok_iff.2 (fetch_eq_ok_iff.2 hrewritten), rfl⟩

/-- By name a number is written as through the key, if the parameter is a scalar. -/
theorem set_of_firstIn (hnames : r.names.Nodup) (hentry : r.entries[place]? = some entry)
    (hfirst : ParamDecl.FirstIn entry.module.params key.index key.decl) (value : α) :
    r.set entry.module.name key.decl.name value =
      if key.decl.kind = .scalar then Handle.set ⟨place⟩ r key value
      else .error (.paramKind entry.module.name key.decl.name) := by
  rw [Registry.set, entry_eq_ok hnames hentry]
  dsimp only [bind, Except.bind]
  rw [Entry.paramIndex_of_firstIn hfirst]
  by_cases hkind : key.decl.kind = .scalar
  · rw [if_pos hkind, if_pos hkind]
    rfl
  · rw [if_neg hkind, if_neg hkind]

/-- By name elements are written as through the key, if the parameter is an array. -/
theorem setArray_of_firstIn (hnames : r.names.Nodup) (hentry : r.entries[place]? = some entry)
    (hfirst : ParamDecl.FirstIn entry.module.params key.index key.decl) (elements : Array α) :
    r.setArray entry.module.name key.decl.name elements =
      if key.decl.kind = .array then .ok (Handle.setArray ⟨place⟩ r key elements)
      else .error (.paramKind entry.module.name key.decl.name) := by
  rw [Registry.setArray, entry_eq_ok hnames hentry]
  dsimp only [bind, Except.bind]
  rw [Entry.paramIndex_of_firstIn hfirst]
  by_cases hkind : key.decl.kind = .array
  · rw [if_pos hkind, if_pos hkind]
    rfl
  · rw [if_neg hkind, if_neg hkind]

/-- What a number comes to that is written through a key. -/
theorem setKey_eq_ok_iff (hentry : r.entries[place]? = some entry)
    (hdecl : entry.module.params[key.index]? = some key.decl) {value : α} {change : Change α α} :
    Handle.set ⟨place⟩ r key value = .ok change ↔
      ∃ stored, key.decl.clamp value = .ok stored ∧
        change = ⟨stored, r.rewrite place (·.writeScalar key.index stored),
          (r.rewrite place (·.writeScalar key.index stored)).pushBlock place⟩ := by
  rw [Handle.set, writeScalarAt_eq_ok_iff hentry]
  constructor
  · rintro ⟨decl, stored, hdecl', hclamp, hchange⟩
    obtain rfl := Option.some.inj (hdecl.symm.trans hdecl')
    exact ⟨stored, hclamp, hchange⟩
  · rintro ⟨stored, hclamp, hchange⟩
    exact ⟨key.decl, stored, hdecl, hclamp, hchange⟩

/-- **A number is not stored in an array.** The write is clamped, pushed and answered as if it had
been stored, and this is where the two ways of reading it back part. -/
theorem setKey_of_array (hsound : entry.Sound) (hentry : r.entries[place]? = some entry)
    (hdecl : entry.module.params[key.index]? = some key.decl) (hkind : key.decl.kind = .array)
    {value : α} {change : Change α α} (h : Handle.set ⟨place⟩ r key value = .ok change) :
    change.registry = r ∧ change.pushes = r.pushBlock place := by
  obtain ⟨stored, -, rfl⟩ := (setKey_eq_ok_iff hentry hdecl).1 h
  obtain ⟨elements, hvalue⟩ := hsound.exists_array hdecl hkind
  have hstays : r.rewrite place (·.writeScalar key.index stored) = r :=
    rewrite_eq_self hentry (ParamBag.writeScalar_of_array hvalue stored)
  exact ⟨hstays, congrArg (·.pushBlock place) hstays⟩

/-- **Elements are not stored in a scalar.** -/
theorem setArrayKey_of_scalar (hsound : entry.Sound) (hentry : r.entries[place]? = some entry)
    (hdecl : entry.module.params[key.index]? = some key.decl) (hkind : key.decl.kind = .scalar)
    (elements : Array α) : (Handle.setArray ⟨place⟩ r key elements).registry = r := by
  obtain ⟨old, hvalue⟩ := hsound.exists_scalar hdecl hkind
  have hstays : r.rewrite place (·.writeArray key.index elements) = r :=
    rewrite_eq_self hentry (ParamBag.writeArray_of_scalar hvalue elements)
  exact hstays

/-- **The result of a write is what is read right after** exactly if the parameter is a scalar or
the result is zero. -/
theorem get_setKey_iff (hsound : entry.Sound) (hentry : r.entries[place]? = some entry)
    (hdecl : entry.module.params[key.index]? = some key.decl) {value : α} {change : Change α α}
    (h : Handle.set ⟨place⟩ r key value = .ok change) :
    Handle.get ⟨place⟩ change.registry key = .ok change.result ↔
      key.decl.kind = .scalar ∨ change.result = 0 := by
  obtain ⟨stored, -, rfl⟩ := (setKey_eq_ok_iff hentry hdecl).1 h
  dsimp only
  rw [get_rewrite hentry, Except.ok.injEq, ParamBag.get]
  cases hkind : key.decl.kind with
  | scalar =>
    obtain ⟨old, hold⟩ := hsound.exists_scalar hdecl hkind
    simp [ParamBag.scalarAt_writeScalar hold]
  | array =>
    obtain ⟨elements, hvalue⟩ := hsound.exists_array hdecl hkind
    rw [ParamBag.writeScalar_of_array hvalue, ParamBag.scalarAt_of_array hvalue]
    simp [eq_comm]

/-- **Writing a number leaves the same registry in both ways**, also where it is refused. By name
the kind is checked before anything is written, and by key it is not, so the two are refused for
different reasons. -/
theorem after_setKey (hnames : r.names.Nodup) (hsound : entry.Sound)
    (hentry : r.entries[place]? = some entry)
    (hfirst : ParamDecl.FirstIn entry.module.params key.index key.decl) (value : α) :
    r.after (Handle.set ⟨place⟩ r key value) =
      r.after (r.set entry.module.name key.decl.name value) := by
  rw [set_of_firstIn hnames hentry hfirst]
  cases hkind : key.decl.kind with
  | scalar => rfl
  | array =>
    -- by name it is refused, and through the key nothing is stored
    cases hwritten : Handle.set ⟨place⟩ r key value with
    | error refusal => rfl
    | ok change => exact (setKey_of_array hsound hentry hfirst.1 hkind hwritten).1

/-- **Writing elements leaves the same registry in both ways**, also where it is refused. -/
theorem after_setArrayKey (hnames : r.names.Nodup) (hsound : entry.Sound)
    (hentry : r.entries[place]? = some entry)
    (hfirst : ParamDecl.FirstIn entry.module.params key.index key.decl) (elements : Array α) :
    (Handle.setArray ⟨place⟩ r key elements).registry =
      r.after (r.setArray entry.module.name key.decl.name elements) := by
  rw [setArray_of_firstIn hnames hentry hfirst]
  cases hkind : key.decl.kind with
  | scalar => exact setArrayKey_of_scalar hsound hentry hfirst.1 hkind elements
  | array => rfl

/-- A number is not refused for a scalar, whatever its range is. -/
theorem exists_setKey (hsound : entry.Sound) (hentry : r.entries[place]? = some entry)
    (hdecl : entry.module.params[key.index]? = some key.decl) (hkind : key.decl.kind = .scalar)
    (value : α) : ∃ change, Handle.set ⟨place⟩ r key value = .ok change := by
  obtain ⟨stored, hclamp⟩ := exists_clamp hsound hdecl hkind value
  exact ⟨_, (setKey_eq_ok_iff hentry hdecl).2 ⟨stored, hclamp, rfl⟩⟩

/-- **Access through a key agrees with access by name.** -/
structure Agree (r : Registry α) (name : String) (handle : Handle) (key : ParamKey α) : Prop where
  /-- a number that is written leaves the same registry behind -/
  set : ∀ value,
    r.after (handle.set r key value) = r.after (r.set name key.decl.name value)
  /-- and so do elements -/
  setArray : ∀ elements,
    (handle.setArray r key elements).registry = r.after (r.setArray name key.decl.name elements)
  /-- for a scalar both writes of a number come to the same, and they are not refused -/
  scalar : key.decl.kind = .scalar → ∀ value, ∃ change,
    handle.set r key value = .ok change ∧ r.set name key.decl.name value = .ok change
  /-- and so do both writes of elements for an array -/
  array : key.decl.kind = .array → ∀ elements,
    r.setArray name key.decl.name elements = .ok (handle.setArray r key elements)
  /-- by name a number is refused for an array, -/
  set_refused : key.decl.kind = .array → ∀ value,
    r.set name key.decl.name value = .error (.paramKind name key.decl.name)
  /-- and elements are refused for a scalar -/
  setArray_refused : key.decl.kind = .scalar → ∀ elements,
    r.setArray name key.decl.name elements = .error (.paramKind name key.decl.name)
  /-- a number for the key of an array only pushes the block as it is -/
  set_ignored : key.decl.kind = .array → ∀ value change, handle.set r key value = .ok change →
    change.registry = r ∧ change.pushes = r.pushBlock handle.index
  /-- a number is not refused through a key without a range -/
  accepted : key.decl.range = none → ∀ value, ∃ change, handle.set r key value = .ok change
  /-- its result is the number limited to the range, -/
  result : ∀ value change, handle.set r key value = .ok change →
    key.decl.clamp value = .ok change.result
  /-- and that is what is read right after if the parameter is a scalar or the result is zero, and
  only then -/
  read_iff : ∀ value change, handle.set r key value = .ok change →
    (handle.get change.registry key = .ok change.result ↔
      key.decl.kind = .scalar ∨ change.result = 0)

end Ways

/-- **Every parameter can be written in both ways**, if the module declares no name twice. -/
theorem keys_agree {r : Registry α} (hreachable : r.Reachable) {entry : Entry α}
    (hentry : entry ∈ r.entries) (hnames : (entry.module.params.map ParamDecl.name).Nodup)
    {key : ParamKey α} (hkey : key ∈ entry.module.keys) :
    ∃ handle, r.handle entry.module.name = .ok handle ∧
      r.Agree entry.module.name handle key := by
  have hsound := hreachable.sound.entries entry hentry
  obtain ⟨place, hplace⟩ := Array.mem_iff_getElem?.1 hentry
  have hdecl : entry.module.params[key.index]? = some key.decl := ParamKey.mem_ofDecls_iff.1 hkey
  have hfirst := ParamDecl.firstIn_of_nodup hnames hdecl
  have hset := set_of_firstIn hreachable.nodup_names hplace hfirst
  have hsetArray := setArray_of_firstIn hreachable.nodup_names hplace hfirst
  -- a declaration has one kind, so one of the two ways of writing is refused by name
  have hother : key.decl.kind = .array → key.decl.kind ≠ .scalar := fun harray hscalar => by
    cases harray.symm.trans hscalar
  refine ⟨⟨place⟩, bind_eq_ok_iff.2 ⟨_, entry_eq_ok hreachable.nodup_names hplace, rfl⟩, ?_⟩
  exact {
    set := after_setKey hreachable.nodup_names hsound hplace hfirst
    setArray := after_setArrayKey hreachable.nodup_names hsound hplace hfirst
    scalar := fun hkind value => by
      obtain ⟨change, hchange⟩ := exists_setKey hsound hplace hdecl hkind value
      exact ⟨change, hchange, by rw [hset, if_pos hkind, hchange]⟩
    array := fun hkind elements => by rw [hsetArray, if_pos hkind]
    set_refused := fun hkind value => by rw [hset, if_neg (hother hkind)]
    set_ignored := fun hkind _ _ => setKey_of_array hsound hplace hdecl hkind
    setArray_refused := fun hkind elements => by
      rw [hsetArray, if_neg fun harray => hother harray hkind]
    accepted := fun hrange value => by
      refine ⟨_, (setKey_eq_ok_iff hplace hdecl).2 ⟨value, ?_, rfl⟩⟩
      rw [ParamDecl.clamp, hrange]
    result := fun value change h => by
      obtain ⟨stored, hclamp, rfl⟩ := (setKey_eq_ok_iff hplace hdecl).1 h
      exact hclamp
    read_iff := fun _ _ => get_setKey_iff hsound hplace hdecl }

/-! ### A number for an array -/

/-- A registry with one module. -/
def gauged : Registry Single := ⟨#[⟨gauge, ⟨true, #[.scalar 1, .array #[]]⟩⟩], none⟩

/-- The key of the array parameter of the module. -/
def spots : ParamKey Single := ⟨1, .array "spots"⟩

/-- The module is registered. -/
theorem reachable_gauged : gauged.Reachable := by
  have hact : (empty : Registry Single).act (.register gauge) = .ok ⟨(), gauged, []⟩ := by
    with_unfolding_all rfl
  exact .act .empty hact

/-- The parameters of the module have different names. -/
theorem nodup_gauge : (gauge.params.map ParamDecl.name).Nodup := by decide

theorem spots_mem_keys : spots ∈ gauge.keys := ParamKey.mem_ofDecls_iff.2 rfl

/-- **A number that is written through the key of an array** is the result, but what is read right
after is zero. -/
theorem get_set_spots : gauged.Reachable ∧ (gauge.params.map ParamDecl.name).Nodup ∧
    spots ∈ gauge.keys ∧ ∃ handle change, gauged.handle "gauge" = .ok handle ∧
      handle.set gauged spots 1 = .ok change ∧ change.result = 1 ∧
      handle.get change.registry spots = .ok 0 ∧
      handle.get change.registry spots ≠ .ok change.result := by
  refine ⟨reachable_gauged, nodup_gauge, spots_mem_keys, ⟨0⟩, ⟨1, gauged, []⟩, ?_, ?_, rfl, rfl, ?_⟩
  · with_unfolding_all rfl
  · with_unfolding_all rfl
  · intro h
    exact absurd (Except.ok.inj h) (by decide : (0 : Single) ≠ 1)

theorem agree_spots : gauged.Reachable ∧
    ∃ entry ∈ gauged.entries, (entry.module.params.map ParamDecl.name).Nodup ∧
      spots ∈ entry.module.keys ∧ ∃ handle, gauged.handle entry.module.name = .ok handle ∧
      gauged.Agree entry.module.name handle spots := by
  have hentry : ⟨gauge, ⟨true, #[.scalar 1, .array #[]]⟩⟩ ∈ gauged.entries :=
    Array.mem_singleton.2 rfl
  exact ⟨reachable_gauged, _, hentry, nodup_gauge, spots_mem_keys,
    keys_agree reachable_gauged hentry nodup_gauge spots_mem_keys⟩

end Registry

end ParticleDynamics
