import ParticleDynamics.Proofs.Registry.InPlace

/-!
# What an action does to the values of the parameters

A write to a parameter names it by its name or by its place in the declarations of a module.
`Module.Stores` says what it stores there, and an action that is not refused stores just that: the
other values of the module stay, and so do the other modules (`Registry.entry_of_act`).

A name is looked up by `Registry.entry` and `Entry.paramIndex`, which find the module of a name and
the first parameter of a name. The modules of a registry that came about by actions have different
names, so each of them can be addressed.
-/

namespace ParticleDynamics

variable {α : Type}

/-! ## Finding a parameter -/

/-- A declaration at a place that is the first one of its name. -/
def ParamDecl.FirstIn (decls : List (ParamDecl α)) (index : Nat) (decl : ParamDecl α) : Prop :=
  decls[index]? = some decl ∧ ∀ earlier < index, ∀ other ∈ decls[earlier]?, other.name ≠ decl.name

/-- A name has one first declaration. -/
theorem ParamDecl.FirstIn.unique {decls : List (ParamDecl α)} {index index' : Nat}
    {decl decl' : ParamDecl α} (h : FirstIn decls index decl) (h' : FirstIn decls index' decl')
    (hname : decl.name = decl'.name) : index = index' ∧ decl = decl' := by
  have hindex : index = index' := by
    rcases Nat.lt_trichotomy index index' with hlt | heq | hgt
    · exact absurd hname (h'.2 index hlt decl h.1)
    · exact heq
    · exact absurd hname.symm (h.2 index' hgt decl' h'.1)
  subst hindex
  exact ⟨rfl, Option.some.inj (h.1.symm.trans h'.1)⟩

theorem findIdx?_eq_some_iff_firstIn {decls : List (ParamDecl α)} {name : String} {index : Nat} :
    (decls.findIdx? fun decl => decl.name = name) = some index ↔
      ∃ decl, ParamDecl.FirstIn decls index decl ∧ decl.name = name := by
  rw [List.findIdx?_eq_some_iff_getElem]
  constructor
  · rintro ⟨hlt, hname, hearlier⟩
    refine ⟨decls[index], ⟨List.getElem?_eq_getElem hlt, fun earlier hle other hother => ?_⟩,
      of_decide_eq_true hname⟩
    obtain ⟨hlt', rfl⟩ := List.getElem?_eq_some_iff.1 hother
    rw [of_decide_eq_true hname]
    simpa using hearlier earlier hle
  · rintro ⟨decl, ⟨hdecl, hearlier⟩, rfl⟩
    obtain ⟨hlt, rfl⟩ := List.getElem?_eq_some_iff.1 hdecl
    refine ⟨hlt, by simp, fun earlier hle => ?_⟩
    simpa using hearlier earlier hle _ (List.getElem?_eq_getElem (Nat.lt_trans hle hlt))

/-- **A parameter is found under its name and kind**, unless another of its name comes before. -/
theorem Entry.paramIndex_eq_ok_iff {entry : Entry α} {name : String} {kind : ParamKind}
    {index : Nat} : entry.paramIndex name kind = .ok index ↔
      ∃ decl, ParamDecl.FirstIn entry.module.params index decl ∧ decl.name = name ∧
        decl.kind = kind := by
  unfold Entry.paramIndex
  constructor
  · intro h
    split at h
    next found hfound =>
      obtain ⟨decl, hfirst, hname⟩ := findIdx?_eq_some_iff_firstIn.1 hfound
      rw [hfirst.1] at h
      dsimp only at h
      split at h
      next hkind =>
        obtain rfl := Except.ok.inj h
        exact ⟨decl, hfirst, hname, hkind⟩
      next => cases h
    next => cases h
  · rintro ⟨decl, hfirst, hname, hkind⟩
    rw [findIdx?_eq_some_iff_firstIn.2 ⟨decl, hfirst, hname⟩]
    dsimp only
    rw [hfirst.1]
    exact if_pos hkind

namespace Registry

variable {r : Registry α} {name : String} {place : Nat} {entry : Entry α}

/-- A module that is found is there, under its name. -/
theorem of_entry_eq_ok (h : r.entry name = .ok (place, entry)) :
    r.entries[place]? = some entry ∧ entry.module.name = name := by
  unfold Registry.entry at h
  split at h
  next index hindex =>
    split at h
    next found hfound =>
      obtain ⟨rfl, rfl⟩ := Prod.mk.inj (Except.ok.inj h)
      obtain ⟨hlt, hname, -⟩ := Array.findIdx?_eq_some_iff_getElem.1 hindex
      rw [Array.getElem?_eq_getElem hlt] at hfound
      obtain rfl := Option.some.inj hfound
      exact ⟨Array.getElem?_eq_getElem hlt, of_decide_eq_true hname⟩
    next => cases h
  next => cases h

/-- A module that has a place is one of the modules. -/
theorem mem_modules_of_entry (h : r.entries[place]? = some entry) : entry.module ∈ r.modules :=
  List.mem_map_of_mem (Array.mem_toList_iff.2 (Array.mem_of_getElem? h))

/-- The handle of a module leads to it. -/
theorem of_handle_eq_ok (h : r.handle name = .ok ⟨place⟩) :
    ∃ entry, r.entries[place]? = some entry ∧ entry.module.name = name := by
  obtain ⟨⟨place', entry⟩, hfound, hhandle⟩ := bind_eq_ok_iff.1 h
  cases hhandle
  exact ⟨entry, of_entry_eq_ok hfound⟩

/-- The name at a place is that of the module there. -/
theorem getElem?_names (r : Registry α) (place : Nat) :
    r.names[place]? = r.entries[place]?.map fun entry => entry.module.name := by
  simp [names, modules, Function.comp_def]

/-- **A module is found under its name**, where names are different. -/
theorem entry_eq_ok (hnames : r.names.Nodup) (h : r.entries[place]? = some entry) :
    r.entry entry.module.name = .ok (place, entry) := by
  obtain ⟨hlt, hentry⟩ := Array.getElem?_eq_some_iff.1 h
  have hposition : r.position? entry.module.name = some place := by
    refine Array.findIdx?_eq_some_iff_getElem.2 ⟨hlt, by simp [hentry], fun earlier hle hsame => ?_⟩
    have hearlier := Array.getElem?_eq_getElem (Nat.lt_trans hle hlt)
    have heq : r.names[place]? = r.names[earlier]? := by
      rw [getElem?_names, getElem?_names, h, hearlier, Option.map_some, Option.map_some,
        of_decide_eq_true hsame]
    have hbound : place < r.names.length := by simpa [names, modules] using hlt
    exact Nat.ne_of_gt hle ((List.getElem?_inj hbound hnames).1 heq)
  rw [Registry.entry, hposition]
  dsimp only
  rw [h]

end Registry

/-! ## What an action stores -/

variable [Scalar α]

open Registry (Action Watched)

/-- **What an action stores in the parameters of a module**: a value of the parameter's own kind,
limited to its range. By name only the first parameter of a name is written. A write through a key
of the other kind stores nothing. -/
inductive Module.Stores (m : Module α) : Action α → Nat → ParamValue α → Prop where
  /-- a scalar is written by name -/
  | set {index : Nat} {decl : ParamDecl α} {value stored : α}
      (hfirst : ParamDecl.FirstIn m.params index decl) (hkind : decl.kind = .scalar)
      (hclamp : decl.clamp value = .ok stored) :
      Stores m (.set m.name decl.name value) index (.scalar stored)
  /-- an array is written by name -/
  | setArray {index : Nat} {decl : ParamDecl α} (elements : Array α)
      (hfirst : ParamDecl.FirstIn m.params index decl) (hkind : decl.kind = .array) :
      Stores m (.setArray m.name decl.name elements) index (.array elements)
  /-- a scalar is written through its key -/
  | setKey {key : ParamKey α} {decl : ParamDecl α} {value stored : α}
      (hdecl : m.params[key.index]? = some decl) (hkind : decl.kind = .scalar)
      (hclamp : decl.clamp value = .ok stored) :
      Stores m (.setKey m.name key value) key.index (.scalar stored)
  /-- an array is written through its key -/
  | setArrayKey {key : ParamKey α} {decl : ParamDecl α} (elements : Array α)
      (hdecl : m.params[key.index]? = some decl) (hkind : decl.kind = .array) :
      Stores m (.setArrayKey m.name key elements) key.index (.array elements)

namespace Module

variable {m : Module α} {name param : String} {key : ParamKey α} {index : Nat}
  {written : ParamValue α}

theorem stores_set_iff {value : α} : m.Stores (.set name param value) index written ↔
    m.name = name ∧ ∃ decl stored, ParamDecl.FirstIn m.params index decl ∧ decl.name = param ∧
      decl.kind = .scalar ∧ decl.clamp value = .ok stored ∧ written = .scalar stored := by
  constructor
  · intro h
    cases h with
    | set hfirst hkind hclamp => exact ⟨rfl, _, _, hfirst, rfl, hkind, hclamp, rfl⟩
  · rintro ⟨rfl, decl, stored, hfirst, rfl, hkind, hclamp, rfl⟩
    exact .set hfirst hkind hclamp

theorem stores_setArray_iff {elements : Array α} :
    m.Stores (.setArray name param elements) index written ↔
      m.name = name ∧ ∃ decl, ParamDecl.FirstIn m.params index decl ∧ decl.name = param ∧
        decl.kind = .array ∧ written = .array elements := by
  constructor
  · intro h
    cases h with
    | setArray _ hfirst hkind => exact ⟨rfl, _, hfirst, rfl, hkind, rfl⟩
  · rintro ⟨rfl, decl, hfirst, rfl, hkind, rfl⟩
    exact .setArray elements hfirst hkind

theorem stores_setKey_iff {value : α} : m.Stores (.setKey name key value) index written ↔
    m.name = name ∧ index = key.index ∧ ∃ decl stored, m.params[key.index]? = some decl ∧
      decl.kind = .scalar ∧ decl.clamp value = .ok stored ∧ written = .scalar stored := by
  constructor
  · intro h
    cases h with
    | setKey hdecl hkind hclamp => exact ⟨rfl, rfl, _, _, hdecl, hkind, hclamp, rfl⟩
  · rintro ⟨rfl, rfl, decl, stored, hdecl, hkind, hclamp, rfl⟩
    exact .setKey hdecl hkind hclamp

theorem stores_setArrayKey_iff {elements : Array α} :
    m.Stores (.setArrayKey name key elements) index written ↔
      m.name = name ∧ index = key.index ∧ ∃ decl, m.params[key.index]? = some decl ∧
        decl.kind = .array ∧ written = .array elements := by
  constructor
  · intro h
    cases h with
    | setArrayKey _ hdecl hkind => exact ⟨rfl, rfl, _, hdecl, hkind, rfl⟩
  · rintro ⟨rfl, rfl, decl, hdecl, hkind, rfl⟩
    exact .setArrayKey elements hdecl hkind

end Module

/-- A value that a parameter can have: of its kind, and limited to its range. -/
def ParamDecl.Allows (decl : ParamDecl α) : ParamValue α → Prop
  | .scalar stored => decl.kind = .scalar ∧ ∃ value, decl.clamp value = .ok stored
  | .array _ => decl.kind = .array

/-- **An entry whose values are those of its declarations**: one for each of them, and of its
kind. -/
structure Entry.Sound (entry : Entry α) : Prop where
  /-- every parameter has a value -/
  value : ∀ (index : Nat) (decl : ParamDecl α), entry.module.params[index]? = some decl →
    ∃ value, entry.params.values[index]? = some value
  /-- every value is one that its parameter allows -/
  decl : ∀ (index : Nat) (value : ParamValue α), entry.params.values[index]? = some value →
    ∃ decl : ParamDecl α, entry.module.params[index]? = some decl ∧ decl.Allows value

/-- What is stored is allowed. -/
theorem Module.Stores.allows {m : Module α} {action : Action α} {index : Nat} {value : ParamValue α}
    (h : m.Stores action index value) :
    ∃ decl : ParamDecl α, m.params[index]? = some decl ∧ decl.Allows value := by
  cases h with
  | set hfirst hkind hclamp => exact ⟨_, hfirst.1, hkind, _, hclamp⟩
  | setArray elements hfirst hkind => exact ⟨_, hfirst.1, hkind⟩
  | setKey hdecl hkind hclamp => exact ⟨_, hdecl, hkind, _, hclamp⟩
  | setArrayKey elements hdecl hkind => exact ⟨_, hdecl, hkind⟩

/-- **Values before and after an action**: what the action stores is there, and everything else is
as before. -/
def Module.Overwrites (m : Module α) (action : Action α) (before after : ParamBag α) : Prop :=
  ∀ index value, after.values[index]? = some value ↔ m.Stores action index value ∨
    before.values[index]? = some value ∧ ∀ other, ¬m.Stores action index other

section Overwrites

variable {m : Module α} {action : Action α} {before after : ParamBag α}

/-- Where nothing is stored nothing changes. -/
theorem overwrites_of_not_stores (hvalues : after.values = before.values)
    (hnone : ∀ index value, ¬m.Stores action index value) : m.Overwrites action before after := by
  intro index value
  simp [hvalues, hnone]

/-- Where one value is stored the others stay. -/
theorem overwrites_of_stores_iff {place : Nat} {stored : ParamValue α}
    (hstores : ∀ index value, m.Stores action index value ↔ index = place ∧ value = stored)
    (hvalues : ∀ index, after.values[index]? =
      if place = index then some stored else before.values[index]?) :
    m.Overwrites action before after := by
  intro index value
  rw [hvalues]
  by_cases hplace : place = index
  · subst hplace
    simp [hstores, eq_comm]
  · simp [hstores, hplace, Ne.symm hplace]

end Overwrites

/-! ## One action -/

namespace ParamBag

omit [Scalar α]

variable {bag : ParamBag α} {param : Nat}

/-- A scalar that is written is there, and everything else is as before. -/
theorem getElem?_writeScalar {old : α} (h : bag.values[param]? = some (.scalar old)) (stored : α)
    (index : Nat) : (bag.writeScalar param stored).values[index]? =
      if param = index then some (.scalar stored) else bag.values[index]? := by
  rw [writeScalar, Array.getElem?_modify]
  split
  next heq => rw [← heq, h]; rfl
  next => rfl

/-- An array is not overwritten by a scalar. -/
theorem values_writeScalar {elements : Array α} (h : bag.values[param]? = some (.array elements))
    (stored : α) : (bag.writeScalar param stored).values = bag.values := by
  refine Array.ext_getElem? fun index => ?_
  rw [writeScalar, Array.getElem?_modify]
  split
  next heq => rw [← heq, h]; rfl
  next => rfl

/-- An array that is written is there, and everything else is as before. -/
theorem getElem?_writeArray {old : Array α} (h : bag.values[param]? = some (.array old))
    (elements : Array α) (index : Nat) : (bag.writeArray param elements).values[index]? =
      if param = index then some (.array elements) else bag.values[index]? := by
  rw [writeArray, Array.getElem?_modify]
  split
  next heq => rw [← heq, h]; rfl
  next => rfl

/-- A scalar is not overwritten by an array. -/
theorem values_writeArray (h : ∀ old, bag.values[param]? ≠ some (.array old))
    (elements : Array α) : (bag.writeArray param elements).values = bag.values := by
  refine Array.ext_getElem? fun index => ?_
  rw [writeArray, Array.getElem?_modify]
  split
  next heq =>
    rw [← heq]
    cases hvalue : bag.values[param]? with
    | none => rfl
    | some value =>
      cases value with
      | scalar value => rfl
      | array old => exact absurd hvalue (h old)
  next => rfl

end ParamBag

namespace Entry.Sound

variable {entry : Entry α} {param : Nat} {decl : ParamDecl α}

/-- The value of a parameter is one that it allows. -/
theorem exists_value (h : entry.Sound) (hdecl : entry.module.params[param]? = some decl) :
    ∃ value, entry.params.values[param]? = some value ∧ decl.Allows value := by
  obtain ⟨value, hvalue⟩ := h.value param decl hdecl
  obtain ⟨decl', hdecl', hallows⟩ := h.decl param value hvalue
  obtain rfl := Option.some.inj (hdecl.symm.trans hdecl')
  exact ⟨value, hvalue, hallows⟩

/-- A scalar parameter has a number. -/
theorem exists_scalar (h : entry.Sound) (hdecl : entry.module.params[param]? = some decl)
    (hkind : decl.kind = .scalar) :
    ∃ value, entry.params.values[param]? = some (.scalar value) := by
  obtain ⟨value, hvalue, hallows⟩ := h.exists_value hdecl
  cases value with
  | scalar value => exact ⟨value, hvalue⟩
  | array elements => cases hkind.symm.trans hallows

/-- An array parameter has elements. -/
theorem exists_array (h : entry.Sound) (hdecl : entry.module.params[param]? = some decl)
    (hkind : decl.kind = .array) :
    ∃ elements, entry.params.values[param]? = some (.array elements) := by
  obtain ⟨value, hvalue, hallows⟩ := h.exists_value hdecl
  cases value with
  | scalar value => cases hkind.symm.trans hallows.1
  | array elements => exact ⟨elements, hvalue⟩

end Entry.Sound

/-- The name of the module that an action is about. -/
def Registry.Action.name? : Action α → Option String
  | .register m => some m.name
  | .set name _ _ | .setArray name _ _ | .setEnabled name _ | .setKey name _ _
  | .setArrayKey name _ _ | .enable name _ => some name
  | .attach _ => none

/-- An action stores something in the module that it is about. -/
theorem Module.Stores.name?_eq {m : Module α} {action : Action α} {index : Nat}
    {value : ParamValue α} (h : m.Stores action index value) : action.name? = some m.name := by
  cases h <;> rfl

namespace Registry

variable {r : Registry α} {place param : Nat} {entry : Entry α} {action : Action α}
  {change : Change α Unit}

/-- The modules have different names, and each of their parameters has a value. -/
structure Sound (r : Registry α) : Prop where
  names : r.names.Nodup
  entries : ∀ entry ∈ r.entries, entry.Sound

/-- **An action that changes the values of one module**, by storing what it is to store there. -/
def Rewrites (r : Registry α) (action : Action α) (rewritten : Registry α) : Prop :=
  ∃ place entry write, r.entries[place]? = some entry ∧ rewritten = r.rewrite place write ∧
    action.name? = some entry.module.name ∧
    entry.module.Overwrites action entry.params (write entry.params)

theorem rewrites_enableAt (hentry : r.entries[place]? = some entry) (enabled : Bool)
    (hname : action.name? = some entry.module.name)
    (hstores : ∀ index value, ¬entry.module.Stores action index value) :
    r.Rewrites action (r.enableAt place enabled).registry :=
  ⟨place, entry, (·.enable enabled), hentry, rfl, hname, overwrites_of_not_stores rfl hstores⟩

theorem rewrites_writeArrayAt (hsound : r.Sound) (hentry : r.entries[place]? = some entry)
    {elements : Array α} (hname : action.name? = some entry.module.name)
    (hstores : ∀ index value, entry.module.Stores action index value ↔ index = param ∧
      ∃ decl : ParamDecl α, entry.module.params[param]? = some decl ∧ decl.kind = .array ∧
        value = .array elements) :
    r.Rewrites action (r.writeArrayAt place param elements).registry := by
  have hvalues := hsound.entries entry (Array.mem_of_getElem? hentry)
  refine ⟨place, entry, (·.writeArray param elements), hentry, rfl, hname, ?_⟩
  by_cases hkind : ∃ decl : ParamDecl α, entry.module.params[param]? = some decl ∧
    decl.kind = .array
  · obtain ⟨decl, hdecl, hkind⟩ := hkind
    obtain ⟨old, hold⟩ := hvalues.exists_array hdecl hkind
    refine overwrites_of_stores_iff (fun index value => ?_) (ParamBag.getElem?_writeArray hold _)
    rw [hstores]
    exact and_congr_right fun _ =>
      ⟨fun ⟨_, _, _, hvalue⟩ => hvalue, fun hvalue => ⟨decl, hdecl, hkind, hvalue⟩⟩
  · refine overwrites_of_not_stores (ParamBag.values_writeArray (fun old hold => ?_) _)
      fun index value h => ?_
    · exact hkind (hvalues.decl param _ hold)
    · obtain ⟨-, decl, hdecl, harray, -⟩ := (hstores index value).1 h
      exact hkind ⟨decl, hdecl, harray⟩

/-- A result that may only break off is passed on as it is. -/
theorem lift_eq_ok_iff {β : Type} {result : Except Breach β} {found : β} :
    Refusal.lift result = .ok found ↔ result = .ok found := by
  cases result with
  | error cause => exact ⟨nofun, nofun⟩
  | ok other => rw [Refusal.lift, Except.ok.injEq, Except.ok.injEq]

/-- **What a scalar write comes to**: the value is limited to the range of the declaration. It fails
where there is no such declaration, or where the range itself is no range. -/
theorem writeScalarAt_eq_ok_iff {change : Change α α} {value : α}
    (hentry : r.entries[place]? = some entry) : r.writeScalarAt place param value = .ok change ↔
      ∃ (decl : ParamDecl α) (stored : α), entry.module.params[param]? = some decl ∧
        decl.clamp value = .ok stored ∧
        change = ⟨stored, r.rewrite place (·.writeScalar param stored),
          (r.rewrite place (·.writeScalar param stored)).pushBlock place⟩ := by
  rw [writeScalarAt]
  constructor
  · intro h
    obtain ⟨found, hfound, hrest⟩ := bind_eq_ok_iff.1 h
    rw [lift_eq_ok_iff, fetch_eq_ok_iff, hentry] at hfound
    obtain rfl := Option.some.inj hfound
    obtain ⟨decl, hdecl, hrest⟩ := bind_eq_ok_iff.1 hrest
    rw [lift_eq_ok_iff, fetch_eq_ok_iff, List.getElem?_toArray] at hdecl
    obtain ⟨stored, hstored, hchange⟩ := bind_eq_ok_iff.1 hrest
    exact ⟨decl, stored, hdecl, lift_eq_ok_iff.1 hstored, (Except.ok.inj hchange).symm⟩
  · rintro ⟨decl, stored, hdecl, hstored, rfl⟩
    have hfound : fetch r.entries place = .ok entry := fetch_eq_ok_iff.2 hentry
    have hdecl' : fetch entry.module.params.toArray param = .ok decl := by
      rw [fetch_eq_ok_iff, List.getElem?_toArray, hdecl]
    exact bind_eq_ok_iff.2 ⟨entry, lift_eq_ok_iff.2 hfound, bind_eq_ok_iff.2
      ⟨decl, lift_eq_ok_iff.2 hdecl', bind_eq_ok_iff.2 ⟨stored, lift_eq_ok_iff.2 hstored, rfl⟩⟩⟩

theorem rewrites_writeScalarAt {change : Change α α} {value : α} (hsound : r.Sound)
    (hentry : r.entries[place]? = some entry)
    (h : r.writeScalarAt place param value = .ok change)
    (hname : action.name? = some entry.module.name)
    (hstores : ∀ index written, entry.module.Stores action index written ↔ index = param ∧
      ∃ (decl : ParamDecl α) (stored : α), entry.module.params[param]? = some decl ∧
        decl.kind = .scalar ∧ decl.clamp value = .ok stored ∧ written = .scalar stored) :
    r.Rewrites action change.registry := by
  obtain ⟨decl, stored, hdecl, hclamp, rfl⟩ := (writeScalarAt_eq_ok_iff hentry).1 h
  have hvalues := hsound.entries entry (Array.mem_of_getElem? hentry)
  refine ⟨place, entry, (·.writeScalar param stored), hentry, rfl, hname, ?_⟩
  cases hkind : decl.kind with
  | scalar =>
    obtain ⟨old, hold⟩ := hvalues.exists_scalar hdecl hkind
    refine overwrites_of_stores_iff (fun index value => ?_) (ParamBag.getElem?_writeScalar hold _)
    rw [hstores]
    refine and_congr_right fun _ => ⟨?_, fun hvalue => ⟨decl, stored, hdecl, hkind, hclamp, hvalue⟩⟩
    rintro ⟨decl', stored', hdecl', -, hclamp', rfl⟩
    obtain rfl := Option.some.inj (hdecl.symm.trans hdecl')
    rw [Except.ok.inj (hclamp.symm.trans hclamp')]
  | array =>
    obtain ⟨old, hold⟩ := hvalues.exists_array hdecl hkind
    refine overwrites_of_not_stores (ParamBag.values_writeScalar hold _) fun index value h => ?_
    obtain ⟨-, decl', -, hdecl', hkind', -⟩ := (hstores index value).1 h
    obtain rfl := Option.some.inj (hdecl.symm.trans hdecl')
    cases hkind.symm.trans hkind'

/-- **A write by names** changes the values of one module. The place it writes at is the first of the
parameters of this name, and no other place is said to be written. -/
theorem rewrites_set {name param : String} {value : α} {change : Change α Unit} (hsound : r.Sound)
    (hact : r.act (.set name param value) = .ok change) :
    r.Rewrites (.set name param value) change.registry := by
  obtain ⟨written, hwritten, hchange⟩ := bind_eq_ok_iff.1 hact
  obtain ⟨⟨place, entry⟩, hfound, hwritten⟩ := bind_eq_ok_iff.1 hwritten
  obtain ⟨index, hindex, hwritten⟩ := bind_eq_ok_iff.1 hwritten
  obtain ⟨hentry, hname⟩ := of_entry_eq_ok hfound
  cases hchange
  obtain ⟨decl, hfirst, hparam, -⟩ := Entry.paramIndex_eq_ok_iff.1 hindex
  refine rewrites_writeScalarAt hsound hentry hwritten (hname ▸ rfl) fun other stored => ?_
  rw [Module.stores_set_iff, and_iff_right hname]
  constructor
  · -- the action goes by the name: the first place is the only one of which it speaks
    rintro ⟨decl', stored', hfirst', hparam', hkind, hclamp, rfl⟩
    obtain ⟨rfl, rfl⟩ := hfirst'.unique hfirst (hparam'.trans hparam.symm)
    exact ⟨rfl, _, _, hfirst.1, hkind, hclamp, rfl⟩
  · -- the write goes by the place: its declaration is the one that has been found
    rintro ⟨rfl, decl', stored', hdecl, hkind, hclamp, rfl⟩
    obtain rfl := Option.some.inj (hfirst.1.symm.trans hdecl)
    exact ⟨_, _, hfirst, hparam, hkind, hclamp, rfl⟩

/-- **A write of an array by names**, in the same way. A parameter that is no array is refused before,
so what is found is one. -/
theorem rewrites_setArray {name param : String} {elements : Array α} {change : Change α Unit}
    (hsound : r.Sound) (hact : r.act (.setArray name param elements) = .ok change) :
    r.Rewrites (.setArray name param elements) change.registry := by
  obtain ⟨⟨place, entry⟩, hfound, hwritten⟩ := bind_eq_ok_iff.1 hact
  obtain ⟨index, hindex, hchange⟩ := bind_eq_ok_iff.1 hwritten
  obtain ⟨hentry, hname⟩ := of_entry_eq_ok hfound
  cases hchange
  obtain ⟨decl, hfirst, hparam, hkind⟩ := Entry.paramIndex_eq_ok_iff.1 hindex
  refine rewrites_writeArrayAt hsound hentry (hname ▸ rfl) fun other stored => ?_
  rw [Module.stores_setArray_iff, and_iff_right hname]
  constructor
  · rintro ⟨decl', hfirst', hparam', -, rfl⟩
    obtain ⟨rfl, rfl⟩ := hfirst'.unique hfirst (hparam'.trans hparam.symm)
    exact ⟨rfl, _, hfirst.1, hkind, rfl⟩
  · rintro ⟨rfl, -, -, -, rfl⟩
    exact ⟨_, hfirst, hparam, hkind, rfl⟩

/-- **What an action comes to that is not refused**: a sink is attached, a module is registered with
its initial values, or the values of one module change. -/
theorem rewrites_of_act (hsound : r.Sound) (hact : r.act action = .ok change) :
    (∃ sink, action = .attach sink ∧ change.registry.entries = r.entries) ∨
    (∃ m params, action = .register m ∧ m.name ∉ r.names ∧ ParamBag.ofDecls m.params = .ok params ∧
      change.registry.entries = r.entries.push ⟨m, params⟩) ∨
    r.Rewrites action change.registry := by
  cases action with
  | register m =>
    -- the name has been free, or the module would have been refused
    obtain ⟨hfree, params, hparams, rfl⟩ := register_eq_ok_iff.1 hact
    exact .inr (.inl ⟨m, params, rfl, notMem_names (Bool.eq_false_iff.1 hfree), hparams, rfl⟩)
  | set name param value => exact .inr (.inr (rewrites_set hsound hact))
  | setArray name param elements => exact .inr (.inr (rewrites_setArray hsound hact))
  | setEnabled name enabled =>
    -- no value of a parameter changes here, and no action of this kind is said to store one
    obtain ⟨⟨place, entry⟩, hfound, hchange⟩ := bind_eq_ok_iff.1 hact
    obtain ⟨hentry, hname⟩ := of_entry_eq_ok hfound
    cases hchange
    exact .inr (.inr (rewrites_enableAt hentry enabled (hname ▸ rfl) nofun))
  | setKey name key value =>
    -- a key has its place with it, which is what the action is said to store at
    obtain ⟨⟨place⟩, hhandle, hset⟩ := bind_eq_ok_iff.1 hact
    obtain ⟨written, hwritten, hchange⟩ := bind_eq_ok_iff.1 hset
    obtain ⟨entry, hentry, hname⟩ := of_handle_eq_ok hhandle
    cases hchange
    refine .inr (.inr (rewrites_writeScalarAt hsound hentry hwritten (hname ▸ rfl)
      fun other stored => ?_))
    rw [Module.stores_setKey_iff, and_iff_right hname]
  | setArrayKey name key elements =>
    obtain ⟨⟨place⟩, hhandle, hchange⟩ := bind_eq_ok_iff.1 hact
    obtain ⟨entry, hentry, hname⟩ := of_handle_eq_ok hhandle
    cases hchange
    refine .inr (.inr (rewrites_writeArrayAt hsound hentry (hname ▸ rfl)
      fun other stored => ?_))
    rw [Module.stores_setArrayKey_iff, and_iff_right hname]
  | enable name enabled =>
    obtain ⟨⟨place⟩, hhandle, hchange⟩ := bind_eq_ok_iff.1 hact
    obtain ⟨entry, hentry, hname⟩ := of_handle_eq_ok hhandle
    cases hchange
    exact .inr (.inr (rewrites_enableAt hentry enabled (hname ▸ rfl) nofun))
  | attach sink =>
    obtain rfl := Except.ok.inj hact
    exact .inl ⟨sink, rfl, rfl⟩

/-- An initial value is one that the parameter allows. -/
theorem allows_of_initial {decl : ParamDecl α} {value : ParamValue α}
    (h : ParamBag.initial decl = .ok value) : decl.Allows value := by
  unfold ParamBag.initial at h
  split at h
  next hkind =>
    cases hclamp : decl.clamp decl.default with
    | error cause => rw [hclamp] at h; cases h
    | ok stored =>
      rw [hclamp] at h
      obtain rfl := Except.ok.inj h
      exact ⟨hkind, _, hclamp⟩
  next hkind =>
    obtain rfl := Except.ok.inj h
    exact hkind

/-- A parameter that has a value when its module is registered has its initial one. -/
theorem exists_initial {decls : List (ParamDecl α)} {params : ParamBag α} {index : Nat}
    {value : ParamValue α} (hparams : ParamBag.ofDecls decls = .ok params)
    (hvalue : params.values[index]? = some value) :
    ∃ decl : ParamDecl α, decls[index]? = some decl ∧ ParamBag.initial decl = .ok value := by
  have hinitial := ParamBag.map_initial_of_ofDecls hparams index
  rwa [hvalue, Option.map_some, Option.map_eq_some_iff] at hinitial

/-- A module starts with values of its parameters. -/
theorem sound_of_ofDecls {m : Module α} {params : ParamBag α}
    (hparams : ParamBag.ofDecls m.params = .ok params) : Entry.Sound ⟨m, params⟩ where
  value index decl hdecl := by
    have hinitial := ParamBag.map_initial_of_ofDecls hparams index
    rw [hdecl, Option.map_some] at hinitial
    obtain ⟨value, hvalue, -⟩ := Option.map_eq_some_iff.1 hinitial.symm
    exact ⟨value, hvalue⟩
  decl index value hvalue := by
    obtain ⟨decl, hdecl, hinitial⟩ := exists_initial hparams hvalue
    exact ⟨decl, hdecl, allows_of_initial hinitial⟩

/-- Storing values of the parameters leaves values of the parameters. -/
theorem sound_of_overwrites {after : ParamBag α} (h : entry.Sound)
    (hoverwrites : entry.module.Overwrites action entry.params after) :
    Entry.Sound ⟨entry.module, after⟩ where
  value index decl hdecl := by
    obtain ⟨value, hvalue⟩ := h.value index decl hdecl
    by_cases hstores : ∃ stored, entry.module.Stores action index stored
    · obtain ⟨stored, hstored⟩ := hstores
      exact ⟨stored, (hoverwrites index stored).2 (.inl hstored)⟩
    · exact ⟨value, (hoverwrites index value).2
        (.inr ⟨hvalue, fun other hother => hstores ⟨other, hother⟩⟩)⟩
  decl index value hvalue := by
    rcases (hoverwrites index value).1 hvalue with hstored | ⟨hold, -⟩
    · exact hstored.allows
    · exact h.decl index value hold

/-- **An action leaves each entry with its values or overwrites them**, or adds a new one. This is
the step of the runs below, and the only place where they look at single actions. -/
theorem entry_of_act (hsound : r.Sound) (hact : r.act action = .ok change) {entry' : Entry α}
    (h : change.registry.entries[place]? = some entry') :
    (∃ entry, r.entries[place]? = some entry ∧ entry'.module = entry.module ∧
      entry.module.Overwrites action entry.params entry'.params) ∨
    (entry'.module.name ∉ r.names ∧
      ParamBag.ofDecls entry'.module.params = .ok entry'.params) := by
  rcases rewrites_of_act hsound hact with ⟨sink, rfl, hentries⟩ |
    ⟨m, params, rfl, hnew, hparams, hentries⟩ |
    ⟨changed, entry, write, hentry, hrewrite, hname, hover⟩
  · rw [hentries] at h
    exact .inl ⟨entry', h, rfl, overwrites_of_not_stores rfl nofun⟩
  · rw [hentries, Array.getElem?_push] at h
    split at h
    next =>
      obtain rfl := Option.some.inj h
      exact .inr ⟨hnew, hparams⟩
    next => exact .inl ⟨entry', h, rfl, overwrites_of_not_stores rfl nofun⟩
  · rw [hrewrite, getElem?_rewrite] at h
    split at h
    next heq =>
      subst heq
      rw [hentry] at h
      obtain rfl := Option.some.inj h
      exact .inl ⟨entry, hentry, rfl, hover⟩
    next hne =>
      -- the values of another module are those of another name
      refine .inl ⟨entry', h, rfl, overwrites_of_not_stores rfl fun index value hstores => hne ?_⟩
      have hsame : entry.module.name = entry'.module.name :=
        Option.some.inj (hname.symm.trans hstores.name?_eq)
      have hfound := entry_eq_ok hsound.names hentry
      rw [hsame, entry_eq_ok hsound.names h] at hfound
      exact (Prod.mk.inj (Except.ok.inj hfound)).1.symm

/-- Every action leaves values of the parameters. -/
theorem Sound.act (hsound : r.Sound) (hact : r.act action = .ok change) :
    change.registry.Sound where
  names := nodup_names_of_act hsound.names hact
  entries entry' hmem := by
    obtain ⟨place, hentry'⟩ := Array.mem_iff_getElem?.1 hmem
    rcases entry_of_act hsound hact hentry' with ⟨entry, hentry, hmodule, hover⟩ | ⟨-, hparams⟩
    · have hold := hsound.entries entry (Array.mem_of_getElem? hentry)
      have hafter := sound_of_overwrites hold hover
      rwa [← hmodule] at hafter
    · exact sound_of_ofDecls hparams

/-- Modules stay. -/
theorem mem_modules_of_act (hact : r.act action = .ok change) {m : Module α} (h : m ∈ r.modules) :
    m ∈ change.registry.modules := by
  cases outcome_of_act hact with
  | attached sink => exact h
  | registered _ _ _ hgrown =>
    rw [modules_of_push hgrown]
    exact List.mem_append_left _ h
  | scalars _ place write _ => exact (modules_rewrite r place write).symm ▸ h
  | array _ place param elements _ =>
    exact (modules_rewrite r place (·.writeArray param elements)).symm ▸ h

end Registry

end ParticleDynamics
