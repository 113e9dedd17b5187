import ParticleDynamics.Proofs.Registry.Pushes

/-!
# What can be done to a registry

The operations on a registry are its **actions** (`Registry.Action`): those of the registry itself,
of the handle of a module, and the attachment of a sink. An action that is not refused has one of
four outcomes (`Registry.outcome_of_act`): a sink is attached, a module is registered, the values of
one module change and no array does, or one array is written.

A registry is **reachable** if actions lead to it from the one without modules. Its modules have
different names (`Registry.Reachable.nodup_names`).
-/

namespace ParticleDynamics

variable {α : Type} [Scalar α]

/-! ## Arrays and writes -/

namespace ParamBag

omit [Scalar α] in
/-- Writing a scalar leaves all arrays alone. -/
theorem arrayAt_writeScalar (bag : ParamBag α) (index other : Nat) (value : α) :
    (bag.writeScalar index value).arrayAt other = bag.arrayAt other := by
  by_cases h : index = other
  · subst h
    cases hvalue : bag.values[index]? with
    | none => simp [arrayAt, writeScalar, Array.getElem?_modify, hvalue]
    | some old => cases old <;> simp [arrayAt, writeScalar, Array.getElem?_modify, hvalue]
  · simp [arrayAt, writeScalar, Array.getElem?_modify, h]

omit [Scalar α] in
/-- Writing an array leaves the others alone. -/
theorem arrayAt_writeArray_ne (bag : ParamBag α) {index other : Nat} (elements : Array α)
    (h : index ≠ other) : (bag.writeArray index elements).arrayAt other = bag.arrayAt other := by
  simp [arrayAt, writeArray, Array.getElem?_modify, h]

omit [Scalar α] in
/-- After an array is written, each array is that one or has not changed. -/
theorem arrayAt_writeArray_or (bag : ParamBag α) (index other : Nat) (elements : Array α) :
    (bag.writeArray index elements).arrayAt other = elements ∨
      (bag.writeArray index elements).arrayAt other = bag.arrayAt other := by
  by_cases h : index = other
  · subst h
    cases hvalue : bag.values[index]? with
    | none => exact .inr (by simp [arrayAt, writeArray, Array.getElem?_modify, hvalue])
    | some value =>
      cases value with
      | scalar value => exact .inr (by simp [arrayAt, writeArray, Array.getElem?_modify, hvalue])
      | array old => exact .inl (arrayAt_writeArray hvalue)
  · exact .inr (arrayAt_writeArray_ne bag elements h)

/-- An array starts without elements. -/
theorem eq_of_initial_eq_array {decl : ParamDecl α} {elements : Array α}
    (h : initial decl = .ok (.array elements)) : elements = #[] := by
  unfold initial at h
  split at h
  next =>
    cases hclamp : decl.clamp decl.default <;> rw [hclamp] at h <;> cases h
  next =>
    cases h
    rfl

omit [Scalar α] in
/-- The results of a loop that succeeds stand at the places of what they come from. -/
theorem getElem?_of_mapM {ε β γ : Type} {f : β → Except ε γ} {items : List β} {results : List γ}
    (h : items.mapM f = .ok results) (index : Nat) :
    items[index]?.map f = results[index]?.map .ok := by
  induction items generalizing results index with
  | nil =>
    cases h
    rfl
  | cons first rest ih =>
    rw [List.mapM_cons] at h
    obtain ⟨result, hresult, h⟩ := bind_eq_ok_iff.1 h
    obtain ⟨others, hothers, h⟩ := bind_eq_ok_iff.1 h
    cases h
    cases index with
    | zero => exact congrArg some hresult
    | succ index => exact ih hothers index

/-- **Each parameter starts with its initial value.** -/
theorem map_initial_of_ofDecls {decls : List (ParamDecl α)} {bag : ParamBag α}
    (h : ofDecls decls = .ok bag) (index : Nat) :
    decls[index]?.map initial = bag.values[index]?.map .ok := by
  obtain ⟨values, hvalues, hbag⟩ := bind_eq_ok_iff.1 h
  cases hbag
  rw [getElem?_of_mapM hvalues, List.getElem?_toArray]

/-- All arrays start without elements. -/
theorem arrayAt_ofDecls {decls : List (ParamDecl α)} {bag : ParamBag α}
    (h : ofDecls decls = .ok bag) (index : Nat) : bag.arrayAt index = #[] := by
  have hinitial := map_initial_of_ofDecls h index
  cases hvalue : bag.values[index]? with
  | none => simp [arrayAt, hvalue]
  | some value =>
    cases value with
    | scalar value => simp [arrayAt, hvalue]
    | array elements =>
      rw [hvalue, Option.map_some, Option.map_eq_some_iff] at hinitial
      obtain ⟨decl, -, hdecl⟩ := hinitial
      simp [arrayAt, hvalue, eq_of_initial_eq_array hdecl]

end ParamBag

/-! ## Actions -/

/-- A sink whose bindings hold at most so many elements. -/
def Sink.Within (sink : Sink) (most : Nat) : Prop :=
  ∀ binding held, sink.capacity binding = some held → held ≤ most

namespace Registry

/-- What can be done to a registry: with the registry itself, with the handle of a module, and with
its sink. -/
inductive Action (α : Type) where
  /-- register a module -/
  | register (module : Module α)
  /-- write a scalar parameter by name -/
  | set (name param : String) (value : α)
  /-- write an array parameter by name -/
  | setArray (name param : String) (elements : Array α)
  /-- switch a module on or off -/
  | setEnabled (name : String) (enabled : Bool)
  /-- write a scalar parameter through the handle of a module -/
  | setKey (name : String) (key : ParamKey α) (value : α)
  /-- write an array parameter through the handle of a module -/
  | setArrayKey (name : String) (key : ParamKey α) (elements : Array α)
  /-- switch a module on or off through its handle -/
  | enable (name : String) (enabled : Bool)
  /-- attach a sink -/
  | attach (sink : Sink)

/-- A change without its result. -/
def withoutResult {β : Type} (change : Change α β) : Change α Unit :=
  ⟨(), change.registry, change.pushes⟩

/-- What an action comes to. -/
def act (r : Registry α) : Action α → Except Refusal (Change α Unit)
  | .register module => r.register module
  | .set name param value => do return withoutResult (← r.set name param value)
  | .setArray name param elements => r.setArray name param elements
  | .setEnabled name enabled => r.setEnabled name enabled
  | .setKey name key value => do return withoutResult (← (← r.handle name).set r key value)
  | .setArrayKey name key elements => do return (← r.handle name).setArray r key elements
  | .enable name enabled => do return (← r.handle name).enable r enabled
  | .attach sink => .ok (r.attach sink)

/-- Whether a sink is attached. -/
def Action.attaches : Action α → Bool
  | .attach _ => true
  | _ => false

/-- An action with arrays of at most so many elements, and with bindings for at most so many. -/
def Action.Within (most : Nat) : Action α → Prop
  | .setArray _ _ elements | .setArrayKey _ _ elements => elements.size ≤ most
  | .attach sink => sink.Within most
  | _ => True

/-- **What an action comes to that is not refused.** -/
inductive Outcome (r : Registry α) : Action α → Change α Unit → Prop where
  /-- a sink is attached -/
  | attached (sink : Sink) : Outcome r (.attach sink) (r.attach sink)
  /-- a module is registered with its initial values -/
  | registered {m : Module α} {params : ParamBag α} {grown : Registry α} (hnew : m.name ∉ r.names)
      (hparams : ParamBag.ofDecls m.params = .ok params) (hsink : grown.sink = r.sink)
      (hgrown : grown.entries = r.entries.push ⟨m, params⟩) :
      Outcome r (.register m) ⟨(), grown, grown.pushAll⟩
  /-- the values of a module change, but no array does -/
  | scalars {action : Action α} (hstays : action.attaches = false) (place : Nat)
      (write : ParamBag α → ParamBag α)
      (hwrite : ∀ bag param, (write bag).arrayAt param = bag.arrayAt param) :
      Outcome r action ⟨(), r.rewrite place write, (r.rewrite place write).pushBlock place⟩
  /-- an array of a module changes -/
  | array {action : Action α} (hstays : action.attaches = false) (place param : Nat)
      (elements : Array α)
      (hwithin : ∀ most, action.Within most → elements.size ≤ most) :
      Outcome r action (r.writeArrayAt place param elements)

omit [Scalar α] in
/-- A name without a place is not taken. -/
theorem notMem_names {r : Registry α} {name : String} (h : ¬ (r.position? name).isSome = true) :
    name ∉ r.names := by
  intro hmem
  simp only [names, modules, List.map_map, List.mem_map, Array.mem_toList_iff] at hmem
  obtain ⟨entry, hentry, hname⟩ := hmem
  refine h ?_
  rw [position?, Array.findIdx?_isSome, Array.any_eq_true']
  exact ⟨entry, hentry, by simpa using hname⟩

/-- A registry with one more module. -/
def push (r : Registry α) (entry : Entry α) : Registry α :=
  { r with entries := r.entries.push entry }

/-- **A module is registered with its initial values**, provided that its name is not taken. -/
theorem register_eq_ok_iff {r : Registry α} {m : Module α} {change : Change α Unit} :
    r.register m = .ok change ↔ (r.position? m.name).isSome = false ∧
      ∃ params, ParamBag.ofDecls m.params = .ok params ∧
        change = ⟨(), r.push ⟨m, params⟩, (r.push ⟨m, params⟩).pushAll⟩ := by
  rw [register]
  split
  next htaken => simp [htaken]
  next hfree =>
    rw [and_iff_right (Bool.eq_false_iff.2 hfree)]
    cases ParamBag.ofDecls m.params with
    | error cause =>
      constructor
      · intro h
        cases h
      · rintro ⟨params, hparams, -⟩
        cases hparams
    | ok params =>
      constructor
      · rintro ⟨⟩
        exact ⟨params, rfl, rfl⟩
      · rintro ⟨_, ⟨⟩, rfl⟩
        rfl

theorem outcome_writeScalarAt {r : Registry α} {place param : Nat} {value : α}
    {change : Change α α} {action : Action α} (hstays : action.attaches = false)
    (h : r.writeScalarAt place param value = .ok change) :
    r.Outcome action (withoutResult change) := by
  obtain ⟨entry, -, h⟩ := bind_eq_ok_iff.1 h
  obtain ⟨decl, -, h⟩ := bind_eq_ok_iff.1 h
  obtain ⟨stored, -, h⟩ := bind_eq_ok_iff.1 h
  cases h
  exact .scalars hstays place (·.writeScalar param stored) fun bag other =>
    bag.arrayAt_writeScalar param other stored

theorem outcome_enableAt (r : Registry α) (place : Nat) (enabled : Bool) {action : Action α}
    (hstays : action.attaches = false) : r.Outcome action (r.enableAt place enabled) :=
  .scalars hstays place (·.enable enabled) fun _ _ => rfl

/-- Every action that is not refused has one of these outcomes. -/
theorem outcome_of_act {r : Registry α} {action : Action α} {change : Change α Unit}
    (h : r.act action = .ok change) : r.Outcome action change := by
  cases action with
  | register m =>
    obtain ⟨hfree, params, hparams, rfl⟩ := register_eq_ok_iff.1 h
    exact .registered (notMem_names (Bool.eq_false_iff.1 hfree)) hparams rfl rfl
  -- writes by name and by key come to the same once the place has been found
  | set name param value =>
    obtain ⟨written, hwritten, hchange⟩ := bind_eq_ok_iff.1 h
    obtain ⟨⟨place, entry⟩, -, hwritten⟩ := bind_eq_ok_iff.1 hwritten
    obtain ⟨index, -, hwritten⟩ := bind_eq_ok_iff.1 hwritten
    cases hchange
    exact outcome_writeScalarAt rfl hwritten
  | setArray name param elements =>
    obtain ⟨⟨place, entry⟩, -, h⟩ := bind_eq_ok_iff.1 h
    obtain ⟨index, -, hchange⟩ := bind_eq_ok_iff.1 h
    cases hchange
    exact .array rfl place index elements fun _ hwithin => hwithin
  | setEnabled name enabled =>
    obtain ⟨⟨place, entry⟩, -, hchange⟩ := bind_eq_ok_iff.1 h
    cases hchange
    exact outcome_enableAt r place enabled rfl
  | setKey name key value =>
    obtain ⟨handle, -, h⟩ := bind_eq_ok_iff.1 h
    obtain ⟨written, hwritten, hchange⟩ := bind_eq_ok_iff.1 h
    cases hchange
    exact outcome_writeScalarAt rfl hwritten
  | setArrayKey name key elements =>
    obtain ⟨handle, -, hchange⟩ := bind_eq_ok_iff.1 h
    cases hchange
    exact .array rfl handle.index key.index elements fun _ hwithin => hwithin
  | enable name enabled =>
    obtain ⟨handle, -, hchange⟩ := bind_eq_ok_iff.1 h
    cases hchange
    exact outcome_enableAt r handle.index enabled rfl
  | attach sink =>
    cases h
    exact .attached sink

/-! ## Reachable registries -/

/-- A registry that can come about. -/
inductive Reachable : Registry α → Prop where
  /-- without modules -/
  | empty : Reachable .empty
  /-- by an action that is not refused -/
  | act {r : Registry α} {action : Action α} {change : Change α Unit} (h : Reachable r)
      (hact : r.act action = .ok change) : Reachable change.registry
  /-- by detaching the sink -/
  | detach {r : Registry α} (h : Reachable r) : Reachable r.detach.2

omit [Scalar α] in
/-- Changing values keeps the modules. -/
theorem modules_rewrite (r : Registry α) (place : Nat) (write : ParamBag α → ParamBag α) :
    (r.rewrite place write).modules = r.modules :=
  modules_modifyEntry r place fun _ => rfl

omit [Scalar α] in
/-- Changing values keeps the names. -/
theorem names_rewrite (r : Registry α) (place : Nat) (write : ParamBag α → ParamBag α) :
    (r.rewrite place write).names = r.names :=
  congrArg (List.map Module.name) (modules_rewrite r place write)

omit [Scalar α] in
/-- A module is known by its name, where names are different. -/
theorem eq_of_name_eq {r : Registry α} (hnames : r.names.Nodup) {entry other : Entry α}
    (hentry : entry ∈ r.entries) (hother : other ∈ r.entries)
    (hname : entry.module.name = other.module.name) : entry = other := by
  rw [names, modules, List.map_map] at hnames
  exact List.inj_on_of_nodup_map hnames (Array.mem_toList_iff.2 hentry)
    (Array.mem_toList_iff.2 hother) hname

/-- Names stay different. -/
theorem nodup_names_of_act {r : Registry α} {action : Action α} {change : Change α Unit}
    (hnames : r.names.Nodup) (hact : r.act action = .ok change) : change.registry.names.Nodup := by
  cases outcome_of_act hact with
  | attached sink => exact hnames
  | @registered m params grown hnew _ _ hgrown =>
    rw [names, modules_of_push hgrown, List.map_append]
    exact List.nodup_append.2 ⟨hnames, List.nodup_singleton _, fun name hname other hother heq =>
      hnew (List.mem_singleton.1 hother ▸ heq ▸ hname)⟩
  | scalars _ place write _ =>
    rw [names_rewrite]
    exact hnames
  | array _ place param elements _ =>
    exact (names_rewrite r place (·.writeArray param elements)).symm ▸ hnames

/-- **The modules of a reachable registry have different names.** Registering is the only action
that adds a name, and it asks first. -/
theorem Reachable.nodup_names {r : Registry α} (h : r.Reachable) : r.names.Nodup := by
  induction h with
  | empty => exact .nil
  | detach _ ih => exact ih
  | act _ hact ih => exact nodup_names_of_act ih hact

end Registry

end ParticleDynamics
