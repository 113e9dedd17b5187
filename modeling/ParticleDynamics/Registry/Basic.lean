import ParticleDynamics.Module.Basic
import ParticleDynamics.Refusal

/-!
# The registry

The registered modules with the current values of their parameters, in execution order. Where their
data is kept, on the host and on the device, follows from the list of modules alone
(`Registry.bindings`, `Registry.scratch`).

A **sink** may be attached, which keeps a copy of the parameters elsewhere. Every change is then
followed by the pushes that bring the copy up to date: a written parameter pushes the block of its
module, a written array also its elements, and a new module everything, because all blocks may have
moved. A sink can say how many elements a binding holds; the length that is pushed for an array is
limited to that.

An operation that is refused changes nothing and pushes nothing.
-/

namespace ParticleDynamics

/-- A registered module with the values of its parameters. -/
structure Entry (α : Type) where
  /-- the module -/
  module : Module α
  /-- the values of its parameters -/
  params : ParamBag α

/-- The place of a parameter of the given kind in the declarations of an entry. -/
def Entry.paramIndex {α : Type} (e : Entry α) (name : String) (kind : ParamKind) :
    Except Refusal Nat :=
  match e.module.params.findIdx? fun decl => decl.name = name with
  | some index =>
    match e.module.params[index]? with
    | some decl =>
      if decl.kind = kind then .ok index else .error (.paramKind e.module.name name)
    | none => .error (.unknownParam e.module.name name)
  | none => .error (.unknownParam e.module.name name)

/-- Something that keeps a copy of the parameters. -/
structure Sink where
  /-- how many elements an array binding holds, if that is bounded -/
  capacity : Nat → Option Nat

/-- One write to a sink. -/
inductive Push (α : Type) where
  /-- the whole block of a module -/
  | uniform (binding : Nat) (words : Array α)
  /-- the elements of an array parameter -/
  | array (binding : Nat) (values : Array α)

namespace Push

variable {α : Type}

/-- The binding that is written. -/
def binding : Push α → Nat
  | uniform binding _ => binding
  | array binding _ => binding

/-- What is written. -/
def values : Push α → Array α
  | uniform _ words => words
  | array _ values => values

end Push

/-- The registered modules, and the sink that follows them. -/
structure Registry (α : Type) where
  /-- the modules in execution order -/
  entries : Array (Entry α) := #[]
  /-- the attached sink, if any -/
  sink : Option Sink := none

/-- What an operation on a registry comes to: its result, the registry afterwards, and the pushes,
the earliest first. -/
structure Change (α β : Type) where
  /-- the result -/
  result : β
  /-- the registry afterwards -/
  registry : Registry α
  /-- what was pushed to the sink -/
  pushes : List (Push α)

namespace Registry

variable {α : Type}

/-- A registry without modules. -/
def empty : Registry α := {}

/-- The modules in execution order. -/
def modules (r : Registry α) : List (Module α) := r.entries.toList.map Entry.module

/-- The names of the modules in execution order. -/
def names (r : Registry α) : List String := r.modules.map Module.name

/-- A new entry is the last module. -/
theorem modules_of_push {r grown : Registry α} {entry : Entry α}
    (h : grown.entries = r.entries.push entry) : grown.modules = r.modules ++ [entry.module] := by
  rw [modules, h, Array.toList_push, List.map_append]
  rfl

/-- Where the parameters are kept on the device. -/
def bindings (r : Registry α) : BindingTable := .build (r.modules.map Module.declared)

/-- Where the fields are kept in the scratch table. -/
def scratch (r : Registry α) : ScratchLayout := .build (r.modules.map Module.scratch)

/-! ### Finding -/

/-- The place of the module with a name. -/
def position? (r : Registry α) (name : String) : Option Nat :=
  r.entries.findIdx? fun entry => entry.module.name = name

/-- The place and the entry of the module with a name. -/
def entry (r : Registry α) (name : String) : Except Refusal (Nat × Entry α) :=
  match r.position? name with
  | some index =>
    match r.entries[index]? with
    | some entry => .ok (index, entry)
    | none => .error (.unknownModule name)
  | none => .error (.unknownModule name)

/-- The values of the parameters of a module. -/
def params (r : Registry α) (name : String) : Except Refusal (ParamBag α) := do
  return (← r.entry name).2.params

variable [Scalar α]

/-- The value of a scalar parameter. -/
def get (r : Registry α) (name param : String) : Except Refusal α := do
  let (_, entry) ← r.entry name
  let index ← entry.paramIndex param .scalar
  return entry.params.scalarAt index

/-- The elements of an array parameter. -/
def getArray (r : Registry α) (name param : String) : Except Refusal (Array α) := do
  let (_, entry) ← r.entry name
  let index ← entry.paramIndex param .array
  return entry.params.arrayAt index

/-! ### Pushing -/

/-- The push of the block of the module at a place. -/
def pushBlock (r : Registry α) (index : Nat) : List (Push α) :=
  match r.sink, r.bindings.blocks[index]?, r.entries[index]? with
  | some sink, some block, some entry =>
    [.uniform block.binding (block.clampLengths sink.capacity (block.serialize entry.params))]
  | _, _, _ => []

/-- The push of the elements of an array parameter of the module at a place. -/
def pushArray (r : Registry α) (index param : Nat) : List (Push α) :=
  match r.sink, r.bindings.blocks[index]?, r.entries[index]? with
  | some _, some block, some entry =>
    match block.array? param with
    | some array => [.array array.binding (entry.params.arrayAt param)]
    | none => []
  | _, _, _ => []

/-- The pushes that bring a sink up to date with the module at a place. -/
def pushModule (r : Registry α) (index : Nat) : List (Push α) :=
  let arrays := match r.bindings.blocks[index]? with
    | some block => block.arrays.map ArrayEntry.param
    | none => []
  r.pushBlock index ++ arrays.flatMap fun param => r.pushArray index param

/-- The pushes that bring a sink up to date with everything. -/
def pushAll (r : Registry α) : List (Push α) :=
  (List.range r.entries.size).flatMap r.pushModule

/-! ### Changing -/

/-- The registry with the entry at a place changed. -/
def modifyEntry (r : Registry α) (index : Nat) (f : Entry α → Entry α) : Registry α :=
  { r with entries := r.entries.modify index f }

/-- The registry with one more module at the end, with the initial values of its parameters. -/
def register (r : Registry α) (m : Module α) : Except Refusal (Change α Unit) :=
  if (r.position? m.name).isSome then .error (.duplicateModule m.name)
  else do
    let params ← Refusal.lift (ParamBag.ofDecls m.params)
    let registry : Registry α := { r with entries := r.entries.push ⟨m, params⟩ }
    return ⟨(), registry, registry.pushAll⟩

/-- A registry of the given modules, without a sink. -/
def ofModules (modules : List (Module α)) : Except Refusal (Registry α) :=
  modules.foldlM (fun registry m => do return (← registry.register m).registry) empty

/-- Write a scalar parameter by place: the value is limited to the declared range first, and the
stored value is the result. -/
def writeScalarAt (r : Registry α) (index param : Nat) (value : α) :
    Except Refusal (Change α α) := do
  let entry ← Refusal.lift (fetch r.entries index)
  let decl ← Refusal.lift (fetch entry.module.params.toArray param)
  let stored ← Refusal.lift (decl.clamp value)
  let registry := r.modifyEntry index fun e =>
    { e with params := e.params.writeScalar param stored }
  return ⟨stored, registry, registry.pushBlock index⟩

/-- Write an array parameter by place. Its length is part of the block. -/
def writeArrayAt (r : Registry α) (index param : Nat) (elements : Array α) : Change α Unit :=
  let registry := r.modifyEntry index fun e =>
    { e with params := e.params.writeArray param elements }
  ⟨(), registry, registry.pushBlock index ++ registry.pushArray index param⟩

/-- Switch the module at a place on or off. -/
def enableAt (r : Registry α) (index : Nat) (enabled : Bool) : Change α Unit :=
  let registry := r.modifyEntry index fun e => { e with params := e.params.enable enabled }
  ⟨(), registry, registry.pushBlock index⟩

/-- Write a scalar parameter by name. -/
def set (r : Registry α) (name param : String) (value : α) : Except Refusal (Change α α) := do
  let (index, entry) ← r.entry name
  r.writeScalarAt index (← entry.paramIndex param .scalar) value

/-- Write an array parameter by name. -/
def setArray (r : Registry α) (name param : String) (elements : Array α) :
    Except Refusal (Change α Unit) := do
  let (index, entry) ← r.entry name
  return r.writeArrayAt index (← entry.paramIndex param .array) elements

/-- Whether a module takes part. -/
def isEnabled (r : Registry α) (name : String) : Except Refusal Bool := do
  return (← r.params name).enabled

/-- Switch a module on or off. -/
def setEnabled (r : Registry α) (name : String) (enabled : Bool) :
    Except Refusal (Change α Unit) := do
  let (index, _) ← r.entry name
  return r.enableAt index enabled

/-- Attach a sink in place of the one that is there, and bring it up to date. -/
def attach (r : Registry α) (sink : Sink) : Change α Unit :=
  let registry := { r with sink := some sink }
  ⟨(), registry, registry.pushAll⟩

/-- Detach the sink. The flag tells whether there was one. -/
def detach (r : Registry α) : Bool × Registry α := (r.sink.isSome, { r with sink := none })

/-! ### Typed access -/

/-- Access to the parameters of one module by its keys. -/
structure Handle where
  /-- the place of the module -/
  index : Nat

/-- Access to the module with a name. -/
def handle (r : Registry α) (name : String) : Except Refusal Handle := do
  return ⟨(← r.entry name).1⟩

namespace Handle

/-- The value of a key. -/
def get (h : Handle) (r : Registry α) (key : ParamKey α) : Except Refusal α := do
  return (← Refusal.lift (fetch r.entries h.index)).params.get key

/-- The elements of a key. -/
def getArray (h : Handle) (r : Registry α) (key : ParamKey α) : Except Refusal (Array α) := do
  return (← Refusal.lift (fetch r.entries h.index)).params.getArray key

/-- Write the value of a key; the stored value is the result. -/
def set (h : Handle) (r : Registry α) (key : ParamKey α) (value : α) :
    Except Refusal (Change α α) :=
  r.writeScalarAt h.index key.index value

/-- Write the elements of a key. -/
def setArray (h : Handle) (r : Registry α) (key : ParamKey α) (elements : Array α) :
    Change α Unit :=
  r.writeArrayAt h.index key.index elements

/-- Switch the module on or off. -/
def enable (h : Handle) (r : Registry α) (enabled : Bool) : Change α Unit :=
  r.enableAt h.index enabled

end Handle

end Registry

end ParticleDynamics
