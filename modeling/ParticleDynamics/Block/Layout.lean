import ParticleDynamics.Module.Param

/-!
# Uniform blocks

On the device, the scalars of a module live in one block of registers of four components each. The
block begins with the enabled flag; the scalar parameters follow in declaration order, then the
lengths of the array parameters. The elements of an array live in a buffer of their own.

Each module takes consecutive bindings: one for its block, then one for each array. The first seven
bindings are taken by the program itself, so the first module starts at `firstBinding`.

`Block.pack` lays out one module, `BindingTable.build` a list of them. Both depend on nothing but
names and declarations, so registering one more module never moves what was laid out before.
-/

namespace ParticleDynamics

/-- The number of components in a register. -/
def registerWidth : Nat := 4

/-- The number of bytes in a word, and so in a scalar on the device. -/
def wordBytes : Nat := 4

/-- The first binding that belongs to a module. -/
def firstBinding : Nat := 7

/-- The place of a scalar in a block. -/
structure BlockSlot where
  /-- the register -/
  register : Nat
  /-- the component of the register -/
  component : Nat
deriving DecidableEq, Repr

namespace BlockSlot

/-- The place that a position in the sequence of all components has. -/
def ofLinear (position : Nat) : BlockSlot := ⟨position / registerWidth, position % registerWidth⟩

/-- The position in the sequence of all components. -/
def linear (slot : BlockSlot) : Nat := slot.register * registerWidth + slot.component

/-- The position in bytes. -/
def byteOffset (slot : BlockSlot) : Nat := slot.linear * wordBytes

/-- The letter of the component. -/
def letter (slot : BlockSlot) : Char :=
  match slot.component with
  | 0 => 'x'
  | 1 => 'y'
  | 2 => 'z'
  | _ => 'w'

/-- Positions and places correspond. -/
@[simp] theorem linear_ofLinear (position : Nat) : (ofLinear position).linear = position := by
  simp only [linear, ofLinear, registerWidth]
  omega

end BlockSlot

/-- A scalar parameter in a block. -/
structure ScalarEntry where
  /-- the name of the parameter -/
  name : String
  /-- its place in the declaration order -/
  param : Nat
  /-- where its value is -/
  slot : BlockSlot
deriving DecidableEq, Repr

/-- An array parameter: the binding of its elements and where its length is. -/
structure ArrayEntry where
  /-- the name of the parameter -/
  name : String
  /-- its place in the declaration order -/
  param : Nat
  /-- the binding of its elements -/
  binding : Nat
  /-- where its length is -/
  lengthSlot : BlockSlot
deriving DecidableEq, Repr

/-- The layout of one module. -/
structure Block where
  /-- the name of the module -/
  owner : String
  /-- the binding of the block -/
  binding : Nat
  /-- the number of registers -/
  registers : Nat
  /-- the scalar parameters -/
  scalars : List ScalarEntry
  /-- the array parameters -/
  arrays : List ArrayEntry
deriving DecidableEq, Repr

namespace Block

/-- Where the enabled flag is. -/
def enabledSlot : BlockSlot := ⟨0, 0⟩

variable {α : Type}

/-- The declarations of one kind, each with its place in the declaration order. -/
def ofKind (kind : ParamKind) (decls : List (ParamDecl α)) : List (ParamDecl α × Nat) :=
  decls.zipIdx.filter fun entry => entry.1.kind = kind

/-- The scalar entries: consecutive slots right after the enabled flag. -/
def packScalars (decls : List (ParamDecl α)) : List ScalarEntry :=
  ((ofKind .scalar decls).zipIdx 1).map fun entry =>
    ⟨entry.1.1.name, entry.1.2, .ofLinear entry.2⟩

/-- The array entries: bindings from `binding` on, length slots from `slot` on. -/
def packArrays (decls : List (ParamDecl α)) (binding slot : Nat) : List ArrayEntry :=
  (ofKind .array decls).zipIdx.map fun entry =>
    ⟨entry.1.1.name, entry.1.2, binding + entry.2, .ofLinear (slot + entry.2)⟩

/-- The layout of a module whose bindings start at `binding`. -/
def pack (owner : String) (decls : List (ParamDecl α)) (binding : Nat) : Block :=
  let scalars := packScalars decls
  let arrays := packArrays decls (binding + 1) (1 + scalars.length)
  { owner := owner
    binding := binding
    registers := (1 + scalars.length + arrays.length + (registerWidth - 1)) / registerWidth
    scalars := scalars
    arrays := arrays }

/-- The first binding after those of the module. -/
def nextBinding (b : Block) : Nat := b.binding + 1 + b.arrays.length

/-- The layout of a module, provided that all its bindings and the one after them are words. -/
def allocate (owner : String) (decls : List (ParamDecl α)) (binding : Nat) :
    Except Breach Block := do
  let block := pack owner decls binding
  let _ ← fitWord "add" block.nextBinding
  return block

/-- The bindings of the module, its block first. -/
def bindings (b : Block) : List Nat := b.binding :: b.arrays.map ArrayEntry.binding

/-- The entry of a scalar parameter. -/
def scalar? (b : Block) (param : Nat) : Option ScalarEntry :=
  b.scalars.find? fun entry => entry.param = param

/-- The entry of an array parameter. -/
def array? (b : Block) (param : Nat) : Option ArrayEntry :=
  b.arrays.find? fun entry => entry.param = param

/-- The slot of a scalar, or of the length of an array, by the name of the parameter. -/
def offsetOf? (b : Block) (name : String) : Option BlockSlot :=
  match b.scalars.find? fun entry => entry.name = name with
  | some entry => some entry.slot
  | none => (b.arrays.find? fun entry => entry.name = name).map ArrayEntry.lengthSlot

/-- The number of words in the block. -/
def words (b : Block) : Nat := b.registers * registerWidth

/-- The number of bytes in the block. -/
def byteSize (b : Block) : Nat := b.words * wordBytes

variable [Scalar α]

/-- The contents of the block for the given values: the enabled flag as one or zero, the scalars,
the lengths of the arrays, and zeros up to the end of the last register. -/
def serialize (b : Block) (bag : ParamBag α) : Array α :=
  let flagged := (Array.replicate b.words (0 : α)).modify enabledSlot.linear fun _ =>
    if bag.enabled then 1 else 0
  let withScalars := b.scalars.foldl
    (fun words entry => words.modify entry.slot.linear fun _ => bag.scalarAt entry.param) flagged
  b.arrays.foldl
    (fun words entry => words.modify entry.lengthSlot.linear fun _ =>
      Scalar.ofCount (bag.arrayAt entry.param).size) withScalars

/-- The contents of a block with each array length limited to what its binding can hold. -/
def clampLengths (b : Block) (capacity : Nat → Option Nat) (words : Array α) : Array α :=
  b.arrays.foldl
    (fun words entry =>
      match capacity entry.binding with
      | some most => words.modify entry.lengthSlot.linear fun length =>
          Scalar.minimum length (Scalar.ofCount most)
      | none => words) words

end Block

/-- The layout of a list of modules, in order. -/
structure BindingTable where
  /-- one block for each module -/
  blocks : List Block := []
deriving DecidableEq, Repr

namespace BindingTable

variable {α : Type}

/-- The blocks of a list of modules, each a name with declarations, from a binding on. -/
def packFrom (binding : Nat) : List (String × List (ParamDecl α)) → List Block
  | [] => []
  | (owner, decls) :: rest =>
    let block := Block.pack owner decls binding
    block :: packFrom block.nextBinding rest

/-- The layout of a list of modules, each a name with declarations. -/
def build (modules : List (String × List (ParamDecl α))) : BindingTable :=
  ⟨packFrom firstBinding modules⟩

/-- The block of the first module with a name. -/
def block? (t : BindingTable) (owner : String) : Option Block :=
  t.blocks.find? fun block => block.owner = owner

/-- One more than the greatest binding in use. -/
def bindingCount (t : BindingTable) : Nat :=
  (t.blocks.flatMap Block.bindings).foldl (fun most binding => max most (binding + 1)) firstBinding

/-- There is one block for each module. -/
theorem length_packFrom (binding : Nat) (modules : List (String × List (ParamDecl α))) :
    (packFrom binding modules).length = modules.length := by
  induction modules generalizing binding with
  | nil => rfl
  | cons first rest ih => simp [packFrom, ih]

end BindingTable

end ParticleDynamics
