import ParticleDynamics.Scalar

/-!
# Parameters

A module declares its parameters in an order that matters: values are kept, packed and addressed by
their place in the declaration. A parameter is a scalar, possibly limited to a range, or an array.

A `ParamBag` holds the current values. Reading or writing with the wrong kind, or past the end, is
not an error at this level: such a read gives zero or no elements, such a write changes nothing.
Ranges are respected by the typed access through a `ParamKey`, not by the raw writes.
-/

namespace ParticleDynamics

/-- What a parameter holds. -/
inductive ParamKind where
  /-- one number -/
  | scalar
  /-- any number of numbers, in a buffer of their own on the device -/
  | array
deriving DecidableEq, Repr

/-- A declared parameter. -/
structure ParamDecl (α : Type) where
  /-- the name by which it is addressed -/
  name : String
  /-- what it holds -/
  kind : ParamKind
  /-- the initial value of a scalar; arrays start without elements -/
  default : α
  /-- the range, ends included, that a scalar is limited to -/
  range : Option (α × α) := none

namespace ParamDecl

variable {α : Type} [Scalar α]

/-- A scalar without a range. -/
def scalar (name : String) (default : α) : ParamDecl α := ⟨name, .scalar, default, none⟩

/-- A scalar with a range. -/
def clamped (name : String) (default lo hi : α) : ParamDecl α :=
  ⟨name, .scalar, default, some (lo, hi)⟩

/-- An array. -/
def array (name : String) : ParamDecl α := ⟨name, .array, 0, none⟩

/-- A value limited to the declared range. -/
def clamp (decl : ParamDecl α) (value : α) : Except Breach α :=
  match decl.range with
  | some (lo, hi) => Scalar.clamp value lo hi
  | none => .ok value

end ParamDecl

/-- A parameter of a module as its own code addresses it: the place in the declaration order and
the declaration found there. -/
structure ParamKey (α : Type) where
  /-- the place in the declaration order -/
  index : Nat
  /-- the declaration -/
  decl : ParamDecl α

/-- The keys of a list of declarations. -/
def ParamKey.ofDecls {α : Type} (decls : List (ParamDecl α)) : List (ParamKey α) :=
  decls.zipIdx.map fun entry => ⟨entry.2, entry.1⟩

/-- The current value of a parameter. -/
inductive ParamValue (α : Type) where
  /-- the value of a scalar -/
  | scalar (value : α)
  /-- the elements of an array -/
  | array (values : Array α)

/-- The current values of a module's parameters, in declaration order. -/
structure ParamBag (α : Type) where
  /-- whether the module takes part at all -/
  enabled : Bool
  /-- the values -/
  values : Array (ParamValue α)

namespace ParamBag

variable {α : Type} [Scalar α]

/-- The value that a parameter starts with. -/
def initial (decl : ParamDecl α) : Except Breach (ParamValue α) :=
  match decl.kind with
  | .scalar => (decl.clamp decl.default).map ParamValue.scalar
  | .array => .ok (.array #[])

/-- The initial values of a list of declarations, enabled. -/
def ofDecls (decls : List (ParamDecl α)) : Except Breach (ParamBag α) := do
  let values ← decls.mapM initial
  return ⟨true, values.toArray⟩

/-- The bag switched on or off. -/
def enable (bag : ParamBag α) (enabled : Bool) : ParamBag α := { bag with enabled := enabled }

/-- The scalar at an index; zero for arrays and past the end. -/
def scalarAt (bag : ParamBag α) (index : Nat) : α :=
  match bag.values[index]? with
  | some (.scalar value) => value
  | _ => 0

/-- The elements of the array at an index; none for scalars and past the end. -/
def arrayAt (bag : ParamBag α) (index : Nat) : Array α :=
  match bag.values[index]? with
  | some (.array values) => values
  | _ => #[]

/-- The bag with a scalar written as it is. Only a scalar can be overwritten by one. -/
def writeScalar (bag : ParamBag α) (index : Nat) (value : α) : ParamBag α :=
  { bag with
    values := bag.values.modify index fun
      | .scalar _ => .scalar value
      | .array values => .array values }

/-- The bag with the elements of an array replaced. Only an array can be overwritten by one. -/
def writeArray (bag : ParamBag α) (index : Nat) (elements : Array α) : ParamBag α :=
  { bag with
    values := bag.values.modify index fun
      | .scalar value => .scalar value
      | .array _ => .array elements }

/-- The value of a key. -/
def get (bag : ParamBag α) (key : ParamKey α) : α := bag.scalarAt key.index

/-- The elements of a key. -/
def getArray (bag : ParamBag α) (key : ParamKey α) : Array α := bag.arrayAt key.index

/-- The bag with a key set to a value limited to the declared range. -/
def set (bag : ParamBag α) (key : ParamKey α) (value : α) : Except Breach (ParamBag α) := do
  return bag.writeScalar key.index (← key.decl.clamp value)

/-- The bag with the elements of a key replaced. -/
def setArray (bag : ParamBag α) (key : ParamKey α) (elements : Array α) : ParamBag α :=
  bag.writeArray key.index elements

/-! ### Reading what was written -/

/-- A scalar that is there reads back what was written. -/
theorem scalarAt_writeScalar {bag : ParamBag α} {index : Nat} {old value : α}
    (h : bag.values[index]? = some (.scalar old)) :
    (bag.writeScalar index value).scalarAt index = value := by
  have hlt := (Array.getElem?_eq_some_iff.1 h).1
  have hget := (Array.getElem?_eq_some_iff.1 h).2
  simp [writeScalar, scalarAt, hlt, Array.getElem_modify, hget]

omit [Scalar α] in
/-- An array that is there reads back what was written. -/
theorem arrayAt_writeArray {bag : ParamBag α} {index : Nat} {old elements : Array α}
    (h : bag.values[index]? = some (.array old)) :
    (bag.writeArray index elements).arrayAt index = elements := by
  have hlt := (Array.getElem?_eq_some_iff.1 h).1
  have hget := (Array.getElem?_eq_some_iff.1 h).2
  simp [writeArray, arrayAt, hlt, Array.getElem_modify, hget]

end ParamBag

end ParticleDynamics
