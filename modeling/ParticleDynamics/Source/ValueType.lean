import ParticleDynamics.Source.Tree

/-!
# Types of values

The types that the values of a program have, and how operators, members and constructions combine
them. A number that does not say its type fits several types until it meets a value that does; two
types are **joined** when one of them, or what it leaves open, fits the other.

Matrices and the like are not followed any further: such a value has the type `other`, which fits
everywhere.
-/

namespace ParticleDynamics

namespace Source

/-- The type of a value. -/
inductive ValueType where
  /-- a truth value -/
  | bool
  /-- a number -/
  | number (type : NumberType)
  /-- a vector -/
  | vector (size : Nat) (item : ValueType)
  /-- an array -/
  | array (item : ValueType)
  /-- a record -/
  | record (name : String)
  /-- a reference to a value in memory -/
  | pointer (target : ValueType)
  /-- a number that several invocations may change -/
  | atomic (item : ValueType)
  /-- anything else -/
  | other
deriving DecidableEq, Repr

namespace NumberType

/-- The type that numbers of two types have in common. -/
def join? : NumberType → NumberType → Option NumberType
  | .anyWhole, t => some t
  | t, .anyWhole => some t
  | .anyFraction, .anyFraction => some .anyFraction
  | .anyFraction, .single => some .single
  | .single, .anyFraction => some .single
  | s, t => if s = t then some s else none

/-- The type that a number gets when nothing else decides. -/
def settled : NumberType → NumberType
  | .anyWhole => .signed
  | .anyFraction => .single
  | t => t

/-- Whether numbers of a type are whole. -/
def isWhole : NumberType → Bool
  | .anyWhole | .signed | .unsigned => true
  | _ => false

end NumberType

namespace ValueType

/-- A number of single precision. -/
def single : ValueType := .number .single

/-- A word. -/
def unsigned : ValueType := .number .unsigned

/-- The type that values of two types have in common. -/
def join? : ValueType → ValueType → Option ValueType
  | .other, _ => some .other
  | _, .other => some .other
  | .number s, .number t => (NumberType.join? s t).map .number
  | .vector m s, .vector n t => if m = n then (join? s t).map (.vector m) else none
  | s, t => if s = t then some s else none

/-- Whether a type has a part that is not followed. -/
def isOpen : ValueType → Bool
  | .other => true
  | .vector _ t => isOpen t
  | .array t => isOpen t
  | .pointer t => isOpen t
  | _ => false

/-- Whether a value of one type can stand where another is wanted. -/
def fits (value wanted : ValueType) : Bool :=
  match join? value wanted with
  | some joined => decide (joined = wanted) || isOpen joined
  | none => false

/-- The type that a value gets when it is given a name. -/
def settled : ValueType → ValueType
  | .number t => .number t.settled
  | .vector n t => .vector n t.settled
  | t => t

/-- Whether a value can be given a name. -/
def isNameable : ValueType → Bool
  | .atomic _ => false
  | _ => true

/-- The type of the components of a vector, or the type itself. -/
def item : ValueType → ValueType
  | .vector _ t => t
  | t => t

/-- The type with its components replaced. -/
def withItem (t item : ValueType) : ValueType :=
  match t with
  | .vector n _ => .vector n item
  | _ => item

/-- The value types of a class, or vectors of them. -/
def isKind (kind : NumberType → Bool) (t : ValueType) : Bool :=
  match t.item with
  | .number n => kind n
  | .other => true
  | _ => false

/-- Whether a type has numbers. -/
def isNumeric : ValueType → Bool := isKind fun _ => true

/-- Whether a type has whole numbers. -/
def isWhole : ValueType → Bool := isKind NumberType.isWhole

/-- Whether a type has fractional numbers, or numbers that can become so. -/
def isFractional : ValueType → Bool := isKind fun n => n != .signed && n != .unsigned

/-- Whether a type has truth values. -/
def isTruth (t : ValueType) : Bool := t.item = .bool || t.item = .other

/-- The type guarded by a condition. -/
def guarded (condition : Bool) (t : ValueType) : Option ValueType :=
  if condition then some t else none

/-! ### Operators -/

/-- The type of a calculation with two operands, one of which may be a vector and the other a
number for all components. -/
def calculated? (left right : ValueType) : Option ValueType :=
  if left.isNumeric && right.isNumeric then
    match left, right with
    | .vector m s, .vector n t => join? (.vector m s) (.vector n t)
    | .vector n s, t => (join? s t).map (.vector n)
    | s, .vector n t => (join? s t).map (.vector n)
    | s, t => join? s t
  else none

/-- The type of a comparison of two operands. -/
def compared? (left right : ValueType) : Option ValueType :=
  (join? left right).map fun joined => joined.withItem .bool

/-- The type of an operator between two operands. -/
def ofBinary? (operator : String) (left right : ValueType) : Option ValueType :=
  match operator with
  | "+" | "-" | "*" | "/" | "%" => calculated? left right
  | "<" | ">" | "<=" | ">=" =>
    if left.isNumeric && right.isNumeric then compared? left right else none
  | "==" | "!=" =>
    if (left.isNumeric || left.isTruth) && (right.isNumeric || right.isTruth) then
      compared? left right
    else none
  | "&&" | "||" => guarded (fits left .bool && fits right .bool) .bool
  | "&" | "|" | "^" =>
    if left.isWhole && right.isWhole || left.isTruth && right.isTruth then join? left right
    else none
  | "<<" | ">>" => guarded (left.isWhole && fits right (left.withItem unsigned)) left
  | _ => none

/-- The type of an operator before its operand. -/
def ofUnary? (operator : String) (operand : ValueType) : Option ValueType :=
  match operator with
  | "-" => guarded (isKind (· != .unsigned) operand) operand
  | "!" => guarded operand.isTruth operand
  | "~" => guarded operand.isWhole operand
  | "&" => some (.pointer operand)
  | "*" =>
    match operand with
    | .pointer target => some target
    | .other => some .other
    | _ => none
  | _ => none

/-! ### Parts -/

/-- The place of a component letter in its alphabet. -/
def component? (letters : List Char) (c : Char) : Option Nat := letters.findIdx? (· = c)

/-- The type of the components of a vector that letters select. -/
def swizzled? (size : Nat) (item : ValueType) (letters : String) : Option ValueType :=
  let inside (alphabet : List Char) : Bool :=
    letters.toList.all fun c => (component? alphabet c).any (decide <| · < size)
  if letters.length = 0 ∨ 4 < letters.length then none
  else if inside ['x', 'y', 'z', 'w'] || inside ['r', 'g', 'b', 'a'] then
    if letters.length = 1 then some item else some (.vector letters.length item)
  else none

/-- The type of an element. -/
def element? : ValueType → Option ValueType
  | .vector _ item => some item
  | .array item => some item
  | .pointer (.array item) => some item
  | .pointer (.vector _ item) => some item
  | .other => some .other
  | .pointer .other => some .other
  | _ => none

/-! ### Constructions -/

/-- The number of components that a value contributes to a vector. -/
def width : ValueType → Nat
  | .vector n _ => n
  | _ => 1

/-- The number of components that some values contribute to a vector. -/
def totalWidth : List ValueType → Nat
  | [] => 0
  | first :: rest => first.width + totalWidth rest

/-- Whether a vector can be made of values: of nothing, of one number for all components, of a
vector whose components are converted, or of as many components as it has. -/
def makesVector (size : Nat) (item : ValueType) (values : List ValueType) : Bool :=
  let piecewise := values.all fun value => fits value.item item
  match values with
  | [] => true
  | [.vector n other] => n = size && (isNumeric other || other.isTruth)
  | [value] => value = .other || fits value item
  | _ => values.contains .other || (piecewise && totalWidth values = size)

/-- Whether a value of a type that has no fields can be made of values. -/
def makes (t : ValueType) (values : List ValueType) : Bool :=
  match t with
  | .bool | .number _ =>
    match values with
    | [] => true
    | [.vector _ _] => false
    | [value] => value.isNumeric || value.isTruth
    | _ => false
  | .vector size item => makesVector size item values
  | .array item => values.all fun value => fits value item
  | .other => true
  | _ => false

/-- The vector that values make when only its size is given. -/
def inferredVector? (size : Nat) (values : List ValueType) : Option ValueType := do
  match values with
  | [] => some .other
  | first :: rest =>
    let item ← rest.foldlM (fun joined value => join? joined value.item) first.item
    guarded (makesVector size item values) (.vector size item)

end ValueType

end Source

end ParticleDynamics
