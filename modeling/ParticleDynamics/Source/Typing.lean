import ParticleDynamics.Source.ValueType

/-!
# Types of expressions

What the names of a program mean, and the type that an expression has given these meanings. An
expression without a type uses a name that nothing introduces, or puts values together that do not
go together.

A name in a function hides the same name further out. Besides the functions of the program there are
those that every program has; they come in families, by what they take and give.
-/

namespace ParticleDynamics

namespace Source

/-- What a name for a value means. -/
structure Meaning where
  /-- the type of the value -/
  type : ValueType
  /-- whether it can be assigned -/
  assignable : Bool
deriving DecidableEq, Repr

/-- The types of a function's parameters, and of its result if it has one. -/
structure Signature where
  /-- the types of the parameters -/
  parameters : List ValueType
  /-- the type of the result -/
  result : Option ValueType
deriving DecidableEq, Repr

/-- What the names at module scope mean. -/
structure Names where
  /-- the fields of the record types -/
  records : List (String × List (String × ValueType)) := []
  /-- further names of types -/
  synonyms : List String := []
  /-- the values -/
  values : List (String × Meaning) := []
  /-- the functions -/
  functions : List (String × Signature) := []

/-- What the names in a function mean, those of the innermost block first. -/
abbrev Scopes : Type := List (List (String × Meaning))

/-! ### Type expressions -/

/-- The types with a short name. -/
def plainTypes : List (String × ValueType) := [
  ("bool", .bool), ("i32", .number .signed), ("u32", .unsigned), ("f32", .single),
  ("vec2f", .vector 2 .single), ("vec3f", .vector 3 .single), ("vec4f", .vector 4 .single),
  ("vec2i", .vector 2 (.number .signed)), ("vec3i", .vector 3 (.number .signed)),
  ("vec4i", .vector 4 (.number .signed)), ("vec2u", .vector 2 .unsigned),
  ("vec3u", .vector 3 .unsigned), ("vec4u", .vector 4 .unsigned)]

/-- The names of matrix types. -/
def matrixTypes : List String := [
  "mat2x2", "mat2x3", "mat2x4", "mat3x2", "mat3x3", "mat3x4", "mat4x2", "mat4x3", "mat4x4",
  "mat2x2f", "mat2x3f", "mat2x4f", "mat3x2f", "mat3x3f", "mat3x4f", "mat4x2f", "mat4x3f", "mat4x4f"]

namespace Names

/-- A type that vectors and atomics can be made of. -/
def scalarType? (t : ValueType) : Option ValueType :=
  match t with
  | .bool | .number _ | .other => some t
  | _ => none

/-- The type that an expression stands for. -/
def typeOf? (names : Names) : Expr → Option ValueType
  | .name "vec2" [t] => do return .vector 2 (← scalarType? (← typeOf? names t))
  | .name "vec3" [t] => do return .vector 3 (← scalarType? (← typeOf? names t))
  | .name "vec4" [t] => do return .vector 4 (← scalarType? (← typeOf? names t))
  | .name "array" [t] => do return .array (← typeOf? names t)
  | .name "array" [t, _] => do return .array (← typeOf? names t)
  | .name "atomic" [t] => do return .atomic (← scalarType? (← typeOf? names t))
  | .name "ptr" [_, t] => do return .pointer (← typeOf? names t)
  | .name "ptr" [_, t, _] => do return .pointer (← typeOf? names t)
  | .name head parameters =>
    if matrixTypes.contains head then some .other
    else if parameters.isEmpty then
      if (names.records.lookup head).isSome then some (.record head)
      else if names.synonyms.contains head then some .other
      else plainTypes.lookup head
    else none
  | _ => none

/-- The meaning of a name for a value. -/
def meaning? (names : Names) (scopes : Scopes) (name : String) : Option Meaning :=
  match scopes.findSome? fun scope => scope.lookup name with
  | some meaning => some meaning
  | none => names.values.lookup name

/-- The type of a member. -/
def member? (names : Names) (name : String) : ValueType → Option ValueType
  | .vector size item => ValueType.swizzled? size item name
  | .record type => (names.records.lookup type).bind fun fields => fields.lookup name
  | .pointer (.record type) => (names.records.lookup type).bind fun fields => fields.lookup name
  | .pointer (.vector size item) => ValueType.swizzled? size item name
  | .pointer .other => some .other
  | .other => some .other
  | _ => none

/-- Whether a value of a type can be made of values. -/
def makes (names : Names) (t : ValueType) (values : List ValueType) : Bool :=
  match t with
  | .record type =>
    match names.records.lookup type with
    | some fields =>
      values.isEmpty || (fields.length == values.length &&
        (values.zip fields).all fun (value, field) => value.fits field.2)
    | none => false
  | t => t.makes values

end Names

/-! ### Functions that every program has -/

/-- Functions from fractional numbers to one of the same kind, with the number of arguments. -/
def fractionalFunctions : List (String × Nat) := [
  ("acos", 1), ("acosh", 1), ("asin", 1), ("asinh", 1), ("atan", 1), ("atanh", 1), ("atan2", 2),
  ("ceil", 1), ("cos", 1), ("cosh", 1), ("degrees", 1), ("exp", 1), ("exp2", 1), ("floor", 1),
  ("fma", 3), ("fract", 1), ("inverseSqrt", 1), ("log", 1), ("log2", 1), ("normalize", 1),
  ("pow", 2), ("radians", 1), ("reflect", 2), ("round", 1), ("saturate", 1), ("sin", 1),
  ("sinh", 1), ("smoothstep", 3), ("sqrt", 1), ("step", 2), ("tan", 1), ("tanh", 1), ("trunc", 1),
  ("cross", 2), ("faceForward", 3)]

/-- Functions from numbers to one of the same kind, with the number of arguments. -/
def numericFunctions : List (String × Nat) := [
  ("abs", 1), ("sign", 1), ("max", 2), ("min", 2), ("clamp", 3)]

/-- Functions from whole numbers to one of the same kind, with the number of arguments. -/
def wholeFunctions : List (String × Nat) := [
  ("countLeadingZeros", 1), ("countOneBits", 1), ("countTrailingZeros", 1),
  ("firstLeadingBit", 1), ("firstTrailingBit", 1), ("reverseBits", 1)]

/-- Functions that change a number shared by several invocations and give its old value. -/
def atomicFunctions : List String := [
  "atomicAdd", "atomicSub", "atomicMax", "atomicMin", "atomicAnd", "atomicOr", "atomicXor",
  "atomicExchange"]

/-- Functions whose arguments and results are not followed. -/
def otherFunctions : List String := [
  "atomicCompareExchangeWeak", "determinant", "dot4I8Packed", "dot4U8Packed", "extractBits",
  "frexp", "insertBits", "ldexp", "modf", "outerProduct", "pack2x16float", "pack2x16snorm",
  "pack2x16unorm", "pack4x8snorm", "pack4x8unorm", "pack4xI8", "pack4xI8Clamp", "pack4xU8",
  "pack4xU8Clamp", "quantizeToF16", "refract", "transpose", "unpack2x16float", "unpack2x16snorm",
  "unpack2x16unorm", "unpack4x8snorm", "unpack4x8unorm", "unpack4xI8", "unpack4xU8",
  "workgroupUniformLoad"]

/-- Functions that make invocations wait for each other. -/
def barriers : List String := ["storageBarrier", "workgroupBarrier", "textureBarrier"]

namespace ValueType

/-- The type that all of some values have in common. -/
def joinAll? : List ValueType → Option ValueType
  | [] => none
  | first :: rest => rest.foldlM join? first

/-- The result of a function between numbers of one kind. -/
def uniform? (accepts : ValueType → Bool) (arity : Nat) (arguments : List ValueType) :
    Option ValueType :=
  if arguments.length = arity ∧ arguments.all accepts then joinAll? arguments else none

/-- Whole numbers of an open type as fractional ones. -/
def fractional (t : ValueType) : ValueType :=
  if t.item = .number .anyWhole then t.withItem (.number .anyFraction) else t

/-- The result of a function that every program has; `none` inside where there is no result. -/
def ofFunction? (name : String) (arguments : List ValueType) : Option (Option ValueType) :=
  match fractionalFunctions.lookup name, numericFunctions.lookup name,
    wholeFunctions.lookup name with
  | some arity, _, _ => do return some (← uniform? isFractional arity arguments).fractional
  | _, some arity, _ => do return some (← uniform? isNumeric arity arguments)
  | _, _, some arity => do return some (← uniform? isWhole arity arguments)
  | none, none, none =>
    match name, arguments with
    | "length", [t] => do return some (← guarded t.isFractional t.fractional.item)
    | "distance", [s, t] => do
      return some (← uniform? isFractional 2 [s, t]).fractional.item
    | "dot", [s, t] => do return some (← uniform? isNumeric 2 [s, t]).item
    | "mix", [s, t, share] => do
      let joined ← uniform? isFractional 2 [s, t]
      let _ ← guarded (fits share joined.fractional || fits share joined.fractional.item) share
      return some joined.fractional
    | "select", [s, t, condition] => do
      let _ ← guarded condition.isTruth condition
      return some (← join? s t)
    | "all", [t] => do return some (← guarded t.isTruth .bool)
    | "any", [t] => do return some (← guarded t.isTruth .bool)
    | "arrayLength", [.pointer (.array _)] => some (some unsigned)
    | "atomicLoad", [.pointer (.atomic item)] => some (some item)
    | "atomicStore", [.pointer (.atomic item), value] => do
      let _ ← guarded (fits value item) value
      return none
    | _, [.pointer (.atomic item), value] =>
      if atomicFunctions.contains name then do return some (← guarded (fits value item) item)
      else if otherFunctions.contains name then some (some .other)
      else none
    | _, _ =>
      if otherFunctions.contains name then some (some .other)
      else if barriers.contains name ∧ arguments.isEmpty then some none
      else none

end ValueType

/-! ### Expressions -/

namespace Names

/-- The result of a call, given the types of the arguments; `none` inside where there is no
result. -/
def ofCall? (names : Names) (name : String) (parameters : List Expr)
    (arguments : List ValueType) : Option (Option ValueType) :=
  match names.functions.lookup name with
  | some signature =>
    if parameters.isEmpty && signature.parameters.length == arguments.length &&
        (arguments.zip signature.parameters).all fun (argument, parameter) =>
          argument.fits parameter then
      some signature.result
    else none
  | none =>
    match name, parameters with
    | "bitcast", [t] => do return some (← names.typeOf? t)
    | "vec2", [] => do return some (← ValueType.inferredVector? 2 arguments)
    | "vec3", [] => do return some (← ValueType.inferredVector? 3 arguments)
    | "vec4", [] => do return some (← ValueType.inferredVector? 4 arguments)
    | "array", [] => some (some .other)
    | _, _ =>
      match names.typeOf? (.name name parameters) with
      | some t => do return some (← ValueType.guarded (names.makes t arguments) t)
      | none => if parameters.isEmpty then ValueType.ofFunction? name arguments else none

mutual

/-- The type of an expression. -/
def infer? (names : Names) (scopes : Scopes) : Expr → Option ValueType
  | .number t => some (.number t)
  | .truth => some .bool
  | .name name parameters =>
    if parameters.isEmpty then (names.meaning? scopes name).map Meaning.type else none
  | .call name parameters arguments => do
    let result ← names.ofCall? name parameters (← inferAll? names scopes arguments)
    result
  | .member whole name => do names.member? name (← infer? names scopes whole)
  | .element whole index => do
    let place ← infer? names scopes index
    let whole ← infer? names scopes whole
    if place.isWhole then whole.element? else none
  | .unary operator operand => do ValueType.ofUnary? operator (← infer? names scopes operand)
  | .binary operator left right => do
    ValueType.ofBinary? operator (← infer? names scopes left) (← infer? names scopes right)

/-- The types of some expressions. -/
def inferAll? (names : Names) (scopes : Scopes) : List Expr → Option (List ValueType)
  | [] => some []
  | first :: rest => do
    return (← infer? names scopes first) :: (← inferAll? names scopes rest)

end

/-- Whether an expression stands for memory that can be assigned. Several components at once
cannot. -/
def assignable (names : Names) (scopes : Scopes) : Expr → Bool
  | .name name [] => ((names.meaning? scopes name).map Meaning.assignable).getD false
  | .member whole name =>
    match names.infer? scopes whole with
    | some (.vector _ _) => decide (name.length = 1) && assignable names scopes whole
    | some (.pointer _) => true
    | some _ => assignable names scopes whole
    | none => false
  | .element whole _ =>
    match names.infer? scopes whole with
    | some (.pointer _) => true
    | some _ => assignable names scopes whole
    | none => false
  | .unary "*" _ => true
  | _ => false

end Names

end Source

end ParticleDynamics
