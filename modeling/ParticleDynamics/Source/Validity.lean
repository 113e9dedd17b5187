import ParticleDynamics.Source.Grammar
import ParticleDynamics.Source.Typing

/-!
# Valid programs

Which texts a device takes as programs. Beyond the grammar a program has to obey these rules:

* two declarations at module scope, or in one block, do not share a name;
* every expression has a type, and a value goes only where its type fits;
* only memory is assigned, and only memory that the program may change;
* a loop is left or continued only from within, and never from what is done between two rounds;
* a function with a result gives one on every path.

A block is checked from the front, and every statement hands the names that are known after it to
the next one; a statement that breaks a rule hands on nothing.
-/

namespace ParticleDynamics

namespace Source

/-- What the place of a statement allows. -/
structure Place where
  /-- the names at module scope -/
  names : Names
  /-- the type of the function's result, if there is one -/
  result : Option ValueType
  /-- whether a loop or a choice can be ended -/
  leaves : Bool := false
  /-- whether the next round of a loop can be begun -/
  continues : Bool := false
  /-- whether the function can be ended -/
  returns : Bool := true

namespace Place

/-- The place inside the body of a loop. -/
def inLoop (place : Place) : Place := { place with leaves := true, continues := true }

/-- The place inside a clause of a choice. -/
def inClause (place : Place) : Place := { place with leaves := true }

/-- The place between two rounds of a loop. -/
def betweenRounds (place : Place) : Place :=
  { place with leaves := false, continues := false, returns := false }

/-! ### Values -/

/-- Whether an expression has a type that fits. -/
def accepts (place : Place) (scopes : Scopes) (value : Expr) (wanted : ValueType) : Bool :=
  ((place.names.infer? scopes value).map fun t => t.fits wanted).getD false

/-- Whether a condition, where there is one, has a truth value. -/
def acceptsCondition (place : Place) (scopes : Scopes) (condition : Option Expr) : Bool :=
  condition.all fun value => place.accepts scopes value .bool

/-- Whether the value that a function is ended with is the one it promises. -/
def acceptsResult (place : Place) (scopes : Scopes) (value : Option Expr) : Bool :=
  match place.result, value with
  | some wanted, some value => place.accepts scopes value wanted
  | none, none => true
  | _, _ => false

/-- Whether a value can be assigned to a target. -/
def assigns (place : Place) (scopes : Scopes) (target : Expr) (operator : Option String)
    (value : Expr) : Bool :=
  match place.names.infer? scopes target, place.names.infer? scopes value with
  | some old, some new =>
    let combined := match operator with
      | some sign => ValueType.ofBinary? sign old new
      | none => some new
    place.names.assignable scopes target && (combined.map fun t => t.fits old).getD false
  | _, _ => false

/-- Whether a target can be counted up or down. -/
def counts (place : Place) (scopes : Scopes) (target : Expr) : Bool :=
  match place.names.infer? scopes target with
  | some (.number n) => n.isWhole && place.names.assignable scopes target
  | some .other => place.names.assignable scopes target
  | _ => false

/-- Whether a choice by values has a value to choose by, labels of its type, and exactly one clause
for all other values. -/
def chooses (place : Place) (scopes : Scopes) (selector : Expr) (labels : List (Option Expr)) :
    Bool :=
  match place.names.infer? scopes selector with
  | some t =>
    decide (t.width = 1) && t.isWhole && decide ((labels.filter Option.isNone).length = 1) &&
      labels.all fun label => label.all fun value => place.accepts scopes value t
  | none => false

/-! ### Names -/

/-- The type of a name that is introduced with a type or a value or both. -/
def introduced? (names : Names) (scopes : Scopes) (type value : Option Expr) :
    Option ValueType :=
  match type, value with
  | some type, none => names.typeOf? type
  | none, some value => do
    let t ← names.infer? scopes value
    ValueType.guarded t.isNameable t
  | some type, some value => do
    let wanted ← names.typeOf? type
    let t ← names.infer? scopes value
    ValueType.guarded (t.fits wanted) wanted
  | none, none => none

/-- The names after a new one in the innermost block. The type of a constant stays open as long as
its value leaves it open. -/
def declare? (place : Place) (scopes : Scopes) (kind : LocalKind) (name : String)
    (type value : Option Expr) : Option Scopes := do
  let t ← introduced? place.names scopes type value
  match scopes with
  | [] => none
  | scope :: outer =>
    if (scope.lookup name).isSome then none
    else
      let t := if kind = .constant then t else t.settled
      return ((name, ⟨t, decide (kind = .place)⟩) :: scope) :: outer

end Place

/-- The labels of a clause. -/
def Clause.labels : Clause → List (Option Expr)
  | .clause labels _ => labels

/-! ### Statements -/

mutual

/-- The names after a statement, if it is valid. -/
def Statement.check? (place : Place) (scopes : Scopes) : Statement → Option Scopes
  | .declare kind name type value => place.declare? scopes kind name type value
  | .assign target operator value =>
    if place.assigns scopes target operator value then some scopes else none
  | .count target => if place.counts scopes target then some scopes else none
  | .forget value => if (place.names.infer? scopes value).isSome then some scopes else none
  | .call (.call name parameters arguments) => do
    let _ ← place.names.ofCall? name parameters (← place.names.inferAll? scopes arguments)
    return scopes
  | .call _ => none
  | .result value =>
    if place.returns && place.acceptsResult scopes value then some scopes else none
  | .branch condition yes no => do
    let _ ← checkAll? place ([] :: scopes) yes
    let _ ← checkAll? place ([] :: scopes) no
    if place.accepts scopes condition .bool then some scopes else none
  | .choose selector clauses =>
    if place.chooses scopes selector (clauses.flatMap Clause.labels) &&
        checkClauses place.inClause scopes clauses then
      some scopes
    else none
  | .loop body between exit => do
    let inside ← checkAll? place.inLoop ([] :: scopes) body
    let last ← checkAll? place.betweenRounds ([] :: inside) between
    if place.acceptsCondition last exit then some scopes else none
  | .rounds first condition body last => do
    let begun ← checkAll? place ([] :: scopes) first
    let _ ← checkAll? place.inLoop begun body
    let _ ← checkAll? place.betweenRounds begun last
    if place.acceptsCondition begun condition then some scopes else none
  | .leave => if place.leaves then some scopes else none
  | .next => if place.continues then some scopes else none
  | .discard => none
  | .assert condition => if place.accepts scopes condition .bool then some scopes else none
  | .block body => do
    let _ ← checkAll? place ([] :: scopes) body
    return scopes

/-- The names after some statements, if they are valid. -/
def checkAll? (place : Place) (scopes : Scopes) : List Statement → Option Scopes
  | [] => some scopes
  | first :: rest => do checkAll? place (← first.check? place scopes) rest

/-- Whether the statements of some clauses are valid. -/
def checkClauses (place : Place) (scopes : Scopes) : List Clause → Bool
  | [] => true
  | .clause _ body :: rest =>
    (checkAll? place ([] :: scopes) body).isSome && checkClauses place scopes rest

end

mutual

/-- Whether no path goes past a statement that ends a block. -/
def Statement.isFinal : Statement → Bool
  | .result _ | .leave | .next | .discard => true
  | .branch _ yes no => endsFinally yes && endsFinally no
  | .choose _ clauses => clausesEndFinally clauses
  | .block body => endsFinally body
  | _ => false

/-- Whether no path goes past the end of some statements. -/
def endsFinally : List Statement → Bool
  | [] => false
  | [last] => last.isFinal
  | _ :: rest => endsFinally rest

/-- Whether no path goes past the end of some clauses. -/
def clausesEndFinally : List Clause → Bool
  | [] => true
  | .clause _ body :: rest => endsFinally body && clausesEndFinally rest

end

/-! ### Module scope -/

/-- The ways in which the memory of a variable is named. -/
def addressSpaces : List (List String) := [
  ["private"], ["workgroup"], ["uniform"], ["storage"], ["storage", "read"],
  ["storage", "read_write"]]

/-- The memory that a program may change. -/
def writableSpaces : List (List String) := [["private"], ["workgroup"], ["storage", "read_write"]]

namespace Names

/-- Names with their types. -/
def typeAll? (names : Names) (typed : List (String × Expr)) : Option (List (String × ValueType)) :=
  typed.mapM fun (name, type) => do return (name, ← names.typeOf? type)

/-- The types of a function's parameters and result. -/
def signature? (names : Names) (f : Function) : Option Signature := do
  let parameters ← names.typeAll? f.parameters
  match f.result with
  | none => return ⟨parameters.map Prod.snd, none⟩
  | some result => return ⟨parameters.map Prod.snd, some (← names.typeOf? result)⟩

/-- The names with those of types added, the fields of the records still missing. -/
def withTypes (names : Names) : Global → Names
  | .record name _ => { names with records := (name, []) :: names.records }
  | .synonym name _ => { names with synonyms := name :: names.synonyms }
  | _ => names

/-- The names with the meaning of a declaration added, given the names of all types. -/
def withMeaning? (types : Names) (names : Names) : Global → Option Names
  | .record name fields => do
    let typed ← types.typeAll? fields
    if typed ≠ [] ∧ (typed.map Prod.fst).Nodup then
      return { names with records := (name, typed) :: names.records }
    else none
  | .synonym name type => do
    let _ ← types.typeOf? type
    return { names with synonyms := name :: names.synonyms }
  | .constant name type value => do
    let t ← match type, value with
      | some type, _ => types.typeOf? type
      | none, some _ => some .other
      | none, none => none
    return { names with values := (name, ⟨t, false⟩) :: names.values }
  | .place name qualifiers type value => do
    let t ← match type, value with
      | some type, _ => types.typeOf? type
      | none, some _ => some .other
      | none, none => none
    if addressSpaces.contains qualifiers then
      return { names with
        values := (name, ⟨t, writableSpaces.contains qualifiers⟩) :: names.values }
    else none
  | .function name f => do
    let signature ← types.signature? f
    return { names with functions := (name, signature) :: names.functions }
  | .assertion _ => return names

/-- The names with the type of a constant made as definite as its value allows. -/
def refined (names : Names) : Global → Names
  | .constant name none (some value) =>
    match names.infer? [] value with
    | some t => { names with values := (name, ⟨t, false⟩) :: names.values }
    | none => names
  | _ => names

/-- The names at module scope, if they have meanings. -/
def ofGlobals? (globals : List Global) : Option Names := do
  let types := globals.foldl withTypes {}
  let names ← globals.foldlM (withMeaning? types) {}
  return globals.foldl refined names

/-- Whether a function is valid. It cannot call itself. -/
def acceptsFunction (names : Names) (name : String) (f : Function) : Bool :=
  match names.signature? f with
  | some signature =>
    let scope := (f.parameters.map Prod.fst).zip (signature.parameters.map (⟨·, false⟩))
    let callable := names.functions.filter fun entry => entry.1 ≠ name
    let place : Place :=
      { names := { names with functions := callable }, result := signature.result }
    decide (f.parameters.map Prod.fst).Nodup && (checkAll? place [scope] f.body).isSome &&
      (signature.result.isNone || endsFinally f.body)
  | none => false

/-- Whether a declaration is valid. -/
def acceptsGlobal (names : Names) : Global → Bool
  | .record _ _ => true
  | .synonym _ _ => true
  | .constant _ type value => (Place.introduced? names [] type value).isSome
  | .place _ _ type value => (Place.introduced? names [] type value).isSome
  | .function name f => names.acceptsFunction name f
  | .assertion condition => ((names.infer? [] condition).map fun t => t.fits .bool).getD false

end Names

/-- Whether declarations make a valid program. -/
def isValid (globals : List Global) : Bool :=
  decide (globals.filterMap Global.name?).Nodup &&
    match Names.ofGlobals? globals with
    | some names => globals.all names.acceptsGlobal
    | none => false

/-- Whether a text is a valid program. -/
def isProgram (text : String) : Bool := ((ofText? text).map isValid).getD false

end Source

end ParticleDynamics
