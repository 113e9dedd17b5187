import ParticleDynamics.Source.Token

/-!
# The structure of a program

A program is a list of declarations at module scope: records, constants, variables and functions.
A type is written like an expression: a name, perhaps with parameters between angle brackets, which
may be types or values. What a name stands for is not part of the structure.
-/

namespace ParticleDynamics

namespace Source

/-- An expression, or a type. -/
inductive Expr where
  /-- a number -/
  | number (type : NumberType)
  /-- a truth value -/
  | truth
  /-- a name, with parameters between angle brackets -/
  | name (name : String) (parameters : List Expr)
  /-- a call of a function, or the construction of a value of a type -/
  | call (name : String) (parameters arguments : List Expr)
  /-- a member of a record, or components of a vector -/
  | member (whole : Expr) (name : String)
  /-- an element of an array, or a component of a vector -/
  | element (whole index : Expr)
  /-- an operator before its operand -/
  | unary (operator : String) (operand : Expr)
  /-- an operator between its operands -/
  | binary (operator : String) (left right : Expr)

/-- How a name is introduced in a function. -/
inductive LocalKind where
  /-- a value that is known beforehand -/
  | constant
  /-- a value -/
  | value
  /-- a place that can be assigned -/
  | place
deriving DecidableEq, Repr

mutual

/-- A statement. -/
inductive Statement where
  /-- introduce a name -/
  | declare (kind : LocalKind) (name : String) (type value : Option Expr)
  /-- assign a value, perhaps combined with the old one by an operator -/
  | assign (target : Expr) (operator : Option String) (value : Expr)
  /-- add one or take one away -/
  | count (target : Expr)
  /-- compute a value and forget it -/
  | forget (value : Expr)
  /-- call a function -/
  | call (call : Expr)
  /-- end the function -/
  | result (value : Option Expr)
  /-- choose by a condition -/
  | branch (condition : Expr) (yes no : List Statement)
  /-- choose by a value -/
  | choose (selector : Expr) (clauses : List Clause)
  /-- repeat a body, with what is done between two rounds, which may end the loop -/
  | loop (body between : List Statement) (exit : Option Expr)
  /-- repeat a body as long as a condition holds; the first statements and the body share their
  names, and the last ones are done after each round -/
  | rounds (first : List Statement) (condition : Option Expr) (body last : List Statement)
  /-- end a loop or a choice -/
  | leave
  /-- go on with the next round of a loop -/
  | next
  /-- end the invocation -/
  | discard
  /-- state what has to hold beforehand -/
  | assert (condition : Expr)
  /-- statements with names of their own -/
  | block (body : List Statement)

/-- A clause of a choice: the values for which it is taken, and what is done then. -/
inductive Clause where
  /-- a clause; the label that stands for all other values is `none` -/
  | clause (labels : List (Option Expr)) (body : List Statement)

end

/-- A function. -/
structure Function where
  /-- the names and types of the parameters -/
  parameters : List (String × Expr)
  /-- the type of the result, if there is one -/
  result : Option Expr
  /-- the statements -/
  body : List Statement

/-- A declaration at module scope. -/
inductive Global where
  /-- a record type -/
  | record (name : String) (fields : List (String × Expr))
  /-- another name for a type -/
  | synonym (name : String) (type : Expr)
  /-- a constant -/
  | constant (name : String) (type value : Option Expr)
  /-- a variable, with the words that say where it lives and how it is used -/
  | place (name : String) (qualifiers : List String) (type value : Option Expr)
  /-- a function -/
  | function (name : String) (function : Function)
  /-- something that has to hold beforehand -/
  | assertion (condition : Expr)

/-- The name that a declaration introduces. -/
def Global.name? : Global → Option String
  | record name _ => some name
  | synonym name _ => some name
  | constant name _ _ => some name
  | place name _ _ _ => some name
  | function name _ => some name
  | assertion _ => none

end Source

end ParticleDynamics
