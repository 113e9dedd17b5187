import ParticleDynamics.Decimal.Literal

/-!
# Structured text

A value of the interchange format, as it is written rather than as it is understood: a number is a
literal, an object keeps its members in order and may repeat a name, and a string may fail to be
text, because an escape can name half of a character. Such a string is `none`; it does no harm where
nobody looks at it.

`Value.compact` and `Value.pretty` write a value, without any blanks or with one member per line.
-/

namespace ParticleDynamics

namespace Json

/-- A value as it is written. -/
inductive Value where
  /-- the null value -/
  | null
  /-- a truth value -/
  | bool (value : Bool)
  /-- a number -/
  | number (literal : Literal)
  /-- a string; without content when it names half of a character -/
  | text (content : Option String)
  /-- a list of values -/
  | array (items : List Value)
  /-- a list of named values -/
  | object (members : List (Option String × Value))
deriving Repr

/-- A hexadecimal digit in lower case. -/
def hexDigit (n : Nat) : Char :=
  if n < 10 then Char.ofNat (48 + n) else Char.ofNat (87 + n)

/-- How a character is written inside a string. -/
def escape (c : Char) : List Char :=
  match c with
  | '"' => ['\\', '"']
  | '\\' => ['\\', '\\']
  | '\n' => ['\\', 'n']
  | '\r' => ['\\', 'r']
  | '\t' => ['\\', 't']
  | '\x08' => ['\\', 'b']
  | '\x0c' => ['\\', 'f']
  | c =>
    if c.toNat < 32 then ['\\', 'u', '0', '0', hexDigit (c.toNat / 16), hexDigit (c.toNat % 16)]
    else [c]

/-- A string with its quotation marks. -/
def quote (s : String) : List Char := '"' :: s.toList.flatMap escape ++ ['"']

namespace Value

/-- A string that is text. -/
def str (s : String) : Value := text (some s)

/-- A whole number. -/
def nat (n : Nat) : Value := number ⟨false, Digit.ofNat n, [], none⟩

/-- A whole number, possibly negative. -/
def int (n : Int) : Value := number ⟨decide (n < 0), Digit.ofNat n.natAbs, [], none⟩

/-- An object whose names are text. -/
def record (members : List (String × Value)) : Value :=
  object (members.map fun member => (some member.1, member.2))

/-- The characters of a string; one that is not text is written empty. -/
def quoted (s : Option String) : List Char := quote (s.getD "")

mutual

/-- The characters of a value without any blanks. -/
def compactChars : Value → List Char
  | null => ['n', 'u', 'l', 'l']
  | bool true => ['t', 'r', 'u', 'e']
  | bool false => ['f', 'a', 'l', 's', 'e']
  | number literal => literal.chars true
  | text content => quoted content
  | array items => '[' :: compactItems items ++ [']']
  | object members => '\x7b' :: compactMembers members ++ ['\x7d']

/-- The characters of the items of a list, with commas between them. -/
def compactItems : List Value → List Char
  | [] => []
  | [item] => compactChars item
  | item :: rest => compactChars item ++ ',' :: compactItems rest

/-- The characters of the members of an object, with commas between them. -/
def compactMembers : List (Option String × Value) → List Char
  | [] => []
  | [(name, value)] => quoted name ++ ':' :: compactChars value
  | (name, value) :: rest => quoted name ++ ':' :: compactChars value ++ ',' :: compactMembers rest

end

/-- The start of a line at a depth of nesting, two blanks for each. -/
def indent (depth : Nat) : List Char := '\n' :: List.replicate (2 * depth) ' '

mutual

/-- The characters of a value with one item or member per line, at a depth of nesting. -/
def prettyChars (depth : Nat) : Value → List Char
  | array [] => ['[', ']']
  | array items => '[' :: prettyItems (depth + 1) items ++ indent depth ++ [']']
  | object [] => ['\x7b', '\x7d']
  | object members => '\x7b' :: prettyMembers (depth + 1) members ++ indent depth ++ ['\x7d']
  | null => ['n', 'u', 'l', 'l']
  | bool true => ['t', 'r', 'u', 'e']
  | bool false => ['f', 'a', 'l', 's', 'e']
  | number literal => literal.chars true
  | text content => quoted content

/-- The characters of the items of a list, each on a line of its own. -/
def prettyItems (depth : Nat) : List Value → List Char
  | [] => []
  | [item] => indent depth ++ prettyChars depth item
  | item :: rest => indent depth ++ prettyChars depth item ++ ',' :: prettyItems depth rest

/-- The characters of the members of an object, each on a line of its own. -/
def prettyMembers (depth : Nat) : List (Option String × Value) → List Char
  | [] => []
  | [(name, value)] => indent depth ++ quoted name ++ ':' :: ' ' :: prettyChars depth value
  | (name, value) :: rest =>
    indent depth ++ quoted name ++ ':' :: ' ' :: prettyChars depth value ++
      ',' :: prettyMembers depth rest

end

/-- The text of a value without any blanks. -/
def compact (v : Value) : String := String.ofList v.compactChars

/-- The text of a value with one item or member per line. -/
def pretty (v : Value) : String := String.ofList (v.prettyChars 0)

end Value

end Json

end ParticleDynamics
