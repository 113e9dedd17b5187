import ParticleDynamics.Json.Value

/-!
# Reading structured text

A strict reader: no comments, no comma after the last item, no mark in front, blanks only where the
format has them, and nothing but blanks after the value.

Strings are read in two passes. The first finds the end and turns escapes into pieces, the second
joins the two halves of a character that was escaped as two; a half that is left alone makes the
string `none` but is not an error of the text. Control characters and unknown escapes are.

The nesting is limited only by the length of the text, which is what the recursion counts down.
-/

namespace ParticleDynamics

namespace Json

/-- Whether a character may stand between tokens. -/
def isBlank (c : Char) : Bool := c == ' ' || c == '\t' || c == '\n' || c == '\r'

/-- A text without the blanks at its front. -/
def skipBlanks (input : List Char) : List Char := input.dropWhile isBlank

/-! ### Strings -/

/-- A piece of a string: a character, or what an escape by number names. -/
inductive Piece where
  /-- a character -/
  | char (c : Char)
  /-- a 16-bit unit -/
  | unit (n : Nat)
deriving DecidableEq, Repr

/-- The value of a hexadecimal digit. -/
def hexValue? (c : Char) : Option Nat :=
  if '0' ≤ c ∧ c ≤ '9' then some (c.toNat - 48)
  else if 'a' ≤ c ∧ c ≤ 'f' then some (c.toNat - 87)
  else if 'A' ≤ c ∧ c ≤ 'F' then some (c.toNat - 55)
  else none

/-- The unit that four hexadecimal digits name. -/
def unit? (a b c d : Char) : Option Nat := do
  return ((← hexValue? a) * 16 + (← hexValue? b)) * 256 + (← hexValue? c) * 16 + (← hexValue? d)

/-- The character of an escape with one letter. -/
def unescape? (c : Char) : Option Char :=
  match c with
  | '"' => some '"'
  | '\\' => some '\\'
  | '/' => some '/'
  | 'b' => some '\x08'
  | 'f' => some '\x0c'
  | 'n' => some '\n'
  | 'r' => some '\r'
  | 't' => some '\t'
  | _ => none

/-- The pieces of a string up to its closing mark, and what follows it. -/
def readPieces : List Char → Option (List Piece × List Char)
  | [] => none
  | '"' :: rest => some ([], rest)
  | '\\' :: 'u' :: a :: b :: c :: d :: rest => do
    let n ← unit? a b c d
    let (pieces, rest') ← readPieces rest
    return (.unit n :: pieces, rest')
  | '\\' :: c :: rest => do
    let c ← unescape? c
    let (pieces, rest') ← readPieces rest
    return (.char c :: pieces, rest')
  | c :: rest =>
    if c.toNat < 32 then none
    else do
      let (pieces, rest') ← readPieces rest
      return (.char c :: pieces, rest')

/-- The characters of a list of pieces; nothing when half of a character stands alone. -/
def joinPieces : List Piece → Option (List Char)
  | [] => some []
  | .char c :: rest => (joinPieces rest).map (c :: ·)
  | .unit high :: .unit low :: rest =>
    if 0xd800 ≤ high ∧ high < 0xdc00 then
      if 0xdc00 ≤ low ∧ low < 0xe000 then
        (joinPieces rest).map
          (Char.ofNat (0x10000 + (high - 0xd800) * 0x400 + (low - 0xdc00)) :: ·)
      else none
    else if 0xdc00 ≤ high ∧ high < 0xe000 then none
    else (joinPieces (.unit low :: rest)).map (Char.ofNat high :: ·)
  | .unit n :: rest =>
    if 0xd800 ≤ n ∧ n < 0xe000 then none
    else (joinPieces rest).map (Char.ofNat n :: ·)

/-- A string after its opening mark, and what follows it. -/
def readString (input : List Char) : Option (Option String × List Char) := do
  let (pieces, rest) ← readPieces input
  return ((joinPieces pieces).map String.ofList, rest)

/-! ### Values -/

mutual

/-- A value at the front of a text, and what follows it. -/
def readValue : (fuel : Nat) → List Char → Option (Value × List Char)
  | 0, _ => none
  | fuel + 1, input =>
    match skipBlanks input with
    | 'n' :: 'u' :: 'l' :: 'l' :: rest => some (.null, rest)
    | 't' :: 'r' :: 'u' :: 'e' :: rest => some (.bool true, rest)
    | 'f' :: 'a' :: 'l' :: 's' :: 'e' :: rest => some (.bool false, rest)
    | '"' :: rest => (readString rest).map fun (content, rest') => (.text content, rest')
    | '[' :: rest =>
      match skipBlanks rest with
      | ']' :: rest' => some (.array [], rest')
      | _ => (readItems fuel rest).map fun (items, rest') => (.array items, rest')
    | '\x7b' :: rest =>
      match skipBlanks rest with
      | '\x7d' :: rest' => some (.object [], rest')
      | _ => (readMembers fuel rest).map fun (members, rest') => (.object members, rest')
    | rest => (Literal.read rest).map fun (literal, rest') => (.number literal, rest')

/-- The items of a list up to its closing bracket, at least one, and what follows. -/
def readItems : (fuel : Nat) → List Char → Option (List Value × List Char)
  | 0, _ => none
  | fuel + 1, input => do
    let (item, rest) ← readValue fuel input
    match skipBlanks rest with
    | ',' :: rest' =>
      let (items, rest'') ← readItems fuel rest'
      return (item :: items, rest'')
    | ']' :: rest' => return ([item], rest')
    | _ => none

/-- The members of an object up to its closing bracket, at least one, and what follows. -/
def readMembers : (fuel : Nat) → List Char → Option (List (Option String × Value) × List Char)
  | 0, _ => none
  | fuel + 1, input =>
    match skipBlanks input with
    | '"' :: afterMark => do
      let (name, afterName) ← readString afterMark
      match skipBlanks afterName with
      | ':' :: afterColon =>
        let (value, rest) ← readValue fuel afterColon
        match skipBlanks rest with
        | ',' :: rest' =>
          let (members, rest'') ← readMembers fuel rest'
          return ((name, value) :: members, rest'')
        | '\x7d' :: rest' => return ([(name, value)], rest')
        | _ => none
      | _ => none
    | _ => none

end

/-- The value that is the whole of a text. -/
def read? (text : String) : Option Value :=
  let input := text.toList
  match readValue (input.length + 1) input with
  | some (value, rest) => if (skipBlanks rest).isEmpty then some value else none
  | none => none

end Json

end ParticleDynamics
