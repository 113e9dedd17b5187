import ParticleDynamics.Decimal.Literal
import ParticleDynamics.Source.Letter

/-!
# Tokens

The words, numbers and signs that the text of a program is made of. Blanks and comments separate
them and are dropped; a comment runs to the end of its line, or is enclosed and may then contain
others. Of several signs that begin alike the longest counts.

A number has a type by the way it is written: a suffix fixes it, a point or an exponent makes it
fractional, and what is left open is decided where the number is used.
-/

namespace ParticleDynamics

namespace Source

/-- The type that a number has by how it is written. -/
inductive NumberType where
  /-- a whole number of whatever type is wanted -/
  | anyWhole
  /-- a fractional number -/
  | anyFraction
  /-- a signed integer -/
  | signed
  /-- a word -/
  | unsigned
  /-- a number of single precision -/
  | single
deriving DecidableEq, Repr

/-- A token. -/
inductive Token where
  /-- a name or a keyword -/
  | word (name : String)
  /-- a number -/
  | number (type : NumberType)
  /-- a bracket, a separator or an operator -/
  | sign (text : String)
deriving DecidableEq, Repr

namespace Token

/-! ### Blanks and comments -/

/-- The characters that end a line. -/
def isLineEnd (c : Char) : Bool :=
  let code := c.toNat
  decide (10 ≤ code ∧ code ≤ 13) || code == 0x85 || code == 0x2028 || code == 0x2029

/-- The characters that separate tokens. -/
def isBlank (c : Char) : Bool :=
  isLineEnd c || c == ' ' || c == '\t' || c.toNat == 0x200e || c.toNat == 0x200f

/-- What follows an enclosed comment, given the number of comments that are open. -/
def afterComment : (depth : Nat) → List Char → Option (List Char)
  | 0, rest => some rest
  | _ + 1, [] => none
  | depth + 1, '*' :: '/' :: rest => afterComment depth rest
  | depth + 1, '/' :: '*' :: rest => afterComment (depth + 2) rest
  | depth + 1, _ :: rest => afterComment (depth + 1) rest
termination_by depth rest => (rest.length, depth)

/-! ### Numbers -/

/-- A number with its suffix, if a suffix follows that it can have. -/
def suffixed (bounded : Nat → Bool) (value : Nat) : List Char → Option (NumberType × List Char)
  | 'i' :: rest => if value ≤ 2147483647 then some (.signed, rest) else none
  | 'u' :: rest => if value ≤ 4294967295 then some (.unsigned, rest) else none
  | rest => if bounded value then some (.anyWhole, rest) else none

/-- Whether a whole number without a suffix can be written. -/
def isBounded (value : Nat) : Bool := value < 9223372036854775808

/-- A hexadecimal number after its mark. -/
def readHex (input : List Char) : Option (NumberType × List Char) :=
  let isHex (c : Char) : Bool :=
    c.isDigit || ('a' ≤ c && c ≤ 'f') || ('A' ≤ c && c ≤ 'F')
  let value (c : Char) : Nat := if c.isDigit then c.toNat - 48 else c.toLower.toNat - 87
  match input.takeWhile isHex with
  | [] => none
  | digits => suffixed isBounded (digits.foldl (fun n c => 16 * n + value c) 0)
      (input.dropWhile isHex)

/-- What follows the exponent of a number; the flag tells whether there is one. -/
def readExponent : List Char → Option (Bool × List Char)
  | c :: rest =>
    if c = 'e' ∨ c = 'E' then
      let digits := match rest with
        | '-' :: rest' => rest'
        | '+' :: rest' => rest'
        | rest' => rest'
      match Digit.span digits with
      | ([], _) => none
      | (_, rest') => some (true, rest')
    else some (false, c :: rest)
  | [] => some (false, [])

/-- A fractional number with its suffix, if there is one. -/
def fraction : List Char → NumberType × List Char
  | 'f' :: rest => (.single, rest)
  | rest => (.anyFraction, rest)

/-- A number at the front of a text, and what follows it. -/
def readNumber : List Char → Option (NumberType × List Char)
  | '0' :: 'x' :: rest => readHex rest
  | '0' :: 'X' :: rest => readHex rest
  | input =>
    let (whole, afterWhole) := Digit.span input
    match afterWhole with
    | '.' :: rest =>
      let (_, afterFraction) := Digit.span rest
      (readExponent afterFraction).map fun (_, rest') => fraction rest'
    | 'f' :: rest => some (.single, rest)
    | rest => do
      let (hasExponent, rest') ← readExponent rest
      if hasExponent then return fraction rest'
      else if whole.head? = some Digit.zero ∧ 1 < whole.length then none
      else suffixed isBounded (Digit.toNat whole) rest'

/-! ### Signs -/

/-- The signs, those with more characters first. -/
def signs : List String := [
  "<<=", ">>=",
  "->", "++", "--", "+=", "-=", "*=", "/=", "%=", "^=", "&=", "|=", "==", "!=", "<=", ">=", "<<",
  ">>", "&&", "||",
  ":", ";", ",", ".", "@", "(", ")", "\x7b", "\x7d", "[", "]", "<", ">", "/", "-", "+", "*", "%",
  "~", "=", "!", "^", "&", "|"]

/-- The sign at the front of a text. -/
def sign? (input : List Char) : Option String :=
  signs.find? fun text => text.toList.isPrefixOf input

/-! ### Reading -/

/-- Whether a number begins here: with a digit, or with a point before a digit. -/
def beginsNumber : List Char → Bool
  | '.' :: c :: _ => c.isDigit
  | c :: _ => c.isDigit
  | [] => false

/-- The tokens of a text, as many as `fuel` allows. -/
def readAll : (fuel : Nat) → List Char → Option (List Token)
  | _, [] => some []
  | 0, _ => none
  | fuel + 1, '/' :: '/' :: rest => readAll fuel (rest.dropWhile fun c => !isLineEnd c)
  | fuel + 1, '/' :: '*' :: rest => (afterComment 1 rest).bind (readAll fuel)
  | fuel + 1, c :: rest =>
    if isBlank c then readAll fuel rest
    else if beginsNumber (c :: rest) then do
      let (type, rest') ← readNumber (c :: rest)
      return .number type :: (← readAll fuel rest')
    else if Letter.isInitial c then do
      let name := c :: rest.takeWhile Letter.isLater
      return .word (String.ofList name) :: (← readAll fuel (rest.dropWhile Letter.isLater))
    else do
      let text ← sign? (c :: rest)
      return .sign text :: (← readAll fuel ((c :: rest).drop text.length))

/-- The tokens of a text; nothing when there is a character that belongs to none. -/
def ofText? (text : String) : Option (List Token) :=
  let input := text.toList
  readAll (input.length + 1) input

end Token

end Source

end ParticleDynamics
