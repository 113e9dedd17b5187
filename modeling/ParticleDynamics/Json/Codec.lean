import ParticleDynamics.Decimal.Shortest
import ParticleDynamics.Json.Number
import ParticleDynamics.Json.Reader
import ParticleDynamics.Vector

/-!
# Numbers, vectors and records as structured text

How single-precision numbers are written: the shortest decimal, written out when its exponent lies
between minus six and twelve, with a plus sign before a positive exponent otherwise. A number that
is infinite or not a number is written as null, which does not read back.

A record with known fields is read from an object or from a list. In an object every name has to be
text, a known name may occur once, and unknown members are ignored; a list gives the fields in
order, may end early, and may not be longer. What a missing field means is for the record to say.
-/

namespace ParticleDynamics

namespace Json

/-- How decimals are laid out. -/
def style : DecimalStyle := ⟨-6, 12, true⟩

namespace Value

/-! ### Writing -/

/-- A number of single precision. -/
def ofSingle (x : Single) : Value :=
  match style.literal? x with
  | some literal => number literal
  | none => null

/-- A word. -/
def ofWord (n : UInt32) : Value := nat n.toNat

/-- A vector as a list of its components. -/
def ofVec2 (v : Vec2 Single) : Value := array [ofSingle v.x, ofSingle v.y]

/-- Four components as a list. -/
def ofVec4 (v : Vec4 Single) : Value :=
  array [ofSingle v.x, ofSingle v.y, ofSingle v.z, ofSingle v.w]

/-! ### Reading -/

/-- A number of single precision. -/
def single? : Value → Option Single
  | number literal => literal.toSingle?
  | _ => none

/-- A word. -/
def word? : Value → Option UInt32
  | number literal => literal.toWord?
  | _ => none

/-- A vector from a list of two numbers. -/
def vec2? : Value → Option (Vec2 Single)
  | array [x, y] => do return ⟨← x.single?, ← y.single?⟩
  | _ => none

/-- Four components from a list of four numbers. -/
def vec4? : Value → Option (Vec4 Single)
  | array [x, y, z, w] => do return ⟨← x.single?, ← y.single?, ← z.single?, ← w.single?⟩
  | _ => none

/-- The value of a known name, if it occurs; nothing at all when it occurs more than once. -/
def memberOnce (members : List (Option String × Value)) (name : String) : Option (Option Value) :=
  match members.filter fun member => member.1 = some name with
  | [] => some none
  | [member] => some (some member.2)
  | _ => none

/-- The fields of a record with the given names, in their order, those that are missing as
`none`. -/
def fields? (names : List String) : Value → Option (List (Option Value))
  | object members =>
    if members.all fun member => member.1.isSome then names.mapM (memberOnce members) else none
  | array items =>
    if items.length ≤ names.length then
      some (items.map some ++ List.replicate (names.length - items.length) none)
    else none
  | _ => none

end Value

end Json

end ParticleDynamics
