import ParticleDynamics.Scalar

/-!
# Single precision

The machine scalar is the 32-bit binary floating-point number, kept as its bits. Two values that are
not a number may differ in their bits, and the bits of a value that is only moved about come through
unchanged; only arithmetic looks at them.

A result that is a number is the one of the core library, which defines arithmetic on bit patterns
and knows a single value that is not a number. A result that is none follows the operands:

* the first operand that is not a number is the result, with its quiet bit set;
* when both operands are numbers, the operation has no result, and gives `undefined`.

Changing the sign and dropping it act on the sign bit alone, whatever the value is.

Rounding to whole values and truncation to a signed integer are written with operations that can be
reasoned about: below `2^23` in absolute value the whole part fits a 32-bit word and converts back
exactly, and from `2^23` on every value is whole already, the infinities included. Zero keeps its
sign under both roundings, and a value just below zero rounds up to negative zero.
-/

namespace ParticleDynamics

/-- A number of single precision, as its bits. -/
structure Single where
  /-- sign, exponent field and fraction, from the highest bit to the lowest -/
  bits : UInt32
deriving DecidableEq, Repr

namespace Single

/-! ### Numbers and their bits -/

/-- The number in the arithmetic of the core library. -/
@[inline] def value (x : Single) : Float32 := Float32.ofBits x.bits

/-- The number with a given value. -/
@[inline] def ofValue (value : Float32) : Single := ⟨value.toBits⟩

/-- The sign bit. -/
def signBit : UInt32 := 0x80000000

/-- The bit by which a value that is not a number is quiet. -/
def quietBit : UInt32 := 0x00400000

/-- What an operation gives that has no result. -/
def undefined : Single := ⟨0xffc00000⟩

/-- The value with its quiet bit set. -/
def quieted (x : Single) : Single := ⟨x.bits ||| quietBit⟩

/-- Whether the sign bit is set. -/
def isNegative (x : Single) : Bool := x.bits &&& signBit != 0

/-! ### Comparison -/

/-- Equality of numbers: both zeros are equal, and a value that is not a number equals nothing. -/
@[inline] def equal (x y : Single) : Bool := x.value == y.value

instance : BEq Single := ⟨equal⟩

instance : LT Single := ⟨fun x y => x.value < y.value⟩
instance : LE Single := ⟨fun x y => x.value ≤ y.value⟩

instance : DecidableLT Single := fun x y => inferInstanceAs (Decidable (x.value < y.value))
instance : DecidableLE Single := fun x y => inferInstanceAs (Decidable (x.value ≤ y.value))

/-- Whether the value is a number. -/
@[inline] def isNumber (x : Single) : Bool := x.equal x

/-! ### Arithmetic -/

/-- The result of an operation on one value that yields no number. -/
def failure (x : Single) : Single := if x.isNumber then undefined else x.quieted

/-- The result of an operation on two values that yields no number. -/
def failureOfTwo (x y : Single) : Single :=
  if x.isNumber then failure y else x.quieted

/-- An operation on one value. -/
@[inline] def lift (operation : Float32 → Float32) (x : Single) : Single :=
  let result := operation x.value
  if result == result then ofValue result else failure x

/-- An operation on two values. -/
@[inline] def liftTwo (operation : Float32 → Float32 → Float32) (x y : Single) : Single :=
  let result := operation x.value y.value
  if result == result then ofValue result else failureOfTwo x y

instance : Add Single := ⟨liftTwo Float32.add⟩
instance : Sub Single := ⟨liftTwo Float32.sub⟩
instance : Mul Single := ⟨liftTwo Float32.mul⟩
instance : Div Single := ⟨liftTwo Float32.div⟩
instance : Neg Single := ⟨fun x => ⟨x.bits ^^^ signBit⟩⟩

instance : OfScientific Single :=
  ⟨fun mantissa small exponent => ofValue (OfScientific.ofScientific mantissa small exponent)⟩

/-- Zero. -/
def zero : Single := ⟨0⟩

/-- One. -/
def one : Single := ⟨0x3f800000⟩

instance : Zero Single := ⟨zero⟩
instance : One Single := ⟨one⟩
instance : Inhabited Single := ⟨zero⟩

/-- The value without its sign. -/
def abs (x : Single) : Single := ⟨x.bits &&& 0x7fffffff⟩

/-! ### Whole numbers -/

/-- From this absolute value on there is no fractional part. -/
def wholeFrom : Float32 := 8388608

/-- The greatest whole value not above `x`, for a number. -/
def floorValue (x : Float32) : Float32 :=
  if x == 0 || !(x.abs < wholeFrom) then x
  else if 0 < x then x.toUInt32.toFloat32
  else
    let truncated := -((-x).toUInt32.toFloat32)
    if x < truncated then truncated - 1 else truncated

/-- The greatest whole value not above `x`. -/
def floor (x : Single) : Single := lift floorValue x

/-- The least whole value not below `x`. -/
def ceil (x : Single) : Single := lift (fun value => -floorValue (-value)) x

/-- The whole part as a word; out of range goes to the nearer end, no number to zero. -/
def toWord (x : Single) : UInt32 := x.value.toUInt32

/-- The whole part as a signed 32-bit integer. The magnitude is truncated and limited first, so
that only the two ends of the signed range remain to be respected. -/
def toSigned (x : Single) : Int :=
  if x.value < 0 then -(Int.ofNat (min (-x.value).toUInt32.toNat 2147483648))
  else Int.ofNat (min x.value.toUInt32.toNat 2147483647)

/-- The value nearest to a word. -/
def ofWord (n : UInt32) : Single := ofValue n.toFloat32

/-- The value nearest to a count. -/
def ofCount (n : Nat) : Single := ofValue (Float32.ofNat n)

/-- Changing the sign twice changes nothing, whatever the value is. -/
theorem neg_neg (x : Single) : - -x = x := by
  show Single.mk ((x.bits ^^^ signBit) ^^^ signBit) = x
  rw [UInt32.xor_assoc, UInt32.xor_self, UInt32.xor_zero]

end Single

instance : Scalar Single where
  decideLt := inferInstance
  decideLe := inferInstance
  abs := Single.abs
  floor := Single.floor
  ceil := Single.ceil
  sqrt := Single.lift Float32.sqrt
  cos := Single.lift Float32.cos
  sin := Single.lift Float32.sin
  ofWord := Single.ofWord
  ofCount := Single.ofCount
  toWord := Single.toWord
  toSigned := Single.toSigned

end ParticleDynamics
