import ParticleDynamics.Scalar

/-!
# Vectors

Vectors of the plane, and the four components of a colour. Operations act on the components one by
one, in the order in which they are written, because a rounding scalar is not associative.

The componentwise maximum and minimum are not the scalar ones: each compares once and otherwise
takes its *second* argument, so a component of the first argument that is not a number is replaced.
-/

namespace ParticleDynamics

/-- A vector of the plane. -/
structure Vec2 (α : Type) where
  /-- the horizontal component -/
  x : α
  /-- the vertical component -/
  y : α
deriving BEq, DecidableEq, Repr

/-- Four components, as a colour has them. -/
structure Vec4 (α : Type) where
  /-- the first component -/
  x : α
  /-- the second component -/
  y : α
  /-- the third component -/
  z : α
  /-- the fourth component -/
  w : α
deriving BEq, DecidableEq, Repr

namespace Vec2

variable {α : Type} [Scalar α]

/-- The vector with both components equal. -/
@[inline] def splat (a : α) : Vec2 α := ⟨a, a⟩

/-- The zero vector. -/
@[inline] def zero : Vec2 α := ⟨0, 0⟩

instance : Zero (Vec2 α) := ⟨zero⟩
instance : Inhabited (Vec2 α) := ⟨zero⟩
instance : Add (Vec2 α) := ⟨fun a b => ⟨a.x + b.x, a.y + b.y⟩⟩
instance : Sub (Vec2 α) := ⟨fun a b => ⟨a.x - b.x, a.y - b.y⟩⟩
instance : Neg (Vec2 α) := ⟨fun a => ⟨-a.x, -a.y⟩⟩
instance : HMul (Vec2 α) α (Vec2 α) := ⟨fun a s => ⟨a.x * s, a.y * s⟩⟩
instance : HDiv (Vec2 α) α (Vec2 α) := ⟨fun a s => ⟨a.x / s, a.y / s⟩⟩

/-- One function on both components. -/
@[inline] def map (f : α → α) (a : Vec2 α) : Vec2 α := ⟨f a.x, f a.y⟩

/-- The inner product. -/
@[inline] def dot (a b : Vec2 α) : α := a.x * b.x + a.y * b.y

/-- The squared Euclidean length. -/
@[inline] def lengthSquared (a : Vec2 α) : α := a.dot a

/-- The Euclidean length. -/
@[inline] def length (a : Vec2 α) : α := Scalar.sqrt (a.dot a)

/-- The Euclidean distance. -/
@[inline] def distance (a b : Vec2 α) : α := (a - b).length

/-- The squared Euclidean distance. -/
@[inline] def distanceSquared (a b : Vec2 α) : α := (a - b).lengthSquared

/-- The larger component on each axis; the second argument's unless the first is larger. -/
@[inline] def maximum (a b : Vec2 α) : Vec2 α :=
  ⟨if b.x < a.x then a.x else b.x, if b.y < a.y then a.y else b.y⟩

/-- The smaller component on each axis; the second argument's unless the first is smaller. -/
@[inline] def minimum (a b : Vec2 α) : Vec2 α :=
  ⟨if a.x < b.x then a.x else b.x, if a.y < b.y then a.y else b.y⟩

/-- The vector moved into the box from `lo` to `hi`, the lower corner first. -/
@[inline] def clamp (a lo hi : Vec2 α) : Vec2 α := (a.maximum lo).minimum hi

/-- The larger of the two components; the second unless the first is larger. -/
@[inline] def largest (a : Vec2 α) : α := if a.y < a.x then a.x else a.y

@[simp] theorem add_x (a b : Vec2 α) : (a + b).x = a.x + b.x := rfl
@[simp] theorem add_y (a b : Vec2 α) : (a + b).y = a.y + b.y := rfl
@[simp] theorem sub_x (a b : Vec2 α) : (a - b).x = a.x - b.x := rfl
@[simp] theorem sub_y (a b : Vec2 α) : (a - b).y = a.y - b.y := rfl
@[simp] theorem neg_x (a : Vec2 α) : (-a).x = -a.x := rfl
@[simp] theorem neg_y (a : Vec2 α) : (-a).y = -a.y := rfl
@[simp] theorem mul_x (a : Vec2 α) (s : α) : (a * s).x = a.x * s := rfl
@[simp] theorem mul_y (a : Vec2 α) (s : α) : (a * s).y = a.y * s := rfl
@[simp] theorem div_x (a : Vec2 α) (s : α) : (a / s).x = a.x / s := rfl
@[simp] theorem div_y (a : Vec2 α) (s : α) : (a / s).y = a.y / s := rfl

end Vec2

namespace Vec4

variable {α : Type} [Scalar α]

/-- The four components all equal. -/
@[inline] def splat (a : α) : Vec4 α := ⟨a, a, a, a⟩

/-- The components in order. -/
def toList (a : Vec4 α) : List α := [a.x, a.y, a.z, a.w]

end Vec4

end ParticleDynamics
