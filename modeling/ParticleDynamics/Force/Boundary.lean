import ParticleDynamics.Direction
import ParticleDynamics.Module.Basic

/-!
# Boundary

Walls around the particles, an upright box or a circle centred in that box. The constrain phase
moves a particle to the nearest allowed place; the correct phase reflects what is left of its
velocity into a wall that it touches. Pinned particles are left alone.

A particle keeps its whole extent inside, so the allowed box is smaller than the walls by its size.
A box too small for the particle leaves the lower corner as the only allowed place.
-/

namespace ParticleDynamics.Boundary

variable {α : Type} [Scalar α]

/-- The shape: zero is a box, one a circle. -/
def mode : ParamKey α := ⟨0, .clamped "mode" 0 0 1⟩

/-- The left wall. -/
def minX : ParamKey α := ⟨1, .scalar "min_x" (-500.0)⟩

/-- The lower wall. -/
def minY : ParamKey α := ⟨2, .scalar "min_y" (-500.0)⟩

/-- The right wall. -/
def maxX : ParamKey α := ⟨3, .scalar "max_x" 500.0⟩

/-- The upper wall. -/
def maxY : ParamKey α := ⟨4, .scalar "max_y" 500.0⟩

/-- The radius of the circle. -/
def radius : ParamKey α := ⟨5, .scalar "radius" 500.0⟩

/-- The share of the velocity into a wall that is reflected. -/
def restitution : ParamKey α := ⟨6, .clamped "restitution" 0.5 0 1⟩

/-- The share of the velocity along a wall that is lost. -/
def friction : ParamKey α := ⟨7, .clamped "friction" 0 0 1⟩

/-- The signed distance to a circle, negative inside. -/
def circleDistance (p center : Vec2 α) (radius : α) : α := (p - center).length - radius

/-- A velocity with the part along the outward normal `n` reflected. A velocity that does not point
outward is not changed. -/
def bounce (v n : Vec2 α) (restitution friction : α) : Vec2 α :=
  let outward := v.dot n
  if outward ≤ 0 then v
  else
    let normal := n * outward
    let tangent := v - normal
    tangent * (1 - friction) - normal * restitution

/-- Within this distance a particle touches a wall. -/
@[inline] def contactSlop : α := 1e-3

/-- The walls. -/
structure Walls (α : Type) where
  /-- whether they form a circle -/
  circle : Bool
  /-- the lower corner of the box -/
  min : Vec2 α
  /-- the upper corner of the box -/
  max : Vec2 α
  /-- the radius of the circle -/
  radius : α

namespace Walls

/-- The walls that the parameters describe. -/
def ofParams (params : ParamBag α) : Walls α where
  circle := decide (0.5 ≤ params.get mode)
  min := ⟨params.get minX, params.get minY⟩
  max := ⟨params.get maxX, params.get maxY⟩
  radius := params.get Boundary.radius

/-- The centre of the box and of the circle. -/
def center (w : Walls α) : Vec2 α := (w.min + w.max) * (0.5 : α)

/-- The lower corner of the box that the centre of a particle may be in. -/
def lo (w : Walls α) (size : α) : Vec2 α := w.min + Vec2.splat size

/-- The upper corner of the box that the centre of a particle may be in. -/
def hi (w : Walls α) (size : α) : Vec2 α := (w.max - Vec2.splat size).maximum (w.lo size)

/-- The radius of the circle that the centre of a particle may be in. -/
def innerRadius (w : Walls α) (size : α) : α := Scalar.maximum (w.radius - size) 0

/-- The allowed place for a particle that is nearest to where it is. -/
def project (w : Walls α) (p : Vec2 α) (size : α) : Vec2 α :=
  if w.circle then
    let center := w.center
    let limit := w.innerRadius size
    if 0 < circleDistance p center limit then
      center + (p - center).normalizeOr ⟨1, 0⟩ * limit
    else p
  else
    p.clamp (w.lo size) (w.hi size)

/-- The velocity of a particle with its part into the touched wall of one axis reflected. The lower
wall of an axis comes first; `lower` and `upper` are the outward normals. -/
def reflectAxis (p lo hi : α) (lower upper v : Vec2 α) (restitution friction : α) : Vec2 α :=
  if p ≤ lo + contactSlop then bounce v lower restitution friction
  else if hi - contactSlop ≤ p then bounce v upper restitution friction
  else v

/-- The velocity of a particle with its part into the walls that it touches reflected. -/
def reflect (w : Walls α) (p v : Vec2 α) (size restitution friction : α) : Vec2 α :=
  if w.circle then
    let center := w.center
    let limit := w.innerRadius size
    if circleDistance p center limit < -contactSlop then v
    else bounce v ((p - center).normalizeOr ⟨1, 0⟩) restitution friction
  else
    let lo := w.lo size
    let hi := w.hi size
    let v := reflectAxis p.x lo.x hi.x ⟨-1, 0⟩ ⟨1, 0⟩ v restitution friction
    reflectAxis p.y lo.y hi.y ⟨0, -1⟩ ⟨0, 1⟩ v restitution friction

end Walls

/-- Move the particle to an allowed place. -/
def confine (v : View α) : Procedure α Unit :=
  .update fun p => { p with position := (Walls.ofParams v.params).project p.position p.size }

/-- Reflect the velocity of the particle. -/
def reflect (v : View α) : Procedure α Unit :=
  .update fun p =>
    { p with
      velocity := (Walls.ofParams v.params).reflect p.position p.velocity p.size
        (v.params.get restitution) (v.params.get friction) }

/-- What the module does in a phase, unless the particle is pinned. -/
def run (phase : Phase) (v : View α) : Procedure α Unit := do
  let me ← Procedure.self
  if me.isPinned then return ()
  else
    match phase with
    | .constrain => confine v
    | .correct => reflect v
    | _ => return ()

/-- The statements that both program texts begin with. -/
def setupText : Emission (List String) := do
  let mode ← Emission.scalar (mode : ParamKey α)
  let minX ← Emission.scalar (minX : ParamKey α)
  let minY ← Emission.scalar (minY : ParamKey α)
  let maxX ← Emission.scalar (maxX : ParamKey α)
  let maxY ← Emission.scalar (maxY : ParamKey α)
  let radius ← Emission.scalar (radius : ParamKey α)
  return [
    Fragment.guarded "particle.mass < 0.0" "return;",
    "let circle = " ++ mode ++ " >= 0.5;",
    "let wall_min = vec2<f32>(" ++ minX ++ ", " ++ minY ++ ");",
    "let wall_max = vec2<f32>(" ++ maxX ++ ", " ++ maxY ++ ");",
    "let center = (wall_min + wall_max) * 0.5;",
    "let limit = max(" ++ radius ++ " - particle.size, 0.0);",
    "let lo = wall_min + vec2<f32>(particle.size);",
    "let hi = max(wall_max - vec2<f32>(particle.size), lo);"]

/-- The program text of `confine`. -/
def confineText (setup : List String) : String :=
  Fragment.lines <| setup ++
    Fragment.branch "circle"
      ("let offset = particle.position - center;" ::
        Fragment.block "if (length(offset) > limit)"
          ["particle.position = center + normalize_or(offset, vec2<f32>(1.0, 0.0)) * limit;"])
      ["particle.position = clamp(particle.position, lo, hi);"]

/-- The program text for one axis of `reflect`. -/
def reflectAxisText (axis lower upper slop : String) : List String :=
  ["if (p." ++ axis ++ " <= lo." ++ axis ++ " + " ++ slop ++ ") \x7b",
    "v = bounce(v, " ++ lower ++ ", restitution, friction);",
    "\x7d else if (p." ++ axis ++ " >= hi." ++ axis ++ " - " ++ slop ++ ") \x7b",
    "v = bounce(v, " ++ upper ++ ", restitution, friction);",
    "\x7d"]

/-- The program text of `reflect`. -/
def reflectText (setup : List String) : Emission String := do
  let restitution ← Emission.scalar (restitution : ParamKey α)
  let friction ← Emission.scalar (friction : ParamKey α)
  let slop := Fragment.number contactSlop
  return Fragment.lines <| setup ++
    ["let restitution = " ++ restitution ++ ";",
      "let friction = " ++ friction ++ ";",
      "var v = particle.velocity;",
      "let p = particle.position;"] ++
    Fragment.branch "circle"
      (Fragment.block ("if (length(p - center) - limit >= -" ++ slop ++ ")")
        ["v = bounce(v, normalize_or(p - center, vec2<f32>(1.0, 0.0)), restitution, friction);"])
      (reflectAxisText "x" "vec2<f32>(-1.0, 0.0)" "vec2<f32>(1.0, 0.0)" slop ++
        reflectAxisText "y" "vec2<f32>(0.0, -1.0)" "vec2<f32>(0.0, 1.0)" slop) ++
    ["particle.velocity = v;"]

/-- The module. -/
def module : Module α where
  name := "boundary"
  role := .force { constrain := true, correct := true }
  params := [mode.decl, minX.decl, minY.decl, maxX.decl, maxY.decl, radius.decl,
    restitution.decl, friction.decl]
  run := run
  fragment phase := do
    let setup ← setupText (α := α)
    match phase with
    | .constrain => return some (confineText setup)
    | .correct => some <$> reflectText (α := α) setup
    | _ => return none

end ParticleDynamics.Boundary
