import ParticleDynamics.Module.Basic

/-!
# Environment

A uniform acceleration and a damping of velocities. Damping is an acceleration too, the one that
removes the wanted fraction of the velocity over one step; a step without duration has none.
-/

namespace ParticleDynamics.Environment

variable {α : Type} [Scalar α]

/-- The horizontal acceleration. -/
def gravityX : ParamKey α := ⟨0, .scalar "gravity_x" 0⟩

/-- The vertical acceleration. -/
def gravityY : ParamKey α := ⟨1, .scalar "gravity_y" 0⟩

/-- The fraction of the velocity that is kept over a step; one means no damping. -/
def momentum : ParamKey α := ⟨2, .clamped "momentum" 1 0 1⟩

/-- The acceleration that damps a velocity. -/
def drag (momentum dt : α) (velocity : Vec2 α) : Vec2 α :=
  if 0 < dt then velocity * (-(1 - momentum)) / dt else 0

/-- Add the uniform acceleration and the damping. -/
def accelerate (v : View α) : Procedure α Unit :=
  let gravity : Vec2 α := ⟨v.params.get gravityX, v.params.get gravityY⟩
  .update fun p =>
    { p with
      acceleration := p.acceleration + (gravity + drag (v.params.get momentum) v.dt p.velocity) }

/-- The program text of `accelerate`. -/
def accelerateText : Emission String := do
  let x ← Emission.scalar (gravityX : ParamKey α)
  let y ← Emission.scalar (gravityY : ParamKey α)
  let momentum ← Emission.scalar (momentum : ParamKey α)
  return Fragment.lines <|
    ["let gravity = vec2<f32>(" ++ x ++ ", " ++ y ++ ");",
      "let momentum = " ++ momentum ++ ";",
      "var drag = vec2<f32>(0.0, 0.0);"] ++
    Fragment.block ("if (" ++ Fragment.dt ++ " > 0.0)")
      ["drag = -(1.0 - momentum) * particle.velocity / " ++ Fragment.dt ++ ";"] ++
    ["particle.acceleration += gravity + drag;"]

/-- The module. -/
def module : Module α where
  name := "environment"
  role := .force { apply := true }
  params := [gravityX.decl, gravityY.decl, momentum.decl]
  run
    | .apply, v => accelerate v
    | _, _ => .done ()
  fragment
    | .apply => some <$> accelerateText (α := α)
    | _ => .done none

end ParticleDynamics.Environment
