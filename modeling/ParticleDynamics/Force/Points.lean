import ParticleDynamics.Module.Basic

/-!
# Points

Drawing particles as points. The module only carries parameters; its block is packed and bound like
any other, so that whatever draws the particles finds them there.
-/

namespace ParticleDynamics.Points

variable {α : Type} [Scalar α]

/-- The factor on the size of a particle. -/
def sizeScale : ParamKey α := ⟨0, .scalar "size_scale" 1⟩

/-- The strength of the glow. -/
def glow : ParamKey α := ⟨1, .clamped "glow" 0 0 1⟩

/-- The module. -/
def module : Module α where
  name := "points"
  role := .render
  params := [sizeScale.decl, glow.decl]
  run _ _ := .done ()
  fragment _ := .done none

end ParticleDynamics.Points
