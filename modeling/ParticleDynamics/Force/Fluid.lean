import ParticleDynamics.Force.Contact
import ParticleDynamics.Module.Basic

/-!
# Fluid

Pressure from density. In the state phase every particle counts its neighbours, weighted by a
kernel that falls from one at the centre to zero at the radius of influence. In the apply phase a
pair is pushed apart, or pulled together, by the mean of the pressures of its two particles.
-/

namespace ParticleDynamics.Fluid

variable {α : Type} [Scalar α]

/-- The radius of influence. -/
def influenceRadius : ParamKey α := ⟨0, .scalar "influence_radius" 20.0⟩

/-- The density at which there is no pressure. -/
def targetDensity : ParamKey α := ⟨1, .scalar "target_density" 1⟩

/-- The pressure for each unit of density above the target. -/
def pressureMultiplier : ParamKey α := ⟨2, .scalar "pressure_multiplier" 50.0⟩

/-- The field that holds the density. -/
def densityField : String := "density"

/-- The weight of a neighbour at a distance, for a radius of influence `h`. -/
def kernel (distance h : α) : α :=
  if h ≤ 0 ∨ h ≤ distance then 0
  else
    let q := 1 - distance / h
    q * q

/-- Store the density. -/
def storeDensity (v : View α) : Procedure α Unit := do
  let h := v.params.get influenceRadius
  let me ← Procedure.self
  let near ← Procedure.neighbors v h
  let density := near.foldl
    (fun density j =>
      match v.other j with
      | some other => density + kernel (me.position.distance other.position) h
      | none => density)
    (kernel 0 h)
  Procedure.setFieldOf densityField v.index density

/-- The pressure at a density. -/
def pressure (v : View α) (density : α) : α :=
  (density - v.params.get targetDensity) * v.params.get pressureMultiplier

/-- The force so far with that of one neighbour added. A neighbour at the edge of the radius of
influence or beyond it adds nothing. -/
def addPressure (v : View α) (position : Vec2 α) (own : α) (force : Vec2 α) (j : UInt32) :
    Procedure α (Vec2 α) := do
  let h := v.params.get influenceRadius
  match v.other j with
  | none => return force
  | some other =>
    let delta := position - other.position
    let distance := delta.length
    let weight := 1 - distance / h
    if weight ≤ 0 then return force
    else
      let density ← Procedure.fieldOf densityField j
      let n := contactNormal delta distance v.index j
      return force + n * (own + pressure v density) * (0.5 : α) * weight

/-- Add the acceleration by pressure. -/
def accelerate (v : View α) : Procedure α Unit := do
  let me ← Procedure.self
  if me.inverseMass == 0 then return ()
  else
    let own := pressure v (← Procedure.fieldOf densityField v.index)
    let near ← Procedure.neighbors v (v.params.get influenceRadius)
    let force ← near.toList.foldlM (addPressure v me.position own) 0
    Procedure.update fun p => { p with acceleration := p.acceleration + force * me.inverseMass }

/-- The program text of `kernel`. -/
def kernelText : String :=
  Fragment.lines <| Fragment.block "fn fluid_kernel(dist: f32, h: f32) -> f32" [
    Fragment.guarded "h <= 0.0 || dist >= h" "return 0.0;",
    "let q = 1.0 - dist / h;",
    "return q * q;"]

/-- The program text of `storeDensity`. -/
def storeDensityText (h : String) : Emission String := do
  let slot ← Emission.field densityField
  let body := "density += fluid_kernel(distance(particle.position, other.position), h);"
  return Fragment.lines [
    "let h = " ++ h ++ ";",
    "var density = fluid_kernel(0.0, h);",
    Fragment.forEachNeighbor "particle.position" "h" body,
    slot ++ " = density;"]

/-- The program text of `accelerate`. -/
def accelerateText (h : String) : Emission String := do
  let otherDensity ← Emission.fieldOf densityField "other_index"
  let target ← Emission.scalar (targetDensity : ParamKey α)
  let multiplier ← Emission.scalar (pressureMultiplier : ParamKey α)
  let ownDensity ← Emission.field densityField
  let body := Fragment.lines <|
    ["let delta = particle.position - other.position;",
      "let dist = length(delta);",
      "let weight = 1.0 - dist / h;"] ++
    Fragment.block "if (weight > 0.0)"
      (("let pressure_other = (" ++ otherDensity ++ " - target_density) * multiplier;") ::
        Contact.normalText "other_index" ++
        ["accel += n * (pressure_me + pressure_other) * 0.5 * weight;"])
  return Fragment.lines [
    "let inv_mass = inverse_mass(particle);",
    Fragment.guarded "inv_mass == 0.0" "return;",
    "let h = " ++ h ++ ";",
    "let target_density = " ++ target ++ ";",
    "let multiplier = " ++ multiplier ++ ";",
    "let pressure_me = (" ++ ownDensity ++ " - target_density) * multiplier;",
    "var accel = vec2<f32>(0.0, 0.0);",
    Fragment.forEachNeighbor "particle.position" "h" body,
    "particle.acceleration += accel * inv_mass;"]

/-- The module. -/
def module : Module α where
  name := "fluid"
  role := .force { state := true, apply := true }
  params := [influenceRadius.decl, targetDensity.decl, pressureMultiplier.decl]
  fields := [densityField]
  run
    | .state, v => storeDensity v
    | .apply, v => accelerate v
    | _, _ => .done ()
  helpers := .done (some kernelText)
  fragment phase := do
    let h ← Emission.scalar (influenceRadius : ParamKey α)
    match phase with
    | .state => some <$> storeDensityText h
    | .apply => some <$> accelerateText (α := α) h
    | _ => return none

end ParticleDynamics.Fluid
