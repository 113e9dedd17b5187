import ParticleDynamics.Force.Contact
import ParticleDynamics.Module.Basic

/-!
# Collisions

Contact between particles. The constrain phase looks at the particles as they were when the pass
began: each particle of an overlapping pair moves by its share of the overlap, in inverse proportion
to its mass, and if the two approach each other both receive an impulse along the contact. The
correct phase removes the velocity against the direction in which the constraints moved a particle.
-/

namespace ParticleDynamics.Collisions

variable {α : Type} [Scalar α]

/-- The share of the approaching velocity that is given back. -/
def restitution : ParamKey α := ⟨0, .clamped "restitution" 0.5 0 1⟩

/-- The greatest size of a particle that is expected; it widens the search. -/
def maxRadius : ParamKey α := ⟨1, .scalar "max_radius" 10.0⟩

/-- The fault of a particle that is not among those the pass began with. -/
def missing : String := "particle missing from snapshot"

/-- What the contacts of a particle add up to. -/
structure Response (α : Type) where
  /-- how far it is moved -/
  shift : Vec2 α
  /-- how its velocity changes -/
  impulse : Vec2 α

/-- The response so far with that to one neighbour added. -/
def respond (v : View α) (me : Particle α) (r : Response α) (j : UInt32) : Response α :=
  match v.other j with
  | none => r
  | some other =>
    let target := me.size + other.size
    let delta := me.position - other.position
    let distance := delta.length
    if target ≤ distance then r
    else
      let share := me.inverseMass / (me.inverseMass + other.inverseMass)
      let n := contactNormal delta distance v.index j
      let shift := r.shift + n * (target - distance) * share
      let approach := (me.velocity - other.velocity).dot n
      if approach < 0 then
        ⟨shift, r.impulse - n * (1 + v.params.get restitution) * approach * share⟩
      else
        ⟨shift, r.impulse⟩

/-- Move the particle out of its contacts. -/
def separate (v : View α) : Procedure α Unit := do
  match v.other v.index with
  | none => .fault missing
  | some me =>
    if me.inverseMass == 0 then return ()
    else
      let near ← Procedure.neighborsOf v me.position (me.size + v.params.get maxRadius)
      let r := near.foldl (respond v me) ⟨0, 0⟩
      Procedure.update fun p =>
        { p with position := p.position + r.shift, velocity := p.velocity + r.impulse }

/-- Remove the velocity against the direction in which the constraints moved the particle. -/
def settle (v : View α) : Procedure α Unit := do
  let me ← Procedure.self
  if me.isPinned then return ()
  else
    let moved := me.position - (← Procedure.postPosition v)
    let length := moved.length
    if length ≤ coincident then return ()
    else
      let n := moved / length
      let along := me.velocity.dot n
      if along < 0 then
        Procedure.update fun p => { p with velocity := p.velocity - n * along }
      else return ()

/-- The program text of `separate`. -/
def separateText : Emission String := do
  let restitution ← Emission.scalar (restitution : ParamKey α)
  let maxRadius ← Emission.scalar (maxRadius : ParamKey α)
  let body := Fragment.lines <|
    ["let target_dist = me.size + other.size;",
      "let delta = me.position - other.position;",
      "let dist = length(delta);"] ++
    Fragment.block "if (dist < target_dist)"
      ("let share = inv_me / (inv_me + inverse_mass(other));" ::
        Contact.normalText "other_index" ++
        ["shift += n * (target_dist - dist) * share;",
          "let approach = dot(me.velocity - other.velocity, n);"] ++
        Fragment.block "if (approach < 0.0)"
          ["impulse -= n * (1.0 + restitution) * approach * share;"])
  return Fragment.lines [
    "let me = " ++ Fragment.other "index" ++ ";",
    "let inv_me = inverse_mass(me);",
    Fragment.guarded "inv_me == 0.0" "return;",
    "let restitution = " ++ restitution ++ ";",
    "var shift = vec2<f32>(0.0, 0.0);",
    "var impulse = vec2<f32>(0.0, 0.0);",
    Fragment.forEachNeighbor "me.position" ("me.size + " ++ maxRadius) body,
    "particle.position += shift;",
    "particle.velocity += impulse;"]

/-- The program text of `settle`. -/
def settleText : String :=
  Fragment.lines <|
    [Fragment.guarded "particle.mass < 0.0" "return;",
      "let moved = particle.position - " ++ Fragment.postPosition ++ ";",
      "let len = length(moved);"] ++
    Fragment.block ("if (len > " ++ Fragment.coincidentText ++ ")")
      (["let n = moved / len;",
        "let vn = dot(particle.velocity, n);"] ++
        Fragment.block "if (vn < 0.0)" ["particle.velocity -= n * vn;"])

/-- The module. -/
def module : Module α where
  name := "collisions"
  role := .force { constrain := true, correct := true }
  params := [restitution.decl, maxRadius.decl]
  run
    | .constrain, v => separate v
    | .correct, v => settle v
    | _, _ => .done ()
  fragment
    | .constrain => some <$> separateText (α := α)
    | .correct => .done (some settleText)
    | _ => .done none

end ParticleDynamics.Collisions
