import ParticleDynamics.Force.Collisions

/-!
# Joints

Pairs of particles held at a distance. A joint names its two ends by their place in the live array,
so its indices have to be written anew when particles are removed; a negative index switches a joint
off, and a joint with both ends on one particle does nothing.

The constrain phase moves each end by its share of the deviation from the rest length. The correct
phase turns what the constraints moved a jointed particle into velocity.
-/

namespace ParticleDynamics.Joints

variable {α : Type} [Scalar α]

/-- The share of the deviation that one pass removes. -/
def stiffness : ParamKey α := ⟨0, .clamped "stiffness" 1 0 1⟩

/-- The share of the displacement that is turned into velocity. -/
def momentum : ParamKey α := ⟨1, .clamped "momentum" 1 0 1⟩

/-- The first ends. -/
def aIndexes : ParamKey α := ⟨2, .array "a_indexes"⟩

/-- The second ends. -/
def bIndexes : ParamKey α := ⟨3, .array "b_indexes"⟩

/-- The rest lengths. -/
def restLengths : ParamKey α := ⟨4, .array "rest_lengths"⟩

/-- The ends of the joints, as many as both arrays have. -/
def ends (params : ParamBag α) : List (α × α) :=
  (params.getArray aIndexes).toList.zip (params.getArray bIndexes).toList

/-- The joints, each its ends with its rest length, as many as all three arrays have. -/
def joints (params : ParamBag α) : List ((α × α) × α) :=
  (ends params).zip (params.getArray restLengths).toList

/-- The other end of a joint when a particle is one of its two distinct ends. -/
def partner (ends : α × α) (index : UInt32) : Option UInt32 :=
  if ends.1 < 0 ∨ ends.2 < 0 then none
  else
    let a := Scalar.toWord ends.1
    let b := Scalar.toWord ends.2
    if a = index ∧ b ≠ index then some b
    else if b = index ∧ a ≠ index then some a
    else none

/-- A partner is another particle. -/
theorem partner_ne {ends : α × α} {index other : UInt32} (h : partner ends index = some other) :
    other ≠ index := by
  simp only [partner] at h
  grind

/-- The displacement so far with that by one joint added. A joint with a dead or missing partner
adds nothing. -/
def addPull (v : View α) (me : Particle α) (shift : Vec2 α) (joint : (α × α) × α) : Vec2 α :=
  match partner joint.1 v.index with
  | none => shift
  | some j =>
    match v.other j with
    | none => shift
    | some other =>
      if other.isAlive then
        let share := me.inverseMass / (me.inverseMass + other.inverseMass)
        let delta := me.position - other.position
        let distance := delta.length
        let n := contactNormal delta distance v.index j
        shift - n * (distance - joint.2) * share * v.params.get stiffness
      else shift

/-- Move the particle towards the rest lengths of its joints. -/
def pull (v : View α) : Procedure α Unit := do
  match v.other v.index with
  | none => .fault Collisions.missing
  | some me =>
    if me.inverseMass == 0 then return ()
    else
      let shift := (joints v.params).foldl (addPull v me) 0
      Procedure.update fun p => { p with position := p.position + shift }

/-- Turn what the constraints moved the particle into velocity, if it has a joint. -/
def follow (v : View α) : Procedure α Unit := do
  let me ← Procedure.self
  if me.isPinned ∨ v.dt ≤ 0 then return ()
  else if (ends v.params).any fun pair => (partner pair v.index).isSome then
    let moved := me.position - (← Procedure.postPosition v)
    Procedure.update fun p =>
      { p with velocity := p.velocity + moved / v.dt * v.params.get momentum }
  else return ()

/-- The program text of `partner`. -/
def partnerText : Emission String := do
  let a ← Emission.element (aIndexes : ParamKey α) "k"
  let b ← Emission.element (bIndexes : ParamKey α) "k"
  return Fragment.lines <| Fragment.block "fn joints_partner(k: u32, index: u32) -> u32" [
    "let ja = " ++ a ++ ";",
    "let jb = " ++ b ++ ";",
    Fragment.guarded "ja < 0.0 || jb < 0.0" "return NEIGHBOR_END;",
    "let ua = u32(ja);",
    "let ub = u32(jb);",
    Fragment.guarded "ua == index && ub != index" "return ub;",
    Fragment.guarded "ub == index && ua != index" "return ua;",
    "return NEIGHBOR_END;"]

/-- The head of a loop over the joints. -/
def loopHead : String := "for (var k = 0u; k < count; k++)"

/-- The program text of `pull`, given the number of joints as far as their ends tell. -/
def pullText (count : String) : Emission String := do
  let stiffness ← Emission.scalar (stiffness : ParamKey α)
  let restLength ← Emission.length (restLengths : ParamKey α)
  let rest ← Emission.element (restLengths : ParamKey α) "k"
  return Fragment.lines <|
    ["let me = " ++ Fragment.other "index" ++ ";",
      "let inv_me = inverse_mass(me);",
      Fragment.guarded "inv_me == 0.0" "return;",
      "let stiffness = " ++ stiffness ++ ";",
      "let count = min(" ++ count ++ ", " ++ restLength ++ ");",
      "var shift = vec2<f32>(0.0, 0.0);"] ++
    Fragment.block loopHead
      (["let j = joints_partner(k, index);",
        Fragment.guarded "j == NEIGHBOR_END || j >= sim.particle_count" "continue;",
        "let other = " ++ Fragment.other "j" ++ ";",
        Fragment.guarded "other.mass == 0.0" "continue;",
        "let share = inv_me / (inv_me + inverse_mass(other));",
        "let delta = me.position - other.position;",
        "let dist = length(delta);"] ++
        Contact.normalText "j" ++
        ["shift -= n * (dist - " ++ rest ++ ") * share * stiffness;"]) ++
    ["particle.position += shift;"]

/-- The program text of `follow`, given the number of joints. -/
def followText (count : String) : Emission String := do
  let momentum ← Emission.scalar (momentum : ParamKey α)
  return Fragment.lines <|
    [Fragment.guarded ("particle.mass < 0.0 || " ++ Fragment.dt ++ " <= 0.0") "return;",
      "let count = " ++ count ++ ";",
      "var jointed = false;"] ++
    Fragment.block loopHead
      (Fragment.block "if (joints_partner(k, index) != NEIGHBOR_END)"
        ["jointed = true;", "break;"]) ++
    [Fragment.guarded "!jointed" "return;",
      "let moved = particle.position - " ++ Fragment.postPosition ++ ";",
      "particle.velocity += moved / " ++ Fragment.dt ++ " * " ++ momentum ++ ";"]

/-- The module. -/
def module : Module α where
  name := "joints"
  role := .force { constrain := true, correct := true }
  params := [stiffness.decl, momentum.decl, aIndexes.decl, bIndexes.decl, restLengths.decl]
  run
    | .constrain, v => pull v
    | .correct, v => follow v
    | _, _ => .done ()
  helpers := some <$> partnerText (α := α)
  fragment phase := do
    let a ← Emission.length (aIndexes : ParamKey α)
    let b ← Emission.length (bIndexes : ParamKey α)
    let count := "min(" ++ a ++ ", " ++ b ++ ")"
    match phase with
    | .constrain => some <$> pullText (α := α) count
    | .correct => some <$> followText (α := α) count
    | _ => return none

end ParticleDynamics.Joints
