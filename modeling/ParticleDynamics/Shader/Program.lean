import ParticleDynamics.Registry.Basic
import ParticleDynamics.Shader.Grid

/-!
# The generated program

`Program.build` turns a registry into one program for the device: the record of a particle, the
bindings, the neighbour index, one function for each module and phase, one entry point for each
phase, and the integration. An entry point calls the functions of its phase in execution order, each
behind a **gate** that reads the enabled flag of its module, and only for live particles.

The program is first put together as data (`Program`), from which both the text and every statement
about the text are taken: the declared names, the gates, the stride of the scratch table.

Building reports every mistake at once. A name that no program could use comes first and alone;
after that each module contributes one message for every phase it promises and does not deliver,
followed by the messages about its questions that are still on the list when its texts are complete.
-/

namespace ParticleDynamics

/-- Whether a name can be used in a program: a letter, followed by letters, digits and
underscores, all of them of the basic Latin alphabet. -/
def validIdentifier (name : String) : Bool :=
  match name.toList with
  | [] => false
  | c :: rest => c.isAlpha && rest.all fun c => c.isAlphanum || c == '_'

/-- The text of one module. -/
structure ModuleText where
  /-- the name of the module -/
  owner : String
  /-- the shared functions, if any -/
  helpers : Option String
  /-- the body of the function of each phase -/
  functions : List (Phase × String)
deriving DecidableEq, Repr

/-- A call in the entry point of a phase, behind the flag of its module. -/
structure Gate where
  /-- the name of the module -/
  owner : String
  /-- the phase -/
  phase : Phase
  /-- the block of the module, which has the flag -/
  block : Block
deriving DecidableEq, Repr

/-- A generated program with the layout that feeding it requires. -/
structure Program where
  /-- the number of invocations in a workgroup -/
  workgroupSize : Nat
  /-- where the parameters are kept -/
  bindings : BindingTable
  /-- where the fields are kept -/
  scratch : ScratchLayout
  /-- the texts of the modules in execution order -/
  modules : List ModuleText
  /-- the gates of each phase in execution order -/
  gates : Phase → List Gate

namespace Shader

open Fragment (guarded)

/-- The name of the entry point that integrates. -/
def integrateEntry : String := "integrate"

/-- The name of the function of a module and phase. -/
def phaseFunction (owner : String) (phase : Phase) : String := owner ++ "_" ++ phase.name

/-- The constants and the records that the bindings refer to. -/
def headItems (stride : Nat) : List Item := [
  .text "// Generated particle program\n",
  constant "NEIGHBOR_END" "0xffffffffu",
  constant "STATE_STRIDE" (toString stride ++ "u"),
  .text "\n",
  struct "Particle" [
    "position: vec2<f32>",
    "velocity: vec2<f32>",
    "acceleration: vec2<f32>",
    "size: f32",
    "mass: f32",
    "color: vec4<f32>"],
  struct "SimUniforms" [
    "dt: f32",
    "particle_count: u32",
    "_pad0: u32",
    "_pad1: u32"]]

/-- The bindings that the program takes itself. -/
def fixedBindingItems : List Item :=
  FixedBinding.all.map fun fixed =>
    resource fixed.number fixed.use fixed.variableName fixed.typeName

/-- The bindings of one module. -/
def blockItems (b : Block) : List Item :=
  resource b.binding .uniform (uniformVar b.owner)
    ("array<vec4<f32>, " ++ toString b.registers ++ ">") ::
  b.arrays.map fun array =>
    resource array.binding .readOnly (arrayVar b.owner array.name) "array<f32>"

/-- The hash and the direction derived from it, with the constants of `scramble` and `jitter`. -/
def hashItems : List Item := [
  function "hash_u32" "(value: u32) -> u32" [
    "let state = value * 747796405u + 2891336453u;",
    "let word = ((state >> ((state >> 28u) + 4u)) ^ state) * 277803737u;",
    "return (word >> 22u) ^ word;"],
  function "jitter_direction" "(a: u32, b: u32) -> vec2<f32>" [
    "let h = hash_u32((a * 73856093u) ^ (b * 19349663u));",
    "let angle = f32(h) / 4294967295.0 * 6.2831855;",
    "return vec2<f32>(cos(angle), sin(angle));"]]

/-- Functions that fragments may use. -/
def commonItems : List Item := [
  function "inverse_mass" "(p: Particle) -> f32" [
    guarded "p.mass > 0.0" "return 1.0 / p.mass;",
    "return 0.0;"],
  function "normalize_or" "(v: vec2<f32>, fallback: vec2<f32>) -> vec2<f32>" [
    "let len = length(v);",
    guarded ("len > " ++ Fragment.coincidentText) "return v / len;",
    "return fallback;"],
  function "bounce"
    "(v: vec2<f32>, n: vec2<f32>, restitution: f32, friction: f32) -> vec2<f32>" [
    "let vn = dot(v, n);",
    guarded "vn <= 0.0" "return v;",
    "let normal = n * vn;",
    "let tangent = v - normal;",
    "return tangent * (1.0 - friction) - normal * restitution;"]]

/-- The function of a module and phase around its body. -/
def phaseFunctionItem (owner : String) (phase : Phase) (body : String) : Item :=
  .declaration ⟨"fn ", phaseFunction owner phase,
    "(index: u32) \x7b\nvar particle = particles[index];\n" ++ body ++
      "\nparticles[index] = particle;\n\x7d\n\n"⟩

/-- The text of one module. -/
def moduleItems (m : ModuleText) : List Item :=
  (match m.helpers with
    | some helpers => [.text (helpers ++ "\n\n")]
    | none => []) ++
  m.functions.map fun (phase, body) => phaseFunctionItem m.owner phase body

/-- The expression of a gate, which reads the flag of its module. -/
def gateFlag (g : Gate) : String := g.block.slotText Block.enabledSlot

/-- The line of a gate. -/
def gateText (g : Gate) : String :=
  guarded (gateFlag g ++ " != 0.0 && particles[index].mass != 0.0")
    (phaseFunction g.owner g.phase ++ "(index);")

/-- The entry point of a phase. -/
def phaseEntryItem (workgroupSize : Nat) (phase : Phase) (gates : List Gate) : Item :=
  entryPoint workgroupSize phase.entry <|
    ["let index = gid.x;", guarded "index >= sim.particle_count" "return;"] ++
    gates.map gateText

/-- The write of one reserved slot in the integration. -/
def reservedWrite (slot : Reserved) (value : String) : String :=
  "sim_state[base + " ++ toString slot.slot ++ "u] = " ++ value ++ ";"

/-- The entry point that integrates. -/
def integrateItem (workgroupSize : Nat) : Item :=
  .declaration ⟨compute workgroupSize, integrateEntry,
    invocation ++ " \x7b\n" ++ ended (indent
      (["let index = gid.x;",
        guarded "index >= sim.particle_count" "return;",
        "var p = particles[index];",
        guarded "p.mass == 0.0" "return;",
        "let base = index * STATE_STRIDE;",
        reservedWrite .preX "p.position.x",
        reservedWrite .preY "p.position.y"] ++
      branch "p.mass < 0.0"
        ["p.velocity = vec2<f32>(0.0, 0.0);"]
        ["p.velocity += p.acceleration * sim.dt;", "p.position += p.velocity * sim.dt;"] ++
      ["p.acceleration = vec2<f32>(0.0, 0.0);",
        reservedWrite .postX "p.position.x",
        reservedWrite .postY "p.position.y",
        "particles[index] = p;"])) ++ "\x7d\n"⟩

end Shader

namespace Program

/-- All items of a program. -/
def items (p : Program) : List Item :=
  Shader.headItems p.scratch.stride ++
  Shader.fixedBindingItems ++
  p.bindings.blocks.flatMap Shader.blockItems ++
  [.text "\n"] ++
  Shader.hashItems ++
  Shader.commonItems ++
  Shader.gridItems p.workgroupSize ++
  p.modules.flatMap Shader.moduleItems ++
  Phase.all.map (fun phase => Shader.phaseEntryItem p.workgroupSize phase (p.gates phase)) ++
  [Shader.integrateItem p.workgroupSize]

/-- The text of a program. -/
def source (p : Program) : String := String.join (p.items.map Item.source)

/-- The names that a program declares at module scope, in order. The text that modules share among
their functions is their own and is not looked into. -/
def names (p : Program) : List String := p.items.filterMap Item.name?

/-- The entry point of each phase, in the order of execution. -/
def entries (_ : Program) : List (Phase × String) :=
  Phase.all.map fun phase => (phase, phase.entry)

variable {α : Type}

/-! ### Building -/

/-- The text of one module, with the messages about its mistakes. -/
def moduleText (places : Places) (m : Module α) : ModuleText × List String :=
  let ((helpers, bodies), noted) := m.texts.run places
  let functions := bodies.filterMap fun (phase, body) => body.map fun body => (phase, body)
  let missing := bodies.filterMap fun (phase, body) =>
    if body.isNone then
      some ("`" ++ m.name ++ "` declares " ++ phase.name ++ " but emits no fragment")
    else none
  (⟨m.name, helpers, functions⟩, missing ++ noted.map fun message => m.name ++ ": " ++ message)

/-- The modules of a registry, each with its block. -/
def placed (registry : Registry α) : List (Module α × Block) :=
  registry.modules.zip registry.bindings.blocks

/-- The gates of a phase in execution order. -/
def gatesOf (modules : List (Module α × Block)) (phase : Phase) : List Gate :=
  (modules.filter fun placed => placed.1.role.implements phase).map fun placed =>
    ⟨placed.1.name, phase, placed.2⟩

/-- The program of a registry, for a workgroup of at least one invocation. -/
def build (workgroupSize : UInt32) (registry : Registry α) : Except Refusal Program :=
  match registry.modules.find? fun m => !validIdentifier m.name with
  | some m =>
    .error (.program ("module name `" ++ m.name ++ "` is not a valid WGSL identifier"))
  | none =>
    let scratch := registry.scratch
    let modules := placed registry
    let texts := modules.map fun (m, block) => moduleText ⟨block, scratch⟩ m
    let messages := texts.flatMap Prod.snd
    if messages.isEmpty then
      .ok {
        workgroupSize := (max workgroupSize 1).toNat
        bindings := registry.bindings
        scratch := scratch
        modules := texts.map Prod.fst
        gates := gatesOf modules }
    else
      .error (.program (String.intercalate "; " messages))

/-- A program addresses the scratch table with the layout that the host uses. -/
theorem layout_of_build {workgroupSize : UInt32} {registry : Registry α} {p : Program}
    (h : build workgroupSize registry = .ok p) :
    p.bindings = registry.bindings ∧ p.scratch = registry.scratch := by
  unfold build at h
  split at h
  · cases h
  · dsimp only at h
    split at h
    · obtain rfl := Except.ok.inj h
      exact ⟨rfl, rfl⟩
    · cases h

end Program

end ParticleDynamics
