import ParticleDynamics.Device.Memory
import ParticleDynamics.Device.Record
import ParticleDynamics.Grid.Slots
import ParticleDynamics.Grid.Tracker
import ParticleDynamics.Settings.Basic
import ParticleDynamics.Shader.Program

/-!
# A simulation on the device

The host side of a simulation that runs on a device. The particles live in device memory; the host
keeps a copy that carries their identities, in the same order. What crosses the border are commands:

* **uploading** replaces the particles and zeroes their scratch rows;
* **stepping** submits the passes of one step, without waiting for them;
* **requesting a reading** copies the records, the scratch rows and the drop counter to where the
  host can read them, and **polling** takes the reading in;
* **a write to the registry** arrives as a push and becomes a write to the buffer of its binding.

Reading also removes the dead. That is possible only while the copy still shows the latest state:
when a step was submitted after the request, the host keeps what it has, reports nothing as removed,
and leaves the removal to the next reading. Uploading abandons a reading on its way, because it
refers to the old particles.

Every operation returns the commands it submitted and the warnings it gave along with the simulation
it leaves behind. The device runs no program here. What it takes, and how far a reading has come when
the host asks for it, is up to the device: both are parameters (`Acceptance`, `Arrival`).
-/

namespace ParticleDynamics

namespace Device

/-- What a device takes. -/
structure Acceptance where
  /-- whether it takes a program -/
  program : Program → Bool
  /-- whether it takes a buffer of a number of words -/
  buffer : Nat → Bool

/-- How far a reading has come when the host asks for it. -/
inductive Arrival where
  /-- it is still on its way -/
  | awaited
  /-- it is there -/
  | arrived
  /-- nothing will come any more -/
  | closed
  /-- the device could not make it available -/
  | failed (reason : String)
deriving DecidableEq, Repr

/-- A reading on its way to the host. -/
structure Pending where
  /-- the number of particles that were copied -/
  count : Nat
  /-- how many steps had been submitted when it was requested -/
  steps : Nat
deriving DecidableEq, Repr

/-- A reading that the host has taken in. -/
structure Reading where
  /-- the live particles -/
  particles : Array (Particle Single)
  /-- how many particles were removed from the device -/
  removed : Nat
  /-- how many insertions the last build of the neighbour index dropped -/
  dropped : UInt32

/-- The host side of a simulation. -/
structure Simulation where
  /-- the program -/
  program : Program
  /-- the memory of the device -/
  memory : Memory
  /-- how many particles there is room for -/
  capacity : Nat
  /-- the particles as the host knows them, in the order of their records -/
  host : Array (Particle Single)
  /-- the bounds of the neighbour index -/
  tracker : Tracker Single
  /-- the number of slots per cell -/
  maxPerCell : UInt32
  /-- the number of constraint passes in a step -/
  iterations : UInt32
  /-- how many steps have been submitted -/
  steps : Nat
  /-- the reading that is on its way, if any -/
  pending : Option Pending

/-- What an operation leaves behind. -/
structure Outcome (β : Type) where
  /-- the result -/
  result : β
  /-- the simulation afterwards -/
  device : Simulation
  /-- the commands that were submitted, the earliest first -/
  commands : List Command := []
  /-- the warnings that were given, the earliest first -/
  warnings : List String := []

/-! ### Buffers -/

/-- The buffers of the modules with their numbers of words: a block for each module, and room for
one element per particle for each array. -/
def moduleBuffers (bindings : BindingTable) (capacity : Nat) : List (Nat × Nat) :=
  bindings.blocks.flatMap fun block =>
    (block.binding, block.words) :: block.arrays.map fun array => (array.binding, capacity)

/-- The number of words of the buffer that the program takes for itself under a binding. The
counters have one place more than there are cells. -/
def fixedWords (capacity stride gridCells maxPerCell : Nat) : FixedBinding → Nat
  | .particles | .previous => capacity * recordWords
  | .scratch => capacity * stride
  | .step => 4
  | .grid => 8
  | .counts => gridCells * gridCells + 1
  | .cells => gridCells * gridCells * maxPerCell

/-- A binding for which there is no buffer. -/
def unbacked? (bindings : BindingTable) (capacity : Nat) : Option Nat :=
  ((bindings.blocks.flatMap Block.uses).map Prod.fst).find? fun binding =>
    ((moduleBuffers bindings capacity).lookup binding).isNone

namespace Simulation

/-- How many particles the device has room for. -/
def room (settings : Settings Single) : Nat := (max settings.maxParticles 1).toNat

/-- The buffers of a program with their numbers of words, by binding. -/
def buffers (program : Program) (settings : Settings Single) : List (Nat × Nat) :=
  let words := fixedWords (room settings) program.scratch.stride
    (max settings.deviceGridCells 1).toNat (max settings.maxPerCell 1).toNat
  FixedBinding.all.map (fun binding => (binding.number, words binding)) ++
    moduleBuffers program.bindings (room settings)

/-- The simulation of a program, without particles. -/
def assemble (program : Program) (settings : Settings Single) (camera : Camera Single) :
    Simulation :=
  let maxPerCell := max settings.maxPerCell 1
  let tracker := Tracker.create camera settings.cellSize settings.boundsPadding
    (max settings.deviceGridCells 1)
  let memory := (buffers program settings).foldl
    (fun (memory : Memory) buffer => memory.allocate (.bound buffer.1) buffer.2) {}
  { program := program
    memory := memory.modify (.bound FixedBinding.grid.number) fun b =>
      b.write 0 (gridRecord tracker.bounds maxPerCell)
    capacity := room settings
    host := #[]
    tracker := tracker
    maxPerCell := maxPerCell
    iterations := settings.effectiveIterations
    steps := 0
    pending := none }

/-- A simulation for the modules of a registry, without particles. It breaks off when the device
takes the program or one of the buffers not. -/
def create (takes : Acceptance) (registry : Registry Single) (settings : Settings Single)
    (camera : Camera Single) : Except Refusal Simulation := do
  let program ← Program.build settings.workgroupSize registry
  unless takes.program program &&
      (buffers program settings).all (fun buffer => takes.buffer buffer.2) do
    throw (.breach .rejected)
  match unbacked? program.bindings (room settings) with
  | some binding => throw (.device ("binding " ++ toString binding ++ " has no buffer"))
  | none => return assemble program settings camera

/-- The simulation after commands were submitted. -/
def submit (d : Simulation) (commands : List Command) : Simulation :=
  { d with memory := d.memory.performAll commands }

/-- The number of particles, as far as the host knows. -/
def count (d : Simulation) : UInt32 := d.host.size.toUInt32

/-- The simulation with another number of constraint passes, at least one. -/
def setIterations (d : Simulation) (iterations : UInt32) : Simulation :=
  { d with iterations := max iterations 1 }

/-! ### Parameters -/

/-- The number of words that the buffer of a module's binding holds, if there is one. -/
def moduleWords? (d : Simulation) (binding : Nat) : Option Nat :=
  (moduleBuffers d.program.bindings d.capacity).lookup binding

/-- The sink that a registry is given to keep the buffers up to date. -/
def sink (d : Simulation) : Sink := ⟨d.moduleWords?⟩

/-- Write what a registry pushes into the buffer of its binding, cut to what the buffer holds. -/
def receive (d : Simulation) (push : Push Single) : Outcome Unit :=
  match d.moduleWords? push.binding with
  | none =>
    { result := ()
      device := d
      warnings := ["No GPU buffer for binding " ++ toString push.binding] }
  | some most =>
    let words := (push.values.extract 0 most).map Single.bits
    let commands := if words.isEmpty then [] else [.write (.bound push.binding) 0 words]
    { result := ()
      device := d.submit commands
      commands := commands
      warnings :=
        if most < push.values.size then
          ["Binding " ++ toString push.binding ++ " holds " ++ toString most ++
            " values, truncating write of " ++ toString push.values.size]
        else [] }

/-- Write everything that a registry pushes, in order. -/
def receiveAll (d : Simulation) (pushes : List (Push Single)) : Outcome Unit :=
  pushes.foldl
    (fun outcome push =>
      let more := outcome.device.receive push
      { more with
        commands := outcome.commands ++ more.commands
        warnings := outcome.warnings ++ more.warnings })
    { result := (), device := d }

/-- Make a registry keep a simulation up to date from now on. -/
def attach (d : Simulation) (registry : Registry Single) : Outcome (Registry Single) :=
  let attached := registry.attach d.sink
  let received := d.receiveAll attached.pushes
  { result := attached.registry
    device := received.device
    commands := received.commands
    warnings := received.warnings }

/-- A simulation for the modules of a registry, together with the registry that keeps it up to
date. -/
def launch (takes : Acceptance) (registry : Registry Single) (settings : Settings Single)
    (camera : Camera Single) : Except Refusal (Outcome (Registry Single)) := do
  return (← create takes registry settings camera).attach registry

/-! ### Uploading -/

/-- The command that overwrites the front of a fixed buffer; none if there is nothing to write. -/
def overwrite (binding : FixedBinding) (words : Array UInt32) : List Command :=
  if words.isEmpty then [] else [.write (.bound binding.number) 0 words]

/-- Replace the particles, as many as there is room for. -/
def upload (d : Simulation) (particles : Array (Particle Single)) : Outcome Unit :=
  let host := particles.extract 0 d.capacity
  let commands := overwrite .particles (Particle.toRecords host) ++
    overwrite .scratch (Array.replicate (host.size * d.program.scratch.stride) 0)
  { result := ()
    device := { d.submit commands with host := host, pending := none }
    commands := commands
    warnings :=
      if d.capacity < particles.size then
        ["Uploading " ++ toString particles.size ++ " particles into a buffer of " ++
          toString d.capacity ++ ", extra particles ignored"]
      else [] }

/-! ### Stepping -/

/-- How many workgroups it takes to run an entry point once for each of `threads` items. -/
def workgroups (threads size : Nat) : Nat := max ((threads + (size - 1)) / size) 1

/-- The command that runs an entry point. -/
def dispatch (d : Simulation) (entry : String) (threads : Nat) : Command :=
  .dispatch entry (workgroups threads d.program.workgroupSize)

/-- The commands that rebuild the neighbour index. -/
def rebuildCommands (d : Simulation) : List Command :=
  [d.dispatch Shader.clearGridEntry (d.tracker.bounds.cellCount + 1),
    d.dispatch Shader.buildGridEntry d.host.size]

/-- The commands of a phase: keep the records as they are, then run it. -/
def phaseCommands (d : Simulation) (phase : Phase) : List Command :=
  [.copy (.bound FixedBinding.particles.number) 0 (.bound FixedBinding.previous.number) 0
      (d.host.size * recordWords),
    d.dispatch phase.entry d.host.size]

/-- The commands of all passes of a step. -/
def passCommands (d : Simulation) : List Command :=
  d.rebuildCommands ++ d.phaseCommands .state ++ d.phaseCommands .apply ++
  [d.dispatch Shader.integrateEntry d.host.size] ++
  (List.replicate d.iterations.toNat (d.rebuildCommands ++ d.phaseCommands .constrain)).flatten ++
  d.rebuildCommands ++ d.phaseCommands .correct

/-- The simulation with its bounds following a camera, and the command that tells the device. -/
def follow (d : Simulation) (camera : Camera Single) : Simulation × List Command :=
  let (changed, tracker) := d.tracker.track camera
  ({ d with tracker := tracker },
    if changed then overwrite .grid (gridRecord tracker.bounds d.maxPerCell) else [])

/-- Submit one step. Without particles there is nothing to do. -/
def step (d : Simulation) (dt : Single) (camera : Camera Single) : Outcome Unit :=
  if d.host.isEmpty then { result := (), device := d }
  else
    let (followed, grid) := d.follow camera
    let commands := grid ++ overwrite .step (stepRecord dt d.count) ++ followed.passCommands
    { result := ()
      device := { followed.submit commands with steps := d.steps + 1 }
      commands := commands }

/-! ### Reading -/

/-- The number of words in the scratch rows of `count` particles. -/
def scratchWords (d : Simulation) (count : Nat) : Nat := count * d.program.scratch.stride

/-- The commands that bring records, scratch rows and the drop counter to the host, in that
order. -/
def readingCommands (d : Simulation) : List Command :=
  let records := d.host.size * recordWords
  let rows := d.scratchWords d.host.size
  [.copy (.bound FixedBinding.particles.number) 0 .staging 0 records] ++
  (if rows = 0 then [] else [.copy (.bound FixedBinding.scratch.number) 0 .staging records rows]) ++
  [.copy (.bound FixedBinding.counts.number) d.tracker.bounds.cellCount .staging (records + rows) 1]

/-- Request a reading, unless there are no particles or one is on its way. -/
def request (d : Simulation) : Outcome Unit :=
  if d.host.isEmpty || d.pending.isSome then { result := (), device := d }
  else
    let size := d.host.size * recordWords + d.scratchWords d.host.size + 1
    let ready := { d with memory := d.memory.allocate .staging size }
    let commands := ready.readingCommands
    { result := ()
      device := { ready.submit commands with pending := some ⟨d.host.size, d.steps⟩ }
      commands := commands }

/-- Take a reading in. -/
def finish (d : Simulation) (pending : Pending) : Outcome Reading :=
  let staging := d.memory.buffer .staging
  let records := pending.count * recordWords
  let rows := d.scratchWords pending.count
  let particles := Particle.applyRecords d.host (staging.read 0 records)
  let dropped := staging.word (records + rows)
  let keep := particles.toList.map Particle.isAlive
  let live := particles.filter Particle.isAlive
  let removed := particles.size - live.size
  let current := pending.steps = d.steps
  let kept := (Table.mk d.program.scratch.stride (staging.read records rows)).retainRows keep
  let commands :=
    if current ∧ 0 < removed then
      overwrite .particles (Particle.toRecords live) ++ overwrite .scratch kept.cells
    else []
  { result := ⟨live, if current then removed else 0, dropped⟩
    device := { d.submit commands with host := if current then live else d.host, pending := none }
    commands := commands
    warnings := SlotGrid.dropWarning dropped.toNat d.maxPerCell }

/-- Take in the reading that is on its way, if there is one and it has arrived. A reading that will
not arrive any more is given up. -/
def poll (arrival : Arrival) (d : Simulation) : Outcome (Option (Except Refusal Reading)) :=
  match d.pending with
  | none => { result := none, device := d }
  | some pending =>
    match arrival with
    | .awaited => { result := none, device := d }
    | .arrived =>
      let taken := d.finish pending
      { result := some (.ok taken.result)
        device := taken.device
        commands := taken.commands
        warnings := taken.warnings }
    | .closed =>
      { result := some (.error (.device "readback channel closed"))
        device := { d with pending := none } }
    | .failed reason =>
      { result := some (.error (.device ("readback failed: " ++ reason)))
        device := { d with pending := none } }

/-- What is read where there are no particles. -/
def nothing : Reading := ⟨#[], 0, 0⟩

/-- What there is to say when a poll has come to nothing: there are no particles, or there was no
end to the waiting. -/
def unread (d : Simulation) : Except Refusal Reading :=
  if d.pending.isSome then .error (.device "readback did not complete") else .ok nothing

/-- Request a reading if none is on its way, and take it in. -/
def read (arrival : Arrival) (d : Simulation) : Outcome (Except Refusal Reading) :=
  let requested := d.request
  let polled := requested.device.poll arrival
  { result := polled.result.getD requested.device.unread
    device := polled.device
    commands := requested.commands ++ polled.commands
    warnings := requested.warnings ++ polled.warnings }

end Simulation

end Device

end ParticleDynamics
