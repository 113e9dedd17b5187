import ParticleDynamics.Proofs.Device.Accounting
import ParticleDynamics.Proofs.Device.Backing
import ParticleDynamics.Proofs.Grid.Safety

/-!
# Commands within their buffers

The buffers have the sizes that they were asked for when the simulation was created, and keep them;
what varies is how many particles there are, how many cells the neighbour index has, how long an
array is that a registry pushes, and how many particles a reading removes. A simulation is
**housed** (`Simulation.Housed`) as long as there is room for all of this. Everything that can be
demanded of a simulation keeps it housed and submits only commands that fit (`Housed.answer`), and
so do all of its runs (`Simulation.commands_fit`).

Nothing is assumed of the device but that it keeps the sizes of its buffers: whatever a program
leaves in them, the bounds hold (`Simulation.MayServe`).
-/

namespace ParticleDynamics

namespace Device

/-- Whether a command fits depends on the sizes of the buffers alone. -/
theorem Command.Fits.of_size_eq {m m' : Memory} {command : Command} (h : command.Fits m)
    (hsize : ∀ place, (m'.buffer place).size = (m.buffer place).size) : command.Fits m' := by
  cases command with
  | write target offset data => exact h.trans_eq (hsize target).symm
  | copy source sourceOffset target targetOffset count =>
    exact ⟨h.1.trans_eq (hsize source).symm, h.2.trans_eq (hsize target).symm⟩
  | dispatch entry workgroups => trivial

/-- What can be demanded of a simulation. -/
inductive Demand where
  /-- an order -/
  | order (order : Order)
  /-- to take in what a registry pushes -/
  | push (push : Push Single)
  /-- another number of constraint passes -/
  | iterations (iterations : UInt32)

namespace Simulation

/-- What a demand leaves behind. -/
def answer (d : Simulation) : Demand → Outcome (Option (Except Refusal Reading))
  | .order order => d.obey order
  | .push push => { d.receive push with result := none }
  | .iterations iterations => { result := none, device := d.setIterations iterations }

/-- What **a device may make** of an outcome: it changes what its buffers hold, but not how much
they hold. -/
structure MayServe {β : Type} (outcome : Outcome β) (d : Simulation) : Prop where
  host_side : d = { outcome.device with memory := d.memory }
  size_eq : ∀ place, (d.memory.buffer place).size = (outcome.device.memory.buffer place).size

/-- The simulations that a program can get to on any device, whatever is demanded. -/
inductive Running (program : Program) (settings : Settings Single) (camera : Camera Single) :
    Simulation → Prop
  | start : Running program settings camera (assemble program settings camera)
  | next {d d' : Simulation} (h : Running program settings camera d) (demand : Demand)
    (hserve : MayServe (d.answer demand) d') : Running program settings camera d'

/-- There is room for what a simulation holds in the buffers that it was created with. -/
structure Housed (program : Program) (settings : Settings Single) (d : Simulation) : Prop where
  program_eq : d.program = program
  capacity_eq : d.capacity = room settings
  maxPerCell_eq : d.maxPerCell = max settings.maxPerCell 1
  maxCells_eq : d.tracker.maxCells = max settings.deviceGridCells 1
  /-- the buffers are as large as they were asked for -/
  size_eq : ∀ binding words, (binding, words) ∈ buffers program settings →
    (d.memory.buffer (.bound binding)).size = words
  /-- there is room for the particles -/
  host_le : d.host.size ≤ d.capacity
  /-- there are no more cells than allowed for -/
  sized : d.tracker.bounds.Sized (max d.tracker.maxCells.toNat 1)
  /-- a reading on its way has been given the room that it needs -/
  staged : ∀ pending, d.pending = some pending → pending.count = d.host.size ∧
    (d.memory.buffer .staging).size =
      pending.count * recordWords + d.scratchWords pending.count + 1

/-- An outcome that leaves the simulation housed, and whose commands all fit. No command changes the
size of a buffer, so it does not matter at which moment of the outcome they are measured. -/
structure Sound {β : Type} (program : Program) (settings : Settings Single)
    (outcome : Outcome β) : Prop where
  fits : ∀ command ∈ outcome.commands, command.Fits outcome.device.memory
  housed : Housed program settings outcome.device

variable {registry : Registry Single} {program : Program} {settings : Settings Single}
  {camera : Camera Single} {d d' : Simulation} {m : Memory} {command : Command}

/-! ## What fits -/

/-- Overwriting fits if there is no more to write than the buffer holds. -/
theorem fits_overwrite {binding : FixedBinding} {words : Array UInt32}
    (hsize : words.size ≤ (m.buffer (.bound binding.number)).size)
    (h : command ∈ overwrite binding words) : command.Fits m := by
  rw [overwrite] at h
  split at h
  next => cases h
  next =>
    rw [List.mem_singleton.1 h]
    exact (Nat.zero_add _).trans_le hsize

namespace Housed

/-- The buffers of the program, in terms of what the simulation knows. -/
theorem size_fixed (h : Housed program settings d) (binding : FixedBinding) :
    (d.memory.buffer (.bound binding.number)).size =
      fixedWords d.capacity d.program.scratch.stride d.tracker.maxCells.toNat d.maxPerCell.toNat
        binding := by
  rw [h.capacity_eq, h.program_eq, h.maxCells_eq, h.maxPerCell_eq]
  exact h.size_eq _ _ (List.mem_append_left _ (List.mem_map_of_mem (FixedBinding.mem_all binding)))

/-- The buffers of the modules. -/
theorem size_module (h : Housed program settings d) {binding words : Nat}
    (hwords : d.moduleWords? binding = some words) :
    (d.memory.buffer (.bound binding)).size = words := by
  rw [moduleWords?, h.program_eq, h.capacity_eq] at hwords
  obtain ⟨before, after, hbuffers, -⟩ := List.lookup_eq_some_iff.1 hwords
  refine h.size_eq _ _ (List.mem_append_right _ ?_)
  rw [hbuffers]
  exact List.mem_append_right _ List.mem_cons_self

/-- **The tracked cells have a counter and slots each.** The tracker keeps within the cap whatever
the camera is, and counters and slots were allocated for the cap. -/
theorem cellCount_le (h : Housed program settings d) :
    d.tracker.bounds.cellCount ≤ d.tracker.maxCells.toNat * d.tracker.maxCells.toNat := by
  have hpos : 1 ≤ d.tracker.maxCells.toNat := by
    rw [h.maxCells_eq, toNat_max]
    exact Nat.le_max_right ..
  have hmost := Nat.max_eq_left hpos
  exact Nat.mul_le_mul (hmost ▸ h.sized.cols_le) (hmost ▸ h.sized.rows_le)

theorem records_le (h : Housed program settings d) :
    d.host.size * recordWords ≤ d.capacity * recordWords :=
  Nat.mul_le_mul_right _ h.host_le

theorem rows_le (h : Housed program settings d) :
    d.scratchWords d.host.size ≤ d.capacity * d.program.scratch.stride :=
  Nat.mul_le_mul_right _ h.host_le

/-- A simulation with the same particles and buffers, on its way through the same cells. -/
theorem of_size_eq (h : Housed program settings d)
    (hd : d' = { d with memory := d'.memory, iterations := d'.iterations, steps := d'.steps })
    (hsize : ∀ place, (d'.memory.buffer place).size = (d.memory.buffer place).size) :
    Housed program settings d' := by
  rw [hd]
  exact { h with
    size_eq := fun binding words hmem => (hsize _).trans (h.size_eq binding words hmem)
    staged := fun pending hpending =>
      ⟨(h.staged pending hpending).1, (hsize _).trans (h.staged pending hpending).2⟩ }

/-! ## Demands -/

/-- **New particles** are housed in the front of the buffers, if there is room for them. Uploading
and writing back after a reading are both cases of it. -/
theorem rewrite (h : Housed program settings d) {host : Array (Particle Single)}
    (hhost : host.size ≤ d.capacity) {rows : Array UInt32}
    (hrows : rows.size ≤ d.capacity * d.program.scratch.stride) :
    (∀ command ∈ overwrite .particles (Particle.toRecords host) ++ overwrite .scratch rows,
      command.Fits d.memory) ∧
    ∀ commands, Housed program settings
      { d.submit commands with host := host, pending := none } := by
  refine ⟨List.forall_mem_append.2 ⟨fun command hmem => ?_, fun command hmem => ?_⟩,
    fun commands => ?_⟩
  · refine fits_overwrite ?_ hmem
    rw [Particle.size_toRecords, h.size_fixed]
    exact Nat.mul_le_mul_right _ hhost
  · refine fits_overwrite ?_ hmem
    rw [h.size_fixed]
    exact hrows
  · exact { h with
      size_eq := fun binding words hmem =>
        (Memory.size_performAll ..).trans (h.size_eq binding words hmem)
      host_le := hhost
      staged := nofun }

theorem upload (h : Housed program settings d) (particles : Array (Particle Single)) :
    Sound program settings (d.upload particles) := by
  have hhost : (particles.extract 0 d.capacity).size ≤ d.capacity := by
    rw [Array.size_extract]
    omega
  have hrows : (Array.replicate ((particles.extract 0 d.capacity).size *
      d.program.scratch.stride) (0 : UInt32)).size ≤ d.capacity * d.program.scratch.stride := by
    rw [Array.size_replicate]
    exact Nat.mul_le_mul_right _ hhost
  obtain ⟨hfits, hhoused⟩ := h.rewrite hhost hrows
  exact ⟨fun command hmem => (hfits command hmem).of_size_eq (Memory.size_performAll _),
    hhoused _⟩

/-- What is pushed is cut to the buffer that it is written to. -/
theorem receive (h : Housed program settings d) (push : Push Single) :
    Sound program settings (d.receive push) := by
  rw [Simulation.receive]
  split
  next => exact ⟨List.forall_mem_nil _, h⟩
  next most hmost =>
    have hsize := h.size_module hmost
    refine ⟨fun command hmem => ?_, h.of_size_eq rfl (Memory.size_performAll _)⟩
    refine Command.Fits.of_size_eq (m := d.memory) ?_ (Memory.size_performAll _)
    dsimp only at hmem
    split at hmem
    next => cases hmem
    next =>
      rw [List.mem_singleton.1 hmem]
      change 0 + ((push.values.extract 0 most).map Single.bits).size ≤ _
      rw [hsize, Array.size_map, Array.size_extract]
      omega

/-- The commands of the passes fit. -/
theorem fits_passCommands (h : Housed program settings d) (hmem : command ∈ d.passCommands) :
    command.Fits d.memory := by
  have hdispatch {entry : String} {threads : Nat} : (d.dispatch entry threads).Fits d.memory :=
    trivial
  have hrebuild : ∀ command ∈ d.rebuildCommands, command.Fits d.memory :=
    List.forall_mem_cons.2 ⟨hdispatch, List.forall_mem_singleton.2 hdispatch⟩
  have hphase (phase : Phase) : ∀ command ∈ d.phaseCommands phase, command.Fits d.memory := by
    refine List.forall_mem_cons.2 ⟨⟨?_, ?_⟩, List.forall_mem_singleton.2 hdispatch⟩
    · rw [Nat.zero_add, h.size_fixed]
      exact h.records_le
    · rw [Nat.zero_add, h.size_fixed]
      exact h.records_le
  simp only [passCommands, List.mem_append, List.mem_singleton, List.mem_flatten,
    List.mem_replicate] at hmem
  rcases hmem with (((((hmem | hmem) | hmem) | rfl) | ⟨_, ⟨-, rfl⟩, hmem⟩) | hmem) | hmem
  · exact hrebuild _ hmem
  · exact hphase _ _ hmem
  · exact hphase _ _ hmem
  · exact hdispatch
  · exact (List.mem_append.1 hmem).elim (hrebuild _) (hphase _ _)
  · exact hrebuild _ hmem
  · exact hphase _ _ hmem

/-- Following a camera leaves the cells within what is allowed. -/
theorem follow (h : Housed program settings d) (camera : Camera Single) :
    Housed program settings (d.follow camera).1 := by
  have hmax := (d.tracker.settings_track camera).2.2
  exact { h with
    maxCells_eq := hmax.trans h.maxCells_eq
    sized := hmax.symm ▸ d.tracker.sized_track h.sized camera }

theorem step (h : Housed program settings d) (dt : Single) (camera : Camera Single) :
    Sound program settings (d.step dt camera) := by
  rw [Simulation.step]
  split
  next => exact ⟨List.forall_mem_nil _, h⟩
  next =>
    have hfollow := h.follow camera
    have hgrid (bounds : Bounds Single) : (gridRecord bounds d.maxPerCell).size ≤
        (d.memory.buffer (.bound FixedBinding.grid.number)).size := (h.size_fixed .grid).ge
    have hstep : (stepRecord dt d.count).size ≤
        (d.memory.buffer (.bound FixedBinding.step.number)).size := (h.size_fixed .step).ge
    refine ⟨fun command hmem => ?_, hfollow.of_size_eq rfl (Memory.size_performAll _)⟩
    refine Command.Fits.of_size_eq (m := d.memory) ?_ (Memory.size_performAll _)
    dsimp only at hmem
    rw [List.mem_append, List.mem_append] at hmem
    rcases hmem with (hmem | hmem) | hmem
    · simp only [Simulation.follow] at hmem
      split at hmem
      next => exact fits_overwrite (hgrid _) hmem
      next => cases hmem
    · exact fits_overwrite hstep hmem
    · exact hfollow.fits_passCommands hmem

/-- **A reading is given the room that it needs**, and what it copies is there. -/
theorem request (h : Housed program settings d) : Sound program settings d.request := by
  rw [Simulation.request]
  split
  -- a reading is on its way already: nothing is asked for
  next => exact ⟨List.forall_mem_nil _, h⟩
  next =>
    let size := d.host.size * recordWords + d.scratchWords d.host.size + 1
    let ready := { d with memory := d.memory.allocate .staging size }
    have hstaging : (ready.memory.buffer .staging).size = size :=
      congrArg Buffer.size (Memory.buffer_allocate_self ..)
    have hbound (binding : Nat) : ready.memory.buffer (.bound binding) =
        d.memory.buffer (.bound binding) := Memory.buffer_allocate_ne (by simp)
    refine ⟨fun command hmem => ?_, ?_⟩
    · -- what is copied into the new buffer fits into it: the records, the rows, the dropped count
      refine Command.Fits.of_size_eq (m := ready.memory) ?_ (Memory.size_performAll _)
      change command ∈ ready.readingCommands at hmem
      simp only [readingCommands, List.mem_append, List.mem_singleton] at hmem
      rcases hmem with (rfl | hmem) | rfl
      · refine ⟨?_, ?_⟩
        · rw [hbound, h.size_fixed, Nat.zero_add]
          exact h.records_le
        · rw [hstaging, Nat.zero_add]
          exact Nat.le_add_right_of_le (Nat.le_add_right ..)
      · split at hmem
        next => cases hmem
        next =>
          obtain rfl := List.mem_singleton.1 hmem
          refine ⟨?_, ?_⟩
          · rw [hbound, h.size_fixed, Nat.zero_add]
            exact h.rows_le
          · rw [hstaging]
            exact Nat.le_succ _
      · refine ⟨?_, hstaging.ge⟩
        rw [hbound, h.size_fixed]
        exact Nat.succ_le_succ h.cellCount_le
    · -- the buffers of the programs keep their sizes, and the reading knows how many are on the way
      exact { h with
        size_eq := fun binding words hmem => (Memory.size_performAll ..).trans
          ((congrArg Buffer.size (hbound binding)).trans (h.size_eq binding words hmem))
        staged := fun pending hpending => by
          obtain rfl := Option.some.inj hpending
          exact ⟨rfl, (Memory.size_performAll ..).trans hstaging⟩ }

/-- **What is written back after a reading** are fewer records and rows than were read. They go to
the front of the buffers, where there was room for more. -/
theorem finish (h : Housed program settings d) {pending : Pending}
    (hpending : d.pending = some pending) : Sound program settings (d.finish pending) := by
  have hcount := (h.staged pending hpending).1
  let particles := Particle.applyRecords d.host
    ((d.memory.buffer .staging).read 0 (pending.count * recordWords))
  have hlive : (particles.filter Particle.isAlive).size ≤ d.capacity :=
    (Array.size_filter_le.trans_eq Array.size_mapIdx).trans h.host_le
  let rows : Table UInt32 := ⟨d.program.scratch.stride, (d.memory.buffer .staging).read
    (pending.count * recordWords) (d.scratchWords pending.count)⟩
  have hrows : rows.HasRows d.host.size :=
    ⟨Nat.add_pos_left (by decide) _, hcount ▸ Buffer.size_read ..⟩
  have hkept := (hrows.size_retainRows_le (particles.toList.map Particle.isAlive)).trans h.rows_le
  obtain ⟨hfits, hhoused⟩ := h.rewrite hlive hkept
  rw [Simulation.finish]
  refine ⟨fun command hmem => ?_, ?_⟩
  · -- without deaths nothing is written
    refine Command.Fits.of_size_eq (m := d.memory) ?_ (Memory.size_performAll _)
    dsimp only at hmem
    split at hmem
    next => exact hfits command hmem
    next => cases hmem
  · -- what has been read is taken over only if no step has come between
    by_cases hcurrent : pending.steps = d.steps
    · simp only [if_pos hcurrent]
      exact hhoused _
    · simp only [if_neg hcurrent]
      exact { h with
        size_eq := fun binding words hmem =>
          (Memory.size_performAll ..).trans (h.size_eq binding words hmem)
        staged := fun _ hnone => by cases hnone }

theorem poll (h : Housed program settings d) (arrival : Arrival) :
    Sound program settings (d.poll arrival) := by
  rcases d.poll_cases arrival with ⟨-, hpoll⟩ | ⟨refusal, -, hpoll⟩ | ⟨pending, hpending, -, hpoll⟩
  · rw [hpoll]
    exact ⟨List.forall_mem_nil _, h⟩
  · -- nothing is staged any more for a reading that is given up
    rw [hpoll]
    exact ⟨List.forall_mem_nil _, { h with staged := nofun }⟩
  · rw [hpoll]
    obtain ⟨hfits, hhoused⟩ := h.finish hpending
    exact ⟨hfits, hhoused⟩

/-- Taking a reading in changes the size of no buffer. -/
theorem size_poll (d : Simulation) (arrival : Arrival) (place : Place) :
    ((d.poll arrival).device.memory.buffer place).size = (d.memory.buffer place).size := by
  rcases d.poll_cases arrival with ⟨-, hpoll⟩ | ⟨refusal, -, hpoll⟩ | ⟨pending, -, -, hpoll⟩
  · rw [hpoll]
  · rw [hpoll]
  · rw [hpoll]
    exact Memory.size_performAll _ place

theorem read (h : Housed program settings d) (arrival : Arrival) :
    Sound program settings (d.read arrival) := by
  obtain ⟨hfits, hhoused⟩ := h.request
  obtain ⟨hfits', hhoused'⟩ := hhoused.poll arrival
  exact ⟨List.forall_mem_append.2 ⟨fun command hmem => (hfits command hmem).of_size_eq
    (size_poll _ arrival), hfits'⟩, hhoused'⟩

/-- **Every demand is met within the buffers.** There is one lemma for each kind of demand above,
and none of them asks what the device has in its memory. -/
theorem answer (h : Housed program settings d) (demand : Demand) :
    Sound program settings (d.answer demand) := by
  cases demand with
  | push push => exact ⟨(h.receive push).fits, (h.receive push).housed⟩
  | iterations iterations =>
    exact ⟨List.forall_mem_nil _, h.of_size_eq rfl fun _ => rfl⟩
  | order order =>
    cases order with
    | upload particles => exact ⟨(h.upload particles).fits, (h.upload particles).housed⟩
    | step dt camera => exact ⟨(h.step dt camera).fits, (h.step dt camera).housed⟩
    | request => exact ⟨h.request.fits, h.request.housed⟩
    | poll arrival => exact h.poll arrival
    | read arrival => exact ⟨(h.read arrival).fits, (h.read arrival).housed⟩

/-- Whatever the device makes of an outcome, its buffers are as large as before. -/
theorem of_mayServe {β : Type} {outcome : Outcome β} (h : Housed program settings outcome.device)
    (hserve : MayServe outcome d') : Housed program settings d' := by
  refine h.of_size_eq ?_ hserve.size_eq
  rw [hserve.host_side]

end Housed

/-! ## Runs -/

/-- A new simulation has buffers of the sizes it needs. -/
theorem housed_assemble (hbuild : Program.build settings.workgroupSize registry = .ok program)
    (camera : Camera Single) : Housed program settings (assemble program settings camera) where
  program_eq := rfl
  capacity_eq := rfl
  maxPerCell_eq := rfl
  maxCells_eq := rfl
  size_eq _ _ hmem := size_buffer_of_build hbuild camera hmem
  host_le := Nat.zero_le _
  sized := Tracker.sized_derive ..
  staged := nofun

/-- **A simulation stays housed.** This is the induction over all that can happen to a simulation,
with the lemmas above as its steps. -/
theorem Running.housed (hbuild : Program.build settings.workgroupSize registry = .ok program)
    (h : Running program settings camera d) : Housed program settings d := by
  induction h with
  | start => exact housed_assemble hbuild camera
  | next _ demand hserve ih => exact (ih.answer demand).housed.of_mayServe hserve

/-- What a registry pushes are demands, one after the other, whose commands all fit. -/
theorem Running.receiveAll (hbuild : Program.build settings.workgroupSize registry = .ok program)
    (h : Running program settings camera d) (pushes : List (Push Single)) :
    Running program settings camera (d.receiveAll pushes).device ∧
      ∀ command ∈ (d.receiveAll pushes).commands,
        command.Fits (d.receiveAll pushes).device.memory := by
  refine List.foldlRecOn (motive := fun outcome : Outcome Unit =>
    Running program settings camera outcome.device ∧
      ∀ command ∈ outcome.commands, command.Fits outcome.device.memory) pushes _
    ⟨h, List.forall_mem_nil _⟩ ?_
  rintro outcome ⟨hrunning, hfits⟩ push -
  refine ⟨hrunning.next (.push push) ⟨rfl, fun _ => rfl⟩, List.forall_mem_append.2
    ⟨fun command hmem => (hfits command hmem).of_size_eq fun place => ?_,
      ((hrunning.housed hbuild).receive push).fits⟩⟩
  dsimp only
  rw [receive]
  split
  · rfl
  · exact Memory.size_performAll _ place

/-- **Every write and every copy stays within its buffer.** Whatever is demanded of a simulation
whose program was built, in whatever order, however far readings have come when they are asked for,
and whatever the device leaves in its buffers: the host knows no more particles than there is room
for, the buffers have the sizes that they were created with, there are slots for all tracked cells,
a reading that is on its way has been given the room it needs, and the commands of whatever is
demanded next fit the buffers that they read and write. A simulation that is launched is one of
these, and the commands that the registry gives rise to fit as well. -/
theorem commands_fit (hbuild : Program.build settings.workgroupSize registry = .ok program)
    (camera : Camera Single) :
    (∀ d, Running program settings camera d →
      (d.host.size ≤ d.capacity ∧ d.capacity = room settings) ∧
      (∀ binding words, (binding, words) ∈ buffers program settings →
        (d.memory.buffer (.bound binding)).size = words) ∧
      d.tracker.bounds.cellCount * d.maxPerCell.toNat ≤
        (d.memory.buffer (.bound FixedBinding.cells.number)).size ∧
      (∀ pending, d.pending = some pending →
        pending.count * recordWords + d.scratchWords pending.count + 1 ≤
          (d.memory.buffer .staging).size) ∧
      ∀ demand, ∀ command ∈ (d.answer demand).commands,
        command.Fits (d.answer demand).device.memory) ∧
    ∀ takes outcome, launch takes registry settings camera = .ok outcome →
      Running program settings camera outcome.device ∧
        ∀ command ∈ outcome.commands, command.Fits outcome.device.memory := by
  refine ⟨fun d h => ?_, fun takes outcome hlaunch => ?_⟩
  · have hhoused := h.housed hbuild
    refine ⟨⟨hhoused.host_le, hhoused.capacity_eq⟩, hhoused.size_eq, ?_,
      fun pending hpending => (hhoused.staged pending hpending).2.ge,
      fun demand => (hhoused.answer demand).fits⟩
    rw [hhoused.size_fixed]
    exact Nat.mul_le_mul_right _ hhoused.cellCount_le
  · obtain ⟨program', hbuild', rfl⟩ := eq_of_launch hlaunch
    obtain rfl := Except.ok.inj (hbuild.symm.trans hbuild')
    exact Running.start.receiveAll hbuild _

/-- Three particles are uploaded where there is room for two, and a step is submitted for a camera
that is nowhere; what is ordered next still fits. -/
theorem commands_fit_of_three :
    let settings : Settings Single := { Settings.ofPreset .low with maxParticles := 2 }
    let camera : Camera Single := .standard
    let lost : Camera Single := { camera with center := ⟨.undefined, 0⟩ }
    let p : Particle Single := Birth.standard.withId 1
    ∃ program, Program.build settings.workgroupSize ({} : Registry Single) = .ok program ∧
      let d := (assemble program settings camera).obeyAll
        [.upload #[p, p.kill, p], .request, .step 1 lost, .request]
      (d.host.size ≤ d.capacity ∧ d.capacity = 2) ∧ d.tracker.bounds.cellCount * d.maxPerCell.toNat ≤
        (d.memory.buffer (.bound FixedBinding.cells.number)).size ∧
      ∀ demand, ∀ command ∈ (d.answer demand).commands,
        command.Fits (d.answer demand).device.memory := by
  intro settings camera lost p
  obtain ⟨program, hbuild⟩ : ∃ program,
    Program.build settings.workgroupSize ({} : Registry Single) = .ok program := ⟨_, rfl⟩
  refine ⟨program, hbuild, ?_⟩
  have hserve {β : Type} (outcome : Outcome β) : MayServe outcome outcome.device :=
    ⟨rfl, fun _ => rfl⟩
  have hrunning : Running program settings camera ((assemble program settings camera).obeyAll
      [.upload #[p, p.kill, p], .request, .step 1 lost, .request]) :=
    (((Running.start.next (.order (.upload #[p, p.kill, p])) (hserve _)).next
      (.order .request) (hserve _)).next (.order (.step 1 lost)) (hserve _)).next
      (.order .request) (hserve _)
  obtain ⟨⟨hroom, hcapacity⟩, -, hcells, -, hfits⟩ := (commands_fit hbuild camera).1 _ hrunning
  exact ⟨⟨hroom, hcapacity⟩, hcells, hfits⟩

end Simulation

end Device

end ParticleDynamics
