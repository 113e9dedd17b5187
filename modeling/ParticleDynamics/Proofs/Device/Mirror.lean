import ParticleDynamics.Proofs.Device.Assembly
import ParticleDynamics.Proofs.Device.Commands
import ParticleDynamics.Proofs.Device.Records

/-!
# The copy of the host

On a device that runs no program the host's copy of the particles **mirrors** the records of the
device (`Simulation.Mirrors`): the front of the buffer holds the records of the copy, and what a
reading that is on its way has staged are the records of the copy as well, whatever was submitted
since the request. A new simulation mirrors its device, and every operation keeps it so.

What a reading shows can therefore be said in terms of the copy alone: it shows the live particles
of the copy (`Mirrors.result_finish`), and it leaves behind the live particles, or the copy as it
was if a step was submitted since the request (`Mirrors.host_finish`).
-/

namespace ParticleDynamics

namespace Device

namespace Simulation

variable {d d' : Simulation} {pending : Pending}

/-- What was staged for a reading is the copy of the host. -/
structure Staged (d : Simulation) (pending : Pending) : Prop where
  /-- as many particles were copied as the host knows -/
  count_eq : pending.count = d.host.size
  /-- the records come first -/
  records : (d.memory.buffer .staging).read 0 (pending.count * recordWords) =
    Particle.toRecords d.host
  /-- the drop counter comes last, and nothing was dropped -/
  undropped : (d.memory.buffer .staging).word
    (pending.count * recordWords + d.scratchWords pending.count) = 0

/-- The copy of the host shows what is on the device. -/
structure Mirrors (d : Simulation) : Prop where
  /-- there is room for the particles -/
  size_le : d.host.size ≤ d.capacity
  /-- the buffer of the particles is as large as it was made -/
  room : (d.memory.buffer (.bound FixedBinding.particles.number)).size = d.capacity * recordWords
  /-- the records are those of the copy -/
  records : (d.memory.buffer (.bound FixedBinding.particles.number)).read 0
    (d.host.size * recordWords) = Particle.toRecords d.host
  /-- nothing has been counted -/
  uncounted : ∀ place, (d.memory.buffer (.bound FixedBinding.counts.number)).word place = 0
  /-- a reading on its way is one of the copy -/
  staged : ∀ pending, d.pending = some pending → d.Staged pending

namespace Mirrors

/-! ### Changes elsewhere -/

/-- Where the copy is mirrored and where it is staged. -/
def Concerns (place : Place) : Prop :=
  place = .bound FixedBinding.particles.number ∨ place = .bound FixedBinding.counts.number ∨
    place = .staging

/-- **What happens in other buffers does not matter.** Only the records and what is staged concern
the copy, and most commands are aimed at neither. -/
theorem of_frame (h : Mirrors d) (hkept : Keeps d d')
    (hmemory : ∀ place, Concerns place → d'.memory.buffer place = d.memory.buffer place) :
    Mirrors d' := by
  obtain ⟨hhost, hpending, hcapacity, hprogram⟩ := hkept
  have hparticles := hmemory _ (.inl rfl)
  have hcounts := hmemory _ (.inr (.inl rfl))
  have hstaging := hmemory _ (.inr (.inr rfl))
  refine ⟨?_, ?_, ?_, fun place => ?_, fun pending h' => ?_⟩
  · rw [hhost, hcapacity]
    exact h.size_le
  · rw [hparticles, hcapacity]
    exact h.room
  · rw [hparticles, hhost]
    exact h.records
  · rw [hcounts]
    exact h.uncounted place
  · obtain ⟨hcount, hrecords, hundropped⟩ := h.staged pending (hpending ▸ h')
    refine ⟨hhost ▸ hcount, ?_, ?_⟩
    · rw [hstaging, hhost]
      exact hrecords
    · rw [hstaging, scratchWords, hprogram]
      exact hundropped

/-- A step keeps the copy. -/
theorem step (h : Mirrors d) (dt : Single) (camera : Camera Single) :
    Mirrors (d.step dt camera).device := by
  refine h.of_frame (keeps_step d dt camera) fun place hplace => ?_
  rw [memory_step]
  refine Memory.buffer_performAll_of_ne fun command hmem htarget => ?_
  have hwork := target_of_mem_step hmem htarget
  rcases hplace with rfl | rfl | rfl <;> simp [workplaces, FixedBinding.number] at hwork

/-- What modules are told keeps the copy. -/
theorem receive (h : Mirrors d)
    (hapart : ∀ binding words, d.moduleWords? binding = some words → firstBinding ≤ binding)
    (push : Push Single) : Mirrors (d.receive push).device := by
  rw [Simulation.receive]
  split
  next => exact h
  next most hmost =>
    refine h.of_frame ⟨rfl, rfl, rfl, rfl⟩ fun place hplace =>
      Memory.buffer_performAll_of_ne fun command hmem => ?_
    split at hmem
    next => cases hmem
    next =>
      obtain rfl := List.mem_singleton.1 hmem
      have hbinding := hapart _ _ hmost
      rintro ⟨⟩
      rcases hplace with hplace | hplace | hplace
      all_goals simp [FixedBinding.number, firstBinding] at hplace hbinding
      all_goals omega

/-! ### New records -/

/-- **Writing the records of other particles makes them the copy.** -/
theorem rewrite (h : Mirrors d) {host : Array (Particle Single)} (hsize : host.size ≤ d.capacity)
    (rows : Array UInt32) :
    Mirrors { d.submit (overwrite .particles (Particle.toRecords host) ++
      overwrite .scratch rows) with host := host, pending := none } := by
  have hbefore : Place.bound FixedBinding.particles.number ≠ .bound FixedBinding.scratch.number := by
    decide
  have hcounts : ∀ binding : FixedBinding, binding ≠ .counts →
      Place.bound FixedBinding.counts.number ≠ .bound binding.number := by
    intro binding
    cases binding <;> simp [FixedBinding.number]
  refine ⟨hsize, ?_, ?_, fun place => ?_, fun pending hpending => by cases hpending⟩
  · exact (Memory.size_performAll _ _).trans h.room
  · have hfits : (Particle.toRecords host).size ≤
        (d.memory.buffer (.bound FixedBinding.particles.number)).size := by
      rw [Particle.size_toRecords, h.room]
      exact Nat.mul_le_mul_right _ hsize
    rw [submit, Memory.performAll_append, buffer_overwrite_of_ne hbefore]
    exact Particle.size_toRecords host ▸ read_overwrite hfits
  · rw [submit, Memory.performAll_append, buffer_overwrite_of_ne (hcounts _ (by decide)),
      buffer_overwrite_of_ne (hcounts _ (by decide))]
    exact h.uncounted place

/-- Uploading makes what was uploaded the copy. -/
theorem upload (h : Mirrors d) (particles : Array (Particle Single)) :
    Mirrors (d.upload particles).device :=
  h.rewrite (by simp) _

/-! ### Readings -/

/-- **What is staged when a reading is requested is the copy.** A step that is submitted later does
not change it any more, since none of its commands is aimed there. -/
theorem request (h : Mirrors d) : Mirrors d.request.device := by
  rw [Simulation.request]
  split
  next => exact h
  next =>
    generalize hsize : d.host.size * recordWords + d.scratchWords d.host.size + 1 = size
    let ready := { d with memory := d.memory.allocate .staging size }
    have hready : ∀ binding, ready.memory.buffer (.bound binding) =
        d.memory.buffer (.bound binding) :=
      fun binding => Memory.buffer_allocate_ne nofun
    have hstaging : ready.memory.buffer .staging = { size := size } :=
      Memory.buffer_allocate_self ..
    -- the copies go to the staging buffer and to no other
    have hcopied : ∀ binding, (ready.memory.performAll ready.readingCommands).buffer
        (.bound binding) = d.memory.buffer (.bound binding) := fun binding =>
      (Memory.buffer_performAll_of_ne fun command hmem htarget => by
        cases target_of_mem_readingCommands hmem htarget).trans (hready binding)
    have hroom : ready.host.size * recordWords ≤
        (ready.memory.buffer (.bound FixedBinding.particles.number)).size := by
      rw [hready, h.room]
      exact Nat.mul_le_mul_right _ h.size_le
    refine ⟨h.size_le, ?_, ?_, fun place => ?_, fun pending hpending => ?_⟩
    · exact (congrArg Buffer.size (hcopied _)).trans h.room
    · exact (congrArg (fun b : Buffer => b.read 0 (d.host.size * recordWords)) (hcopied _)).trans
        h.records
    · exact (congrArg (·.word place) (hcopied _)).trans (h.uncounted place)
    · -- the staging buffer has what the host knows, and nothing that was dropped
      obtain rfl := Option.some.inj hpending
      refine ⟨rfl, ?_, ?_⟩
      · refine (read_readingCommands ?_ hroom).trans ?_
        · rw [hstaging, ← hsize]
          exact Nat.le_add_right_of_le (Nat.le_add_right ..)
        · rw [hready]
          exact h.records
      · refine word_readingCommands (fun index => ?_) fun index => ?_
        · rw [hstaging]
          rfl
        · rw [hready]
          exact h.uncounted index

/-- What is taken in is the copy. -/
theorem applyRecords_staging (h : Mirrors d) (hpending : d.pending = some pending) :
    Particle.applyRecords d.host
      ((d.memory.buffer .staging).read 0 (pending.count * recordWords)) = d.host := by
  rw [(h.staged pending hpending).records, Particle.applyRecords_toRecords]

/-- **A reading shows the live particles of the copy.** It removes the others if no step was
submitted since the request. The device may have changed records in that step, so it is too early
then to take anyone out. -/
theorem result_finish (h : Mirrors d) (hpending : d.pending = some pending) :
    (d.finish pending).result =
      ⟨d.host.filter Particle.isAlive,
        if pending.steps = d.steps then d.host.size - (d.host.filter Particle.isAlive).size else 0,
        0⟩ := by
  rw [Simulation.finish, h.applyRecords_staging hpending, (h.staged pending hpending).undropped]

/-- **A reading leaves the live particles**, or the copy if a step was submitted since the
request. -/
theorem host_finish (h : Mirrors d) (hpending : d.pending = some pending) :
    (d.finish pending).device.host =
      if pending.steps = d.steps then d.host.filter Particle.isAlive else d.host := by
  rw [Simulation.finish, h.applyRecords_staging hpending]

/-- Taking a reading in keeps the copy. -/
theorem finish (h : Mirrors d) (hpending : d.pending = some pending) :
    Mirrors (d.finish pending).device := by
  rw [Simulation.finish, h.applyRecords_staging hpending]
  dsimp only
  have hlive : (d.host.filter Particle.isAlive).size ≤ d.host.size := Array.size_filter_le
  by_cases hcurrent : pending.steps = d.steps
  · by_cases hremoved : 0 < d.host.size - (d.host.filter Particle.isAlive).size
    · rw [if_pos ⟨hcurrent, hremoved⟩, if_pos hcurrent]
      exact h.rewrite (hlive.trans h.size_le) _
    · have hall : d.host.filter Particle.isAlive = d.host := by
        refine Array.filter_eq_self.2 fun p hp => Classical.byContradiction fun hdead => hremoved ?_
        exact Nat.sub_pos_of_lt (Array.size_filter_lt_size_iff_exists.2 ⟨p, hp, hdead⟩)
      rw [if_neg fun hboth => hremoved hboth.2, if_pos hcurrent, hall]
      exact ⟨h.size_le, h.room, h.records, h.uncounted, nofun⟩
  · rw [if_neg fun hboth => hcurrent hboth.1, if_neg hcurrent]
    exact ⟨h.size_le, h.room, h.records, h.uncounted, nofun⟩

end Mirrors

/-! ### New simulations -/

variable {registry : Registry Single} {settings : Settings Single} {program : Program}

/-- A new simulation mirrors its device. -/
theorem mirrors_assemble (hbuild : Program.build settings.workgroupSize registry = .ok program)
    (camera : Camera Single) : Mirrors (assemble program settings camera) := by
  have hparticles := buffer_assemble hbuild camera (by decide : FixedBinding.particles ≠ .grid)
  have hcounts := buffer_assemble hbuild camera (by decide : FixedBinding.counts ≠ .grid)
  refine ⟨Nat.zero_le _, ?_, ?_, fun place => ?_, nofun⟩
  · rw [hparticles]
    rfl
  · exact Array.eq_empty_of_size_eq_zero ((Buffer.size_read ..).trans (Nat.zero_mul _))
  · rw [hcounts]
    rfl

/-- **A simulation that a registry was attached to mirrors its device**, and it has no particles. It
is where every induction over orders begins. -/
theorem mirrors_attach (hbuild : Program.build settings.workgroupSize registry = .ok program)
    (camera : Camera Single) (attached : Registry Single) :
    Mirrors ((assemble program settings camera).attach attached).device ∧
      Keeps (assemble program settings camera)
        ((assemble program settings camera).attach attached).device := by
  refine receiveAll_induction (P := fun d => Mirrors d ∧ Keeps (assemble program settings camera) d)
    (fun d push h => ?_) ⟨mirrors_assemble hbuild camera, .refl _⟩ _
  refine ⟨h.1.receive (fun binding words hwords => ?_) push, h.2.trans (keeps_receive d push)⟩
  rw [moduleWords?, h.2.program] at hwords
  exact firstBinding_le hbuild hwords

end Simulation

end Device

end ParticleDynamics
