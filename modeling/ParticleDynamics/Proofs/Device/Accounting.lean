import ParticleDynamics.Proofs.Device.Orders

/-!
# Accounting for particles

Between two uploads no particle is lost and none is invented. However uploads, steps, requests,
polls and readings follow one another on a device that runs no program, a completed reading shows
the live particles among those of the latest upload that there was room for, and the particles that
the host still has and those that readings reported as removed add up to those that were taken in
(`Session.readings_account`).

Both are read off one invariant of the simulation together with its **books**, which say what was
uploaded last and how much was reported as removed since (`Session.Balanced`). The removal may be
put off: a reading that was requested before a step leaves the dead where they are and reports
nothing, so that the sum does not change.
-/

namespace ParticleDynamics

namespace Device

namespace Simulation

/-- A simulation that a device takes is the one that was assembled, with the registry attached. -/
theorem eq_of_launch {takes : Acceptance} {registry : Registry Single} {settings : Settings Single}
    {camera : Camera Single} {outcome : Outcome (Registry Single)}
    (h : launch takes registry settings camera = .ok outcome) :
    ∃ program, Program.build settings.workgroupSize registry = .ok program ∧
      outcome = (assemble program settings camera).attach registry := by
  rw [launch, create] at h
  cases hbuild : Program.build settings.workgroupSize registry with
  | error refusal => rw [hbuild] at h; cases h
  | ok program =>
    refine ⟨program, rfl, ?_⟩
    simp only [hbuild, bind, Except.bind] at h
    split at h
    next => cases h
    next taken htaken =>
      obtain rfl := Except.ok.inj h
      split at htaken
      next =>
        split at htaken
        next => cases htaken
        next => exact congrArg (·.attach registry) (Except.ok.inj htaken).symm
      next => cases htaken

end Simulation

/-- A simulation with its books. -/
structure Session where
  /-- the simulation -/
  device : Simulation
  /-- the particles that were uploaded last -/
  uploaded : Array (Particle Single) := #[]
  /-- how many particles were reported as removed since -/
  removed : Nat := 0

namespace Session

/-- How many particles are reported as removed. A reading that was not completed reports nothing. -/
def reported : Option (Except Refusal Reading) → Nat
  | some (.ok reading) => reading.removed
  | some (.error _) | none => 0

/-- Carry out an order and enter it in the books. -/
def obey (s : Session) : Order → Session
  | .upload particles => ⟨(s.device.upload particles).device, particles, 0⟩
  | order =>
    let outcome := s.device.obey order
    ⟨outcome.device, s.uploaded, s.removed + reported outcome.result⟩

/-- **The books balance**: the live particles of the copy are those of the upload, and what is left
and what was removed make up what was taken in. -/
structure Balanced (room : Nat) (s : Session) : Prop where
  /-- the copy is that of the device -/
  mirrors : s.device.Mirrors
  /-- there is as much room as in the beginning -/
  capacity : s.device.capacity = room
  /-- the copy has the live particles of the upload -/
  live : s.device.host.filter Particle.isAlive =
    (s.uploaded.extract 0 room).filter Particle.isAlive
  /-- no particle is lost -/
  total : s.device.host.size + s.removed = min s.uploaded.size room

variable {room : Nat} {s : Session} {pending : Pending} {arrival : Arrival}

theorem obey_poll (s : Session) (arrival : Arrival) :
    s.obey (.poll arrival) = ⟨(s.device.poll arrival).device, s.uploaded,
      s.removed + reported (s.device.poll arrival).result⟩ := rfl

/-- Where nothing was read, nothing is reported. -/
theorem reported_unread (d : Simulation) : reported (some d.unread) = 0 := by
  rw [Simulation.unread]
  split
  · rfl
  · rfl

/-- Reading is requesting and polling. -/
theorem obey_read (s : Session) (arrival : Arrival) :
    { s with device := s.device.request.device : Session }.obey (.poll arrival) =
      s.obey (.read arrival) := by
  have hread : s.obey (.read arrival) = ⟨(s.device.read arrival).device, s.uploaded,
      s.removed + reported (some (s.device.read arrival).result)⟩ := rfl
  rw [obey_poll, hread, Simulation.read]
  cases hpoll : (s.device.request.device.poll arrival).result with
  | none => rw [Option.getD_none, reported_unread]; rfl
  | some result => rfl

namespace Balanced

/-- Uploading opens new books. -/
theorem upload (h : Balanced room s) (particles : Array (Particle Single)) :
    Balanced room (s.obey (.upload particles)) := by
  have hhost : (s.device.upload particles).device.host = particles.extract 0 room := by
    rw [← h.capacity]
    rfl
  refine ⟨h.mirrors.upload particles, h.capacity, ?_, ?_⟩
  · exact congrArg (·.filter Particle.isAlive) hhost
  · rw [obey, hhost, Array.size_extract, Nat.sub_zero, Nat.add_zero, Nat.min_comm]

/-- What goes on with the same particles keeps the books. -/
theorem of_host (h : Balanced room s) {device : Simulation} (hmirrors : device.Mirrors)
    (hcapacity : device.capacity = s.device.capacity) (hhost : device.host = s.device.host) :
    Balanced room { s with device := device } := by
  refine ⟨hmirrors, hcapacity.trans h.capacity, ?_, ?_⟩
  · rw [hhost]
    exact h.live
  · rw [hhost]
    exact h.total

/-- **Taking a reading in keeps the books.** Either the dead are removed and reported, or they stay
and are not. Both cases leave the sum of what is counted and of what was removed as it was. -/
theorem finish (h : Balanced room s) (hpending : s.device.pending = some pending) :
    Balanced room ⟨(s.device.finish pending).device, s.uploaded,
      s.removed + (s.device.finish pending).result.removed⟩ := by
  have hhost := h.mirrors.host_finish hpending
  have htotal := h.total
  have hlive : (s.device.host.filter Particle.isAlive).size ≤ s.device.host.size :=
    Array.size_filter_le
  refine ⟨h.mirrors.finish hpending, h.capacity, ?_, ?_⟩
  · rw [hhost, ← h.live]
    split
    next => exact Array.filter_filter.trans (by simp)
    next => rfl
  · rw [hhost, h.mirrors.result_finish hpending]
    dsimp only
    split <;> omega

/-- Polling keeps the books, whether or not there is something to take in. -/
theorem poll (h : Balanced room s) (arrival : Arrival) :
    Balanced room (s.obey (.poll arrival)) := by
  rw [obey_poll]
  rcases s.device.poll_cases arrival with ⟨-, hpoll⟩ | ⟨refusal, -, hpoll⟩ |
    ⟨pending, hpending, -, hpoll⟩
  · rw [hpoll]
    exact h
  · -- a reading that is given up has removed nothing
    rw [hpoll]
    exact h.of_host h.mirrors.giveUp rfl rfl
  · rw [hpoll]
    exact h.finish hpending

/-- A request keeps the books. -/
theorem request (h : Balanced room s) :
    Balanced room { s with device := s.device.request.device } :=
  h.of_host h.mirrors.request s.device.host_request.2 s.device.host_request.1

/-- A reading keeps the books. -/
theorem read (h : Balanced room s) (arrival : Arrival) :
    Balanced room (s.obey (.read arrival)) :=
  obey_read s arrival ▸ h.request.poll arrival

/-- **An order keeps the books.** -/
theorem obey (h : Balanced room s) (order : Order) : Balanced room (s.obey order) := by
  cases order with
  | upload particles => exact h.upload particles
  | step dt camera =>
    have hkept := Simulation.keeps_step s.device dt camera
    exact h.of_host (h.mirrors.step dt camera) hkept.capacity hkept.host
  | request => exact h.request
  | poll arrival => exact h.poll arrival
  | read arrival => exact h.read arrival

/-- **Orders keep the books.** The books are opened when the registry is attached, with no particle
in them, and are read at the end. -/
theorem foldl_obey (h : Balanced room s) (orders : List Order) :
    Balanced room (orders.foldl Session.obey s) := by
  induction orders generalizing s with
  | nil => exact h
  | cons order rest ih => exact ih (h.obey order)

/-- A reading that a poll completes shows the live particles of the upload. -/
theorem particles_poll (h : Balanced room s) {reading : Reading}
    (hreading : (s.device.poll arrival).result = some (.ok reading)) :
    reading.particles = (s.uploaded.extract 0 room).filter Particle.isAlive := by
  rcases s.device.poll_cases arrival with ⟨-, hpoll⟩ | ⟨refusal, -, hpoll⟩ |
    ⟨pending, hpending, -, hpoll⟩
  · rw [hpoll] at hreading
    cases hreading
  · rw [hpoll] at hreading
    cases hreading
  · rw [hpoll] at hreading
    obtain rfl := Except.ok.inj (Option.some.inj hreading)
    rw [h.mirrors.result_finish hpending]
    exact h.live

/-- **A completed reading shows the live particles of the upload.** Steps that were submitted in
between make no difference to it, since none of their commands is aimed at the records. -/
theorem particles_obey (h : Balanced room s) {order : Order} {reading : Reading}
    (hreading : (s.device.obey order).result = some (.ok reading)) :
    reading.particles = (s.uploaded.extract 0 room).filter Particle.isAlive := by
  cases order with
  | upload | step | request => cases hreading
  | poll arrival => exact h.particles_poll hreading
  | read arrival =>
    have hread : (s.device.read arrival).result = .ok reading := Option.some.inj hreading
    rw [Simulation.read] at hread
    cases hpoll : (s.device.request.device.poll arrival).result with
    | some result =>
      rw [hpoll, Option.getD_some] at hread
      exact h.request.particles_poll (hpoll.trans (congrArg some hread))
    | none =>
      -- nothing was on its way, so there were no particles to request a reading of
      rw [hpoll, Option.getD_none, Simulation.unread] at hread
      split at hread
      next => cases hread
      next hpending =>
        obtain rfl := Except.ok.inj hread
        rw [← h.live, Simulation.host_of_pending_request (Option.not_isSome_iff_eq_none.1 hpending)]
        rfl

end Balanced

/-! ### From the beginning -/

variable {registry : Registry Single} {settings : Settings Single} {program : Program}

/-- A simulation begins with balanced books. -/
theorem balanced_attach (hbuild : Program.build settings.workgroupSize registry = .ok program)
    (camera : Camera Single) :
    Balanced (Simulation.room settings)
      { device := ((Simulation.assemble program settings camera).attach registry).device } := by
  obtain ⟨hmirrors, hkept⟩ := Simulation.mirrors_attach hbuild camera registry
  refine ⟨hmirrors, hkept.capacity, ?_, ?_⟩
  · rw [hkept.host, Array.extract_empty]
    rfl
  · rw [hkept.host]
    exact (Nat.zero_min _).symm

/-- The number of particles that the host tells is that of the copy. -/
theorem Balanced.toNat_count (h : Balanced (Simulation.room settings) s) :
    s.device.count.toNat = s.device.host.size := by
  have hroom : s.device.host.size < UInt32.size :=
    Nat.lt_of_le_of_lt (h.mirrors.size_le.trans_eq h.capacity) (UInt32.toNat_lt _)
  exact UInt32.toNat_ofNat_of_lt' hroom

/-- **Every reading shows the live particles of the latest upload, and no particle is lost.** From
the beginning of a simulation whose program was built, on a device that runs no program, for
whatever orders, and however far readings have come when they are asked for: a reading that is
completed next shows the live particles among those of the latest upload that there is room for, in
their order and as they were uploaded, and one that has arrived is completed; the number of particles
together with what was reported as removed since that upload is the number that was taken in. -/
theorem readings_account (hbuild : Program.build settings.workgroupSize registry = .ok program)
    (camera : Camera Single) (orders : List Order) :
    let begun := (Simulation.assemble program settings camera).attach registry
    let s := orders.foldl Session.obey { device := begun.device }
    (∀ order reading, (s.device.obey order).result = some (.ok reading) →
      reading.particles =
        (s.uploaded.extract 0 (Simulation.room settings)).filter Particle.isAlive) ∧
    (∃ reading, (s.device.obey (.read .arrived)).result = some (.ok reading)) ∧
    s.device.count.toNat + s.removed = min s.uploaded.size (Simulation.room settings) ∧
    ∀ takes outcome, Simulation.launch takes registry settings camera = .ok outcome →
      outcome = begun := by
  intro begun s
  have hbalanced : Balanced (Simulation.room settings) s :=
    (balanced_attach hbuild camera).foldl_obey orders
  refine ⟨fun order reading => hbalanced.particles_obey, ?_, ?_, fun takes outcome hlaunch => ?_⟩
  · exact s.device.exists_reading.imp fun reading hread => congrArg some hread
  · rw [hbalanced.toNat_count]
    exact hbalanced.total
  · obtain ⟨program', hbuild', rfl⟩ := Simulation.eq_of_launch hlaunch
    obtain rfl := Except.ok.inj (hbuild.symm.trans hbuild')
    rfl

/-- Three particles are uploaded where there is room for two, the first of them dead. A step is
submitted between the request and the poll, and the reading has to be waited for, so the dead
particle is removed by the reading after that. -/
theorem readings_account_of_three :
    let settings : Settings Single := { Settings.ofPreset .low with maxParticles := 2 }
    let camera : Camera Single := .standard
    let p : Particle Single := Birth.standard.withId 1
    let orders := [.upload #[p.kill, p, p], .request, .step 1 camera, .poll .awaited, .poll .arrived,
      .read .arrived]
    ∃ program, Program.build settings.workgroupSize ({} : Registry Single) = .ok program ∧
      let begun := (Simulation.assemble program settings camera).attach {}
      let s := orders.foldl Session.obey { device := begun.device }
      (∀ order reading, (s.device.obey order).result = some (.ok reading) →
        reading.particles = #[p]) ∧
        s.device.count.toNat + s.removed = 2 := by
  intro settings camera p orders
  refine ⟨_, rfl, ?_⟩
  obtain ⟨hreadings, -, htotal, -⟩ := readings_account
    (rfl : Program.build settings.workgroupSize ({} : Registry Single) = .ok _) camera orders
  exact ⟨fun order reading h => (hreadings order reading h).trans (by decide), htotal⟩

end Session

end Device

end ParticleDynamics
