import ParticleDynamics.Proofs.Device.Orders

/-!
# Reading while a reading is on its way

A reading that waits for its result takes in the one that is on its way, if there is one, instead of
requesting another. What difference that makes is settled by whether a step was submitted since the
request (`Simulation.read_of_outstanding`). If not, it makes none. If so, the host gets to see the
particles as they were when the request was made, and the dead are not removed, because the device
has moved on.

The first two parts hold on every device: what an entry point does is left open but for the buffer
from which the host reads, which no program can reach (`Simulation.MayLeave`). On a device that runs
no program, where the particles do not change, the two readings show the same particles in any case.
-/

namespace ParticleDynamics

namespace Device

/-- Whether a command runs an entry point. -/
def Command.runs : Command → Bool
  | .dispatch _ _ => true
  | .write _ _ _ | .copy _ _ _ _ _ => false

namespace Order

/-- Whether an order leaves a reading that is on its way alone. -/
def waits : Order → Bool
  | .step _ _ | .request => true
  | .upload _ | .poll _ | .read _ => false

/-- Whether an order is a request. -/
def isRequest : Order → Bool
  | .request => true
  | .upload _ | .step _ _ | .poll _ | .read _ => false

end Order

namespace Simulation

/-- What **a device may leave** of an outcome. A device that was given entry points to run may have
changed every buffer that the program sees; one that was not has done what the commands say. -/
structure MayLeave {β : Type} (outcome : Outcome β) (d : Simulation) : Prop where
  /-- the device changes its memory only -/
  host_side : d = { outcome.device with memory := d.memory }
  /-- the program does not see the buffer from which the host reads -/
  staging : d.memory.buffer .staging = outcome.device.memory.buffer .staging
  /-- without an entry point to run, nothing happens on its own -/
  idle : (∀ command ∈ outcome.commands, command.runs = false) →
    d.memory = outcome.device.memory

/-- A **course** that orders may take on a device. -/
inductive Course : Simulation → List Order → Simulation → Prop where
  /-- nothing is ordered -/
  | nil (d : Simulation) : Course d [] d
  /-- an order, and what follows -/
  | cons {d d' d'' : Simulation} {order : Order} {rest : List Order} :
    MayLeave (d.obey order) d' → Course d' rest d'' → Course d (order :: rest) d''

variable {d d' d'' : Simulation} {order : Order} {orders between : List Order} {arrival : Arrival}

/-- A device that runs no program is a device. -/
theorem course_obeyAll (d : Simulation) (orders : List Order) :
    Course d orders (d.obeyAll orders) := by
  induction orders generalizing d with
  | nil => exact .nil d
  | cons order rest ih => exact .cons ⟨rfl, rfl, fun _ => rfl⟩ (ih _)

section MayLeave

variable {β : Type} {outcome : Outcome β}

/-- The particles that the host knows do not depend on the device. -/
theorem MayLeave.keeps (h : MayLeave outcome d') : Keeps outcome.device d' := by
  rw [h.host_side]
  exact ⟨rfl, rfl, rfl, rfl⟩

/-- The count of steps does not depend on the device. -/
theorem MayLeave.steps_eq (h : MayLeave outcome d') : d'.steps = outcome.device.steps := by
  rw [h.host_side]

/-- An order that gives the device nothing to do leaves the simulation as it is. -/
theorem MayLeave.eq_of_idle (h : MayLeave outcome d') (hdevice : outcome.device = d)
    (hcommands : outcome.commands = []) : d' = d := by
  have hmemory := h.idle (by simp [hcommands])
  rw [h.host_side, hmemory, ← hdevice]

end MayLeave

/-! ### While a reading is on its way -/

/-- A request would have no effect: there are no particles, or a reading is on its way. -/
def Held (d : Simulation) : Prop := (d.host.isEmpty || d.pending.isSome) = true

theorem request_of_held (h : d.Held) : d.request = { result := (), device := d } := by
  rw [request]
  exact if_pos h

/-- After a request, requesting again has no effect. -/
theorem held_request (d : Simulation) : d.request.device.Held := by
  rw [request]
  split
  next h => exact h
  next => exact Bool.or_true _

theorem Keeps.held (h : Keeps d d') (hheld : d.Held) : d'.Held := by
  rw [Held, h.host, h.pending]
  exact hheld

/-- What **waiting** leaves alone, whatever the device does. -/
structure Waited (d d' : Simulation) : Prop where
  /-- the particles and what is on its way are the same -/
  keeps : Keeps d d'
  /-- what is staged is the same -/
  staging : d'.memory.buffer .staging = d.memory.buffer .staging
  /-- no step is undone -/
  steps_le : d.steps ≤ d'.steps
  /-- only steps make a difference -/
  eq_of_steps : d'.steps = d.steps → d' = d
  /-- without particles there is nothing to make a difference to -/
  eq_of_empty : d.host.isEmpty → d' = d

namespace Waited

theorem refl (d : Simulation) : Waited d d := ⟨.refl d, rfl, Nat.le_refl _, fun _ => rfl, fun _ => rfl⟩

theorem trans (h : Waited d d') (h' : Waited d' d'') : Waited d d'' := by
  refine ⟨h.keeps.trans h'.keeps, h'.staging.trans h.staging, h.steps_le.trans h'.steps_le,
    fun hsteps => ?_, fun hempty => ?_⟩
  · have hfirst := h.steps_le
    have hsecond := h'.steps_le
    rw [h'.eq_of_steps (by omega), h.eq_of_steps (by omega)]
  · rw [h'.eq_of_empty (h.keeps.host ▸ hempty), h.eq_of_empty hempty]

end Waited

/-- **A step leaves a reading that is on its way alone.** It is counted if there are particles. The
counter is what a reading is compared with when it arrives. -/
theorem waited_step {dt : Single} {camera : Camera Single}
    (h : MayLeave (d.obey (.step dt camera)) d') :
    Waited d d' ∧ (d.host.isEmpty = false → d.steps < d'.steps) := by
  rw [obey] at h
  cases hempty : d.host.isEmpty with
  | true =>
    -- without particles a step is not taken
    have hstep : d.step dt camera = { result := (), device := d } := if_pos hempty
    rw [hstep] at h
    rw [h.eq_of_idle rfl rfl]
    exact ⟨.refl d, nofun⟩
  | false =>
    have hkeeps := keeps_step d dt camera
    have hsteps : (d.step dt camera).device.steps = d.steps + 1 := by
      rw [step, hempty]
      rfl
    -- no command of a step writes where a reading waits
    have hstaging : (d.step dt camera).device.memory.buffer .staging = d.memory.buffer .staging := by
      rw [memory_step]
      refine Memory.buffer_performAll_of_ne fun command hmem htarget => ?_
      exact absurd (target_of_mem_step hmem htarget) (by decide)
    have hlt : d.steps < d'.steps := by
      rw [h.steps_eq, hsteps]
      exact Nat.lt_succ_self _
    refine ⟨⟨hkeeps.trans h.keeps, h.staging.trans hstaging, hlt.le, fun heq => ?_,
      fun htrue => ?_⟩, fun _ => hlt⟩
    · omega
    · cases hempty.symm.trans htrue

/-- **An order that waits leaves a reading that is on its way alone**, and the simulation as it is
unless a step is submitted. -/
theorem waited_of_mayLeave (hheld : d.Held) (hwaits : order.waits = true)
    (h : MayLeave (d.obey order) d') :
    Waited d d' ∧ (order.isRequest = false → d.host.isEmpty = false → d.steps < d'.steps) := by
  cases order with
  | upload | poll | read => cases hwaits
  | step dt camera =>
    obtain ⟨hwaited, hlt⟩ := waited_step h
    exact ⟨hwaited, fun _ => hlt⟩
  | request =>
    rw [obey, request_of_held hheld] at h
    rw [h.eq_of_idle rfl rfl]
    exact ⟨.refl d, nofun⟩

/-- **Waiting leaves a reading that is on its way alone**, and the simulation as it is unless a step
is submitted. This is so however steps and requests follow each other, because a request changes
nothing while another one is open. -/
theorem waited_of_course (h : Course d orders d') (hheld : d.Held)
    (hwaits : ∀ order ∈ orders, order.waits = true) :
    Waited d d' ∧ (d.host.isEmpty = false → d'.steps = d.steps →
      ∀ order ∈ orders, order.isRequest = true) := by
  induction h with
  | nil d => exact ⟨.refl d, fun _ _ _ hmem => by cases hmem⟩
  | cons hfirst hrest ih =>
    obtain ⟨hwait, hlater⟩ := List.forall_mem_cons.1 hwaits
    obtain ⟨hwaited, hlt⟩ := waited_of_mayLeave hheld hwait hfirst
    obtain ⟨hwaited', hrequests⟩ := ih (hwaited.keeps.held hheld) hlater
    refine ⟨hwaited.trans hwaited', fun hhost hsteps => List.forall_mem_cons.2 ⟨?_, ?_⟩⟩
    · have hfirst := hwaited.steps_le
      have hsecond := hwaited'.steps_le
      cases hrequest : Order.isRequest _ with
      | true => rfl
      | false =>
        have := hlt hrequest hhost
        omega
    · have hfirst := hwaited.steps_le
      have hsecond := hwaited'.steps_le
      exact hrequests (hwaited.keeps.host ▸ hhost) (by omega)

/-! ### Reading afterwards -/

/-- A reading is a request and a poll, so asking first makes no difference to it. -/
theorem read_request (d : Simulation) (arrival : Arrival) :
    (d.request.device.read arrival).result = (d.read arrival).result ∧
      (d.request.device.read arrival).device = (d.read arrival).device := by
  have hrequest := request_of_held d.held_request
  rw [read, hrequest]
  exact ⟨rfl, rfl⟩

/-- A reading polls for what is on its way. -/
theorem read_of_pending {pending : Pending} (h : d.pending = some pending) (arrival : Arrival) :
    (d.read arrival).result =
        (d.poll arrival).result.getD (.error (.device "readback did not complete")) ∧
      (d.read arrival).device = (d.poll arrival).device := by
  have hheld : d.Held := by rw [Held, h]; exact Bool.or_true _
  rw [read, request_of_held hheld, unread, h]
  exact ⟨rfl, rfl⟩

/-- **What was requested before a step is shown as it was then**, and nothing is removed. A reading
that does not arrive is not shown any more than before the step. -/
theorem read_of_waited {pending : Pending} (hpending : d.pending = some pending) (h : Waited d d')
    (hsteps : pending.steps ≠ d'.steps) (arrival : Arrival) :
    (d'.read arrival).result = (d.read arrival).result.map (fun reading => { reading with removed := 0 }) ∧
      (d'.read arrival).device.host = d.host := by
  have hpending' := h.keeps.pending.trans hpending
  rw [(read_of_pending hpending arrival).1, (read_of_pending hpending' arrival).1,
    (read_of_pending hpending' arrival).2]
  simp only [poll, hpending, hpending']
  cases arrival with
  | awaited => exact ⟨rfl, h.keeps.host⟩
  | closed => exact ⟨rfl, h.keeps.host⟩
  | failed reason => exact ⟨rfl, h.keeps.host⟩
  | arrived =>
    refine ⟨?_, ?_⟩
    · simp only [Option.getD_some, Except.map, finish, if_neg hsteps, h.keeps.host,
        h.staging, scratchWords, h.keeps.program]
    · rw [finish]
      exact (if_neg hsteps).trans h.keeps.host

/-- The reading that was requested last is as old as the simulation. -/
theorem exists_pending_request (hfree : d.pending = none) (hhost : d.host.isEmpty = false) :
    ∃ pending, d.request.device.pending = some pending ∧ pending.steps = d.steps := by
  rw [request, hhost, hfree]
  exact ⟨_, rfl, rfl⟩

/-- A request is no step. -/
theorem steps_request (d : Simulation) : d.request.device.steps = d.steps := by
  rw [request]
  split <;> rfl

/-! ### With and without the request -/

/-- The same orders without the requests. -/
def unasked (orders : List Order) : List Order := orders.filter fun order => !order.isRequest

/-- **If no step was submitted since the request, it makes no difference.** What was staged at the
request is what would be staged now. -/
theorem read_of_current (hwaits : ∀ order ∈ between, order.waits = true)
    (hasked : Course d.request.device between d') (hunasked : Course d (unasked between) d'')
    (hsteps : d'.steps = d.steps) (arrival : Arrival) :
    (d'.read arrival).result = (d''.read arrival).result ∧
      (d'.read arrival).device = (d''.read arrival).device := by
  obtain ⟨hwaited, hrequests⟩ := waited_of_course hasked d.held_request hwaits
  rw [steps_request] at hrequests
  have hd' : d' = d.request.device := hwaited.eq_of_steps (hsteps.trans d.steps_request.symm)
  have hd'' : d'' = d := by
    cases hhost : d.host.isEmpty with
    | true =>
      have hheld : d.Held := by rw [Held, hhost]; rfl
      have hwaits' : ∀ order ∈ unasked between, order.waits = true :=
        fun order hmem => hwaits order (List.mem_filter.1 hmem).1
      exact (waited_of_course hunasked hheld hwaits').1.eq_of_empty hhost
    | false =>
      have hnone : unasked between = [] := by
        refine List.filter_eq_nil_iff.2 fun order hmem => ?_
        simp [hrequests (d.host_request.1 ▸ hhost) hsteps order hmem]
      rw [hnone] at hunasked
      cases hunasked
      rfl
  rw [hd', hd'']
  exact d.read_request arrival

/-- **If a step was submitted since the request, the reading is the one that was requested**, and
nothing is removed. The dead stay in the copy, to be removed by the next reading. -/
theorem read_of_outdated (hfree : d.pending = none)
    (hwaits : ∀ order ∈ between, order.waits = true)
    (hasked : Course d.request.device between d') (hsteps : d'.steps ≠ d.steps)
    (arrival : Arrival) :
    (d'.read arrival).result = (d.read arrival).result.map (fun reading => { reading with removed := 0 }) ∧
      (d'.read arrival).device.host = d.host := by
  have hwaited := (waited_of_course hasked d.held_request hwaits).1
  rw [← (d.read_request arrival).1, ← d.host_request.1]
  cases hhost : d.host.isEmpty with
  | true =>
    have hd' := hwaited.eq_of_empty (d.host_request.1 ▸ hhost)
    exact absurd ((congrArg Simulation.steps hd').trans d.steps_request) hsteps
  | false =>
    obtain ⟨pending, hpending, hold⟩ := exists_pending_request hfree hhost
    exact read_of_waited hpending hwaited (fun heq => hsteps (heq.symm.trans hold)) arrival

/-- Without requests, waiting goes on with the particles there are. -/
theorem keeps_obeyAll_unasked (hwaits : ∀ order ∈ between, order.waits = true) :
    Keeps d (d.obeyAll (unasked between)) := by
  induction between generalizing d with
  | nil => exact .refl d
  | cons order rest ih =>
    obtain ⟨hwait, hlater⟩ := List.forall_mem_cons.1 hwaits
    cases order with
    | upload | poll | read => cases hwait
    | request => exact ih hlater
    | step dt camera => exact (keeps_step d dt camera).trans (ih hlater)

/-- **On a device that runs no program the request makes no difference to what is shown**, and none
to what is removed exactly if it is recent or there is nothing to remove. Both readings have
arrived. -/
theorem Mirrors.read_of_waits (h : Mirrors d) (hfree : d.pending = none)
    (hwaits : ∀ order ∈ between, order.waits = true) :
    let asked := d.request.device.obeyAll between
    let other := d.obeyAll (unasked between)
    ∃ reading reading', (asked.read .arrived).result = .ok reading ∧
      (other.read .arrived).result = .ok reading' ∧
      reading.particles = reading'.particles ∧ reading.dropped = reading'.dropped ∧
      (reading.removed = reading'.removed ∧
          (asked.read .arrived).device.count = (other.read .arrived).device.count ↔
        asked.steps = d.steps ∨ ∀ p ∈ d.host, p.isAlive = true) := by
  intro asked other
  have hwaited := (waited_of_course (d.request.device.course_obeyAll between) d.held_request
    hwaits).1
  have hother : Keeps d other := keeps_obeyAll_unasked hwaits
  have hcurrent : other.current = true := by rw [current, hother.pending, hfree]; rfl
  have hasked : asked.host = d.host := hwaited.keeps.host.trans d.host_request.1
  have hmirrors : asked.Mirrors := h.request.obeyAll between
  have hmirrors' : other.Mirrors := h.obeyAll (unasked between)
  refine ⟨_, _, hmirrors.result_read, hmirrors'.result_read, ?_⟩
  rw [count, count, hmirrors.host_read, hmirrors'.host_read, hasked, hother.host, hcurrent]
  refine ⟨rfl, rfl, ?_⟩
  dsimp only
  by_cases hall : ∀ p ∈ d.host, p.isAlive = true
  · -- nothing is dead, so nothing is removed with or without the request
    rw [Array.filter_eq_self.2 hall]
    exact iff_of_true ⟨by simp, by simp⟩ (.inr hall)
  · -- something is dead, so there is a particle and the request was heard
    obtain ⟨p, hp, hdead⟩ := Classical.not_forall.1 hall |>.imp fun _ => Classical.not_imp.1
    have hhost : d.host.isEmpty = false := by
      rw [Array.isEmpty_eq_false_iff_exists_mem]
      exact ⟨p, hp⟩
    have hlive : (d.host.filter Particle.isAlive).size < d.host.size :=
      Array.size_filter_lt_size_iff_exists.2 ⟨p, hp, hdead⟩
    obtain ⟨pending, hpending, hold⟩ := exists_pending_request hfree hhost
    have hrecent : asked.current = true ↔ asked.steps = d.steps := by
      rw [current, hwaited.keeps.pending, hpending, ← hold]
      exact (decide_eq_true_iff).trans eq_comm
    rw [← hrecent]
    cases hcurrent' : asked.current with
    | true => simp
    | false =>
      refine iff_of_false (fun hsame => ?_) (by simp [hall])
      have hzero : 0 = d.host.size - (d.host.filter Particle.isAlive).size := hsame.1
      omega

/-- **What a request that is still outstanding does to a reading.** A reading was requested where
none was on its way, and since then steps were submitted or requests made, nothing else.

If no step was submitted, then on every device the reading shows and removes the same as without the
request, and as many particles are left. If a step was submitted, then on every device it shows what
a reading would have shown instead of the request, removes nothing, and leaves all particles. Both
are so however far the readings have come, and a reading that has arrived is always read.

On a device that runs no program, from the beginning of a simulation on, a reading that has arrived
shows the same as without the request in any case; and it removes and leaves as much exactly if no
step was submitted since, or no particle of the host's copy is dead. -/
theorem read_of_outstanding (hfree : d.pending = none)
    (hwaits : ∀ order ∈ between, order.waits = true) :
    (∀ d' d'', Course d.request.device between d' → Course d (unasked between) d'' →
      d'.steps = d.steps → ∀ arrival,
      (d'.read arrival).result = (d''.read arrival).result ∧
        (d'.read arrival).device.count = (d''.read arrival).device.count) ∧
    (∀ d', Course d.request.device between d' → d'.steps ≠ d.steps → ∀ arrival,
      (d'.read arrival).result =
          (d.read arrival).result.map (fun reading => { reading with removed := 0 }) ∧
        (d'.read arrival).device.count = d.count) ∧
    (∀ d' : Simulation, ∃ reading, (d'.read .arrived).result = .ok reading) ∧
    ∀ registry settings camera program before,
      Program.build settings.workgroupSize registry = .ok program →
      d = ((assemble program settings camera).attach registry).device.obeyAll before →
      let asked := d.request.device.obeyAll between
      let other := d.obeyAll (unasked between)
      ∃ reading reading', (asked.read .arrived).result = .ok reading ∧
        (other.read .arrived).result = .ok reading' ∧
        reading.particles = reading'.particles ∧ reading.dropped = reading'.dropped ∧
        (reading.removed = reading'.removed ∧
            (asked.read .arrived).device.count = (other.read .arrived).device.count ↔
          asked.steps = d.steps ∨ ∀ p ∈ d.host, p.isAlive = true) := by
  refine ⟨fun d' d'' hasked hunasked hsteps arrival => ?_, fun d' hasked hsteps arrival => ?_,
    exists_reading, ?_⟩
  · obtain ⟨hresult, hdevice⟩ := read_of_current hwaits hasked hunasked hsteps arrival
    exact ⟨hresult, congrArg count hdevice⟩
  · obtain ⟨hresult, hhost⟩ := read_of_outdated hfree hwaits hasked hsteps arrival
    exact ⟨hresult, congrArg (·.size.toUInt32) hhost⟩
  · intro registry settings camera program before hbuild hd
    have hmirrors : d.Mirrors := hd ▸ (mirrors_attach hbuild camera registry).1.obeyAll before
    exact hmirrors.read_of_waits hfree hwaits

/-- A dead and a live particle, and a step after the request. -/
theorem read_of_outstanding_of_two :
    let settings : Settings Single := { Settings.ofPreset .low with maxParticles := 2 }
    let camera : Camera Single := .standard
    let p : Particle Single := Birth.standard.withId 1
    let step : Order := .step 1 camera
    ∃ program, Program.build settings.workgroupSize ({} : Registry Single) = .ok program ∧
      let d := ((assemble program settings camera).attach {}).device.obeyAll
        [.upload #[p.kill, p]]
      let asked := d.request.device.obeyAll [step]
      ∃ reading reading', (asked.read .arrived).result = .ok reading ∧
        ((d.obeyAll [step]).read .arrived).result = .ok reading' ∧
        reading.removed = 0 ∧ (asked.read .arrived).device.count = 2 ∧
        reading.particles = reading'.particles := by
  intro settings camera p step
  refine ⟨_, rfl, ?_⟩
  intro d asked
  have hwaits : ∀ order ∈ [step], order.waits = true := by simp [step, Order.waits]
  obtain ⟨-, houtdated, hread, hquiet⟩ := read_of_outstanding (d := d) rfl hwaits
  obtain ⟨hresult, hcount⟩ := houtdated asked (course_obeyAll _ _) (Nat.succ_ne_self 0) .arrived
  obtain ⟨reading, reading', hasked, hother, hsame, -, -⟩ := hquiet {} settings camera _ _ rfl rfl
  obtain ⟨before, hbefore⟩ := hread d
  -- what is read is what would have been read before the step, but for the removal
  have hreading : { before with removed := 0 } = reading := by
    rw [hbefore] at hresult
    exact Except.ok.inj (hresult.symm.trans hasked)
  exact ⟨reading, reading', hasked, hother, hreading ▸ rfl, hcount, hsame⟩

/-- Without the request the dead particle is removed, with the request it is not. -/
theorem removal_put_off :
    let settings : Settings Single := { Settings.ofPreset .low with maxParticles := 2 }
    let camera : Camera Single := .standard
    let p : Particle Single := Birth.standard.withId 1
    let step : Order := .step 1 camera
    ∃ program, Program.build settings.workgroupSize ({} : Registry Single) = .ok program ∧
      let begun := ((assemble program settings camera).attach {}).device
      let asked := begun.obeyAll [.upload #[p.kill, p], .request, step]
      let other := begun.obeyAll [.upload #[p.kill, p], step]
      ∃ reading reading', (asked.read .arrived).result = .ok reading ∧
        (other.read .arrived).result = .ok reading' ∧
        reading.removed = 0 ∧ reading'.removed = 1 ∧
        (asked.read .arrived).device.count = 2 ∧ (other.read .arrived).device.count = 1 := by
  intro settings camera p step
  refine ⟨_, rfl, ?_⟩
  intro begun asked other
  have hbegun : begun.Mirrors := (@mirrors_attach {} settings _ rfl camera {}).1
  have hasked : asked.Mirrors := hbegun.obeyAll _
  have hother : other.Mirrors := hbegun.obeyAll _
  refine ⟨_, _, hasked.result_read, hother.result_read, ?_⟩
  rw [count, count, hasked.host_read, hother.host_read]
  have hasked' : asked.host = #[p.kill, p] := rfl
  have hother' : other.host = #[p.kill, p] := rfl
  have holder : asked.current = false := rfl
  have hcurrent : other.current = true := rfl
  have hlive : #[p.kill, p].filter Particle.isAlive = #[p] := by decide
  rw [hasked', hother', holder, hcurrent, hlive]
  exact ⟨rfl, rfl, rfl, rfl⟩

end Simulation

end Device

end ParticleDynamics
