import ParticleDynamics.Proofs.Device.Mirror

/-!
# Orders

What can be asked of a simulation is an **order**: to upload, to step, to request a reading, to take
one in, or both. An order to take a reading in comes with how far the reading has come by then; this
is up to the device, and everything about orders holds whatever it is. What a poll can do at all is
put together in `Simulation.poll_cases`.

On a device that runs no program the copy of the host stays that of the device whatever is ordered
(`Mirrors.obeyAll`), and what a reading that has arrived shows and leaves behind depends on nothing
but the copy and on whether a step was submitted since the request (`Mirrors.result_read`,
`Mirrors.host_read`).
-/

namespace ParticleDynamics

namespace Device

/-- What can be asked of a simulation. -/
inductive Order where
  /-- replace the particles -/
  | upload (particles : Array (Particle Single))
  /-- submit a step -/
  | step (dt : Single) (camera : Camera Single)
  /-- request a reading -/
  | request
  /-- take in the reading that is on its way, as far as it has come -/
  | poll (arrival : Arrival)
  /-- request a reading if none is on its way, and take it in, as far as it has come -/
  | read (arrival : Arrival)

namespace Simulation

/-- What an order leaves behind, with the reading that it completed or the refusal that it got, if
any. -/
def obey (d : Simulation) : Order → Outcome (Option (Except Refusal Reading))
  | .upload particles => { d.upload particles with result := none }
  | .step dt camera => { d.step dt camera with result := none }
  | .request => { d.request with result := none }
  | .poll arrival => d.poll arrival
  | .read arrival => { d.read arrival with result := some (d.read arrival).result }

/-- The simulation after a list of orders, the earliest first. -/
def obeyAll (d : Simulation) (orders : List Order) : Simulation :=
  orders.foldl (fun d order => (d.obey order).device) d

/-- No step was submitted since the reading on its way was requested, if there is one. -/
def current (d : Simulation) : Bool := d.pending.all fun pending => pending.steps = d.steps

variable {d : Simulation} {pending : Pending} {arrival : Arrival}

/-- Only where there are no particles a request has no effect. -/
theorem host_of_pending_request (h : d.request.device.pending = none) : d.host = #[] := by
  rw [request] at h
  split at h
  next hskip =>
    refine Array.isEmpty_iff.1 ((Bool.or_eq_true _ _ ▸ hskip).resolve_right fun hsome => ?_)
    rw [h] at hsome
    cases hsome
  next => cases h

/-- **All that a poll can do.** It comes to nothing where no reading is on its way or the reading has
to be waited for; it gives up a reading that will not arrive; or it takes the reading in. -/
theorem poll_cases (d : Simulation) (arrival : Arrival) :
    ((d.pending = none ∨ arrival = .awaited) ∧
      d.poll arrival = { result := none, device := d }) ∨
    (∃ refusal, arrival ≠ .arrived ∧
      d.poll arrival =
        { result := some (.error refusal), device := { d with pending := none } }) ∨
    ∃ pending, d.pending = some pending ∧ arrival = .arrived ∧
      d.poll arrival =
        { result := some (.ok (d.finish pending).result)
          device := (d.finish pending).device
          commands := (d.finish pending).commands
          warnings := (d.finish pending).warnings } := by
  cases hpending : d.pending with
  | none => exact .inl ⟨.inl rfl, by rw [poll, hpending]⟩
  | some pending =>
    cases arrival with
    | awaited => exact .inl ⟨.inr rfl, by rw [poll, hpending]⟩
    | arrived => exact .inr (.inr ⟨pending, rfl, rfl, by rw [poll, hpending]⟩)
    | closed => exact .inr (.inl ⟨_, nofun, by rw [poll, hpending]⟩)
    | failed reason => exact .inr (.inl ⟨_, nofun, by rw [poll, hpending]⟩)

/-- What is requested has been read when it has arrived; without particles there was nothing to
request. -/
theorem read_arrived_cases (d : Simulation) :
    (d.host = #[] ∧ (d.read .arrived).result = .ok nothing ∧
      (d.read .arrived).device = d.request.device) ∨
    ∃ pending, d.request.device.pending = some pending ∧
      (d.read .arrived).result = .ok (d.request.device.finish pending).result ∧
      (d.read .arrived).device = (d.request.device.finish pending).device := by
  rcases d.request.device.poll_cases .arrived with ⟨hnone, hpoll⟩ | ⟨-, hno, -⟩ |
    ⟨pending, hpending, -, hpoll⟩
  · have hpending := hnone.resolve_right nofun
    refine .inl ⟨host_of_pending_request hpending, ?_, ?_⟩
    · rw [read, hpoll, Option.getD_none, unread, hpending]
      rfl
    · rw [read, hpoll]
  · exact absurd rfl hno
  · refine .inr ⟨pending, hpending, ?_, ?_⟩
    · rw [read, hpoll, Option.getD_some]
    · rw [read, hpoll]

/-- **A reading that has arrived is read.** Without it, what is said about the readings that a
device gives could be true because it gives none. -/
theorem exists_reading (d : Simulation) : ∃ reading, (d.read .arrived).result = .ok reading := by
  rcases d.read_arrived_cases with ⟨-, hresult, -⟩ | ⟨pending, -, hresult, -⟩
  · exact ⟨_, hresult⟩
  · exact ⟨_, hresult⟩

/-- A request goes on with the particles there are. -/
theorem host_request (d : Simulation) :
    d.request.device.host = d.host ∧ d.request.device.capacity = d.capacity := by
  rw [request]
  split <;> exact ⟨rfl, rfl⟩

/-- What is requested now is not outdated. -/
theorem current_request (d : Simulation) : d.request.device.current = d.current := by
  rw [request]
  split
  next => rfl
  next hask =>
    have hfree : d.pending = none := by
      cases hpending : d.pending with
      | none => rfl
      | some pending => simp [hpending] at hask
    simp [current, hfree, submit]

namespace Mirrors

/-- Giving up a reading keeps the copy. -/
theorem giveUp (h : Mirrors d) : Mirrors { d with pending := none } :=
  ⟨h.size_le, h.room, h.records, h.uncounted, nofun⟩

/-- A poll keeps the copy. -/
theorem poll (h : Mirrors d) (arrival : Arrival) : Mirrors (d.poll arrival).device := by
  rcases d.poll_cases arrival with ⟨-, hpoll⟩ | ⟨refusal, -, hpoll⟩ | ⟨pending, hpending, -, hpoll⟩
  · rw [hpoll]
    exact h
  · rw [hpoll]
    exact h.giveUp
  · rw [hpoll]
    exact h.finish hpending

/-- **An order keeps the copy.** -/
theorem obey (h : Mirrors d) (order : Order) : Mirrors (d.obey order).device := by
  cases order with
  | upload particles => exact h.upload particles
  | step dt camera => exact h.step dt camera
  | request => exact h.request
  | poll arrival => exact h.poll arrival
  | read arrival => exact h.request.poll arrival

/-- **Orders keep the copy.** So whatever is asked of the device, the host knows what the answer
would be. -/
theorem obeyAll (h : Mirrors d) (orders : List Order) : Mirrors (d.obeyAll orders) := by
  induction orders generalizing d with
  | nil => exact h
  | cons order rest ih => exact ih (h.obey order)

/-- **A reading shows the live particles of the copy** and removes the others, unless it was
requested before a step. -/
theorem result_read (h : Mirrors d) :
    (d.read .arrived).result = .ok
      ⟨d.host.filter Particle.isAlive,
        if d.current then d.host.size - (d.host.filter Particle.isAlive).size else 0, 0⟩ := by
  rcases d.read_arrived_cases with ⟨hhost, hresult, -⟩ | ⟨pending, hpending, hresult, -⟩
  · rw [hresult, hhost]
    simp [nothing]
  · rw [hresult, h.request.result_finish hpending, ← d.current_request, ← d.host_request.1]
    simp [current, hpending]

/-- **A reading leaves the live particles of the copy**, unless it was requested before a step. -/
theorem host_read (h : Mirrors d) :
    (d.read .arrived).device.host =
      if d.current then d.host.filter Particle.isAlive else d.host := by
  rcases d.read_arrived_cases with ⟨hhost, -, hdevice⟩ | ⟨pending, hpending, -, hdevice⟩
  · rw [hdevice, d.host_request.1, hhost]
    simp
  · rw [hdevice, h.request.host_finish hpending, ← d.current_request, ← d.host_request.1]
    simp [current, hpending]

end Mirrors

end Simulation

end Device

end ParticleDynamics
