import ParticleDynamics.Device.Simulation
import ParticleDynamics.Proofs.Device.Buffers

/-!
# What the host submits

The commands of a simulation are aimed at few places. Overwriting a buffer of the program changes
that buffer alone, and puts what is written at its front (`Simulation.read_overwrite`). A step
writes to the record of the step, to the shape of the neighbour index and to the records that the
passes keep (`Simulation.target_of_mem_step`); what it does to the particles is up to the program.
-/

namespace ParticleDynamics

namespace Device

namespace Simulation

variable {d d' d'' : Simulation}

/-- A simulation goes on with the particles it has: only the memory, the bounds and the count of
steps may be others. -/
structure Keeps (d d' : Simulation) : Prop where
  /-- the copy of the host is the same -/
  host : d'.host = d.host
  /-- what is on its way is the same -/
  pending : d'.pending = d.pending
  /-- there is as much room -/
  capacity : d'.capacity = d.capacity
  /-- it is the same program -/
  program : d'.program = d.program

namespace Keeps

@[refl] theorem refl (d : Simulation) : Keeps d d := ⟨rfl, rfl, rfl, rfl⟩

theorem trans (h : Keeps d d') (h' : Keeps d' d'') : Keeps d d'' :=
  ⟨h'.host.trans h.host, h'.pending.trans h.pending, h'.capacity.trans h.capacity,
    h'.program.trans h.program⟩

end Keeps

/-! ### Overwriting a buffer of the program -/

section Overwriting

variable {m : Memory} {binding : FixedBinding} {words : Array UInt32} {place : Place}

theorem target_of_mem_overwrite {command : Command} (h : command ∈ overwrite binding words) :
    command.target? = some (.bound binding.number) := by
  rw [overwrite] at h
  split at h
  next => cases h
  next => rw [List.mem_singleton.1 h]; rfl

/-- Overwriting one buffer leaves the others alone. -/
theorem buffer_overwrite_of_ne (h : place ≠ .bound binding.number) :
    (m.performAll (overwrite binding words)).buffer place = m.buffer place :=
  Memory.buffer_performAll_of_ne fun _ hmem hsame =>
    h (Option.some.inj (hsame.symm.trans (target_of_mem_overwrite hmem)))

/-- What a buffer was overwritten with stands at its front. -/
theorem read_overwrite (hfits : words.size ≤ (m.buffer (.bound binding.number)).size) :
    ((m.performAll (overwrite binding words)).buffer (.bound binding.number)).read 0 words.size =
      words := by
  rw [overwrite]
  split
  next hempty =>
    obtain rfl := Array.isEmpty_iff.1 hempty
    exact Array.eq_empty_of_size_eq_zero (Buffer.size_read ..)
  next =>
    rw [Memory.performAll, List.foldl_cons, List.foldl_nil, Memory.buffer_write]
    exact Buffer.read_write_self rfl (by omega)

end Overwriting

/-! ### Where commands are aimed -/

/-- What the commands of a pass or a step may change. -/
def workplaces : List Place :=
  [.bound FixedBinding.previous.number, .bound FixedBinding.step.number,
    .bound FixedBinding.grid.number]

/-- The commands of the passes change nothing but the records that are kept of the last pass. -/
theorem target_of_mem_passCommands {command : Command} (h : command ∈ d.passCommands)
    {place : Place} (htarget : command.target? = some place) :
    place = .bound FixedBinding.previous.number := by
  -- a dispatch has no target of its own, and a phase copies to the records of before
  have hdispatch {entry : String} {threads : Nat} (hmem : command = d.dispatch entry threads) :
      place = .bound FixedBinding.previous.number := by
    subst hmem
    cases htarget
  have hrebuild (hmem : command ∈ d.rebuildCommands) :
      place = .bound FixedBinding.previous.number := by
    rcases List.mem_cons.1 hmem with hmem | hmem
    · exact hdispatch hmem
    · exact hdispatch (List.mem_singleton.1 hmem)
  have hphase {phase : Phase} (hmem : command ∈ d.phaseCommands phase) :
      place = .bound FixedBinding.previous.number := by
    rcases List.mem_cons.1 hmem with rfl | hmem
    · exact (Option.some.inj htarget).symm
    · exact hdispatch (List.mem_singleton.1 hmem)
  simp only [passCommands, List.mem_append, List.mem_singleton, List.mem_flatten,
    List.mem_replicate] at h
  rcases h with (((((h | h) | h) | h) | ⟨_, ⟨-, rfl⟩, h⟩) | h) | h
  · exact hrebuild h
  · exact hphase h
  · exact hphase h
  · exact hdispatch h
  · exact (List.mem_append.1 h).elim hrebuild hphase
  · exact hrebuild h
  · exact hphase h

/-- **A step changes neither the particles nor the counters nor what is staged.** It works in places
of its own, and so what the host knows of the particles stays true while steps go by. -/
theorem target_of_mem_step {dt : Single} {camera : Camera Single} {command : Command}
    (h : command ∈ (d.step dt camera).commands) {place : Place}
    (htarget : command.target? = some place) : place ∈ workplaces := by
  have hoverwrite {binding : FixedBinding} {words : Array UInt32}
      (hmem : command ∈ overwrite binding words) : place = .bound binding.number :=
    Option.some.inj (htarget.symm.trans (target_of_mem_overwrite hmem))
  rw [step] at h
  split at h
  next => cases h
  next =>
    simp only [follow, List.mem_append] at h
    rcases h with (h | h) | h
    · split at h
      next => simp [workplaces, hoverwrite h]
      next => cases h
    · simp [workplaces, hoverwrite h]
    · simp [workplaces, target_of_mem_passCommands h htarget]

/-- A step does to the memory what its commands do. -/
theorem memory_step (d : Simulation) (dt : Single) (camera : Camera Single) :
    (d.step dt camera).device.memory = d.memory.performAll (d.step dt camera).commands := by
  rw [step]
  split <;> rfl

/-- A step goes on with the particles there are. -/
theorem keeps_step (d : Simulation) (dt : Single) (camera : Camera Single) :
    Keeps d (d.step dt camera).device := by
  rw [step]
  split <;> exact ⟨rfl, rfl, rfl, rfl⟩

/-- Telling what modules say goes on with the particles there are. -/
theorem keeps_receive (d : Simulation) (push : Push Single) :
    Keeps d (d.receive push).device := by
  rw [receive]
  split <;> exact ⟨rfl, rfl, rfl, rfl⟩

/-- What one push keeps is kept by all of them. -/
theorem receiveAll_induction {P : Simulation → Prop}
    (hreceive : ∀ d push, P d → P (d.receive push).device) (h : P d) (pushes : List (Push Single)) :
    P (d.receiveAll pushes).device := by
  have hfold (outcome : Outcome Unit) (h : P outcome.device) :
      P (pushes.foldl (fun outcome push =>
        let more := outcome.device.receive push
        { more with
          commands := outcome.commands ++ more.commands
          warnings := outcome.warnings ++ more.warnings }) outcome).device := by
    induction pushes generalizing outcome with
    | nil => exact h
    | cons push rest ih => exact ih _ (hreceive _ push h)
  exact hfold _ h

/-! ### The commands of a reading -/

/-- The commands of a reading fill the buffer from which the host reads, and nothing else. -/
theorem target_of_mem_readingCommands {command : Command} (h : command ∈ d.readingCommands)
    {place : Place} (htarget : command.target? = some place) : place = .staging := by
  simp only [readingCommands, List.mem_append, List.mem_singleton] at h
  rcases h with (rfl | h) | rfl
  · exact (Option.some.inj htarget).symm
  · split at h
    next => cases h
    next =>
      obtain rfl := List.mem_singleton.1 h
      exact (Option.some.inj htarget).symm
  · exact (Option.some.inj htarget).symm

/-- The copy of the scratch rows, if there are any, leaves alone what stands around them. -/
theorem word_copyRows {m : Memory} {records rows index : Nat}
    (h : index < records ∨ records + rows ≤ index) :
    ((m.performAll (if rows = 0 then [] else
      [.copy (.bound FixedBinding.scratch.number) 0 .staging records rows])).buffer .staging).word
        index = (m.buffer .staging).word index := by
  split
  next => rfl
  next => exact Memory.word_copy_of_outside h

/-- **The records come first** in what is staged. -/
theorem read_readingCommands
    (hstaging : d.host.size * recordWords ≤ (d.memory.buffer .staging).size)
    (hrecords : d.host.size * recordWords ≤
      (d.memory.buffer (.bound FixedBinding.particles.number)).size) :
    ((d.memory.performAll d.readingCommands).buffer .staging).read 0 (d.host.size * recordWords) =
      (d.memory.buffer (.bound FixedBinding.particles.number)).read 0
        (d.host.size * recordWords) := by
  rw [readingCommands, Memory.performAll_append, Memory.performAll_append]
  have hfirst : ((d.memory.performAll [.copy (.bound FixedBinding.particles.number) 0 .staging 0
      (d.host.size * recordWords)]).buffer .staging).read 0 (d.host.size * recordWords) =
        (d.memory.buffer (.bound FixedBinding.particles.number)).read 0
          (d.host.size * recordWords) := by
    rw [Memory.performAll, List.foldl_cons, List.foldl_nil, Memory.buffer_copy (by omega)]
    exact Buffer.read_write_self (Buffer.size_read ..) (by rw [Buffer.size_read]; omega)
  refine Eq.trans (Buffer.read_congr fun index hindex => ?_) hfirst
  rw [Nat.zero_add]
  exact (Memory.word_copy_of_outside (.inl (by omega))).trans (word_copyRows (.inl hindex))

/-- The drop counter comes last in what is staged; it is zero if nothing was counted. -/
theorem word_readingCommands
    (hstaging : ∀ index, (d.memory.buffer .staging).word index = 0)
    (hcounts : ∀ index, (d.memory.buffer (.bound FixedBinding.counts.number)).word index = 0) :
    ((d.memory.performAll d.readingCommands).buffer .staging).word
      (d.host.size * recordWords + d.scratchWords d.host.size) = 0 := by
  have hframe : ∀ command ∈ d.readingCommands,
      command.target? ≠ some (.bound FixedBinding.counts.number) := fun command hmem htarget => by
    cases target_of_mem_readingCommands hmem htarget
  rw [readingCommands] at hframe ⊢
  rw [Memory.performAll_append, Memory.performAll_append]
  refine Memory.word_copy_of_zeros (fun index => ?_) ?_
  · rw [← Memory.performAll_append, Memory.buffer_performAll_of_ne fun command hmem =>
      hframe command (List.mem_append_left _ hmem)]
    exact hcounts index
  · exact (word_copyRows (.inr (by omega))).trans
      ((Memory.word_copy_of_outside (.inr (by omega))).trans (hstaging _))

end Simulation

end Device

end ParticleDynamics
