import ParticleDynamics.Device.Memory

/-!
# What commands do to buffers

A buffer is known by its words. Writing a stretch changes the words of the stretch and no other
(`Buffer.word_write`), so that the stretch reads back what was written (`Buffer.read_write_self`)
and everything outside of it what was there (`Buffer.word_write_of_outside`).

A command changes one buffer at most, its **target**, and never the size of a buffer. A sequence of
commands therefore leaves a buffer alone that is the target of none of them
(`Memory.buffer_performAll_of_ne`).
-/

namespace ParticleDynamics

namespace Device

namespace Buffer

variable {b b' : Buffer} {offset offset' count place : Nat} {data : Array UInt32}

/-- Stretches of the same words read the same. -/
theorem read_congr
    (h : ∀ place < count, b.word (offset + place) = b'.word (offset' + place)) :
    b.read offset count = b'.read offset' count := by
  apply Array.ext_getElem?
  intro place
  by_cases hplace : place < count
  · rw [getElem?_read _ _ _ _ hplace, getElem?_read _ _ _ _ hplace, h place hplace]
  · rw [Array.getElem?_eq_none (by rw [size_read]; omega),
      Array.getElem?_eq_none (by rw [size_read]; omega)]

/-- **Writing changes the words of the stretch**, and no other. Reading, copying and allocating are
described by the words of a buffer as well, so that arguments about memory come down to places and
numbers. -/
theorem word_write (hfits : offset + data.size ≤ b.size) (place : Nat) :
    (b.write offset data).word place =
      if offset ≤ place ∧ place < offset + data.size then data[place - offset]?.getD 0
      else b.word place := by
  rw [word, write, if_pos hfits]
  dsimp only
  by_cases hbefore : place < offset
  · rw [if_neg (by omega), Array.append_assoc,
      Array.getElem?_append_left (by rw [size_read]; exact hbefore),
      getElem?_read _ _ _ _ hbefore, Nat.zero_add, Option.getD_some]
  · by_cases hinside : place < offset + data.size
    · rw [if_pos (by omega), Array.getElem?_append_left (by rw [Array.size_append, size_read]; omega),
        Array.getElem?_append_right (by rw [size_read]; omega), size_read]
    · have hplace : offset + data.size + (place - (offset + data.size)) = place := by omega
      rw [if_neg (by omega), word,
        Array.getElem?_append_right (by rw [Array.size_append, size_read]; omega),
        Array.size_append, size_read, Array.getElem?_extract, hplace]
      split
      next => rfl
      next hend => rw [Array.getElem?_eq_none (by omega)]

/-- **What was written reads back.** -/
theorem read_write_self (hcount : data.size = count) (hfits : offset + data.size ≤ b.size) :
    (b.write offset data).read offset count = data := by
  subst hcount
  apply Array.ext_getElem?
  intro place
  by_cases hplace : place < data.size
  · rw [getElem?_read _ _ _ _ hplace, word_write hfits, if_pos (by omega), Nat.add_sub_cancel_left,
      Array.getElem?_eq_getElem hplace, Option.getD_some]
  · rw [Array.getElem?_eq_none (by rw [size_read]; omega), Array.getElem?_eq_none (by omega)]

/-- A word outside of the stretch that is written stays, whether or not the stretch fits. -/
theorem word_write_of_outside (h : place < offset ∨ offset + data.size ≤ place) :
    (b.write offset data).word place = b.word place := by
  by_cases hfits : offset + data.size ≤ b.size
  · rw [word_write hfits, if_neg (by omega)]
  · rw [write, if_neg hfits]

/-- A stretch of zeros writes zeros. -/
theorem word_write_of_zeros (hdata : ∀ word ∈ data, word = 0) (h : b.word place = 0) :
    (b.write offset data).word place = 0 := by
  by_cases hfits : offset + data.size ≤ b.size
  · rw [word_write hfits]
    split
    next =>
      cases hword : data[place - offset]? with
      | none => rfl
      | some word => exact hdata word (Array.mem_of_getElem? hword)
    next => exact h
  · rw [write, if_neg hfits]
    exact h

end Buffer

/-- The buffer that a command changes, if any. -/
def Command.target? : Command → Option Place
  | .write target _ _ => some target
  | .copy _ _ target _ _ => some target
  | .dispatch _ _ => none

namespace Memory

variable {m : Memory} {place : Place} {command : Command} {commands : List Command}

/-- Changing a buffer changes it, unless there is none. -/
theorem buffer_modify_self {f : Buffer → Buffer} (hf : f { size := 0 } = { size := 0 }) :
    (m.modify place f).buffer place = f (m.buffer place) := by
  obtain ⟨buffers⟩ := m
  rw [modify, buffer, buffer]
  induction buffers with
  | nil => exact hf.symm
  | cons entry rest ih =>
    by_cases hentry : entry.1 = place
    · simp [bufferIn, hentry]
    · simp [bufferIn, hentry, ih]

/-- Allocating a buffer leaves the buffers elsewhere alone. -/
theorem buffer_allocate_ne {other : Place} {size : Nat} (h : place ≠ other) :
    (m.allocate place size).buffer other = m.buffer other := by
  obtain ⟨buffers⟩ := m
  rw [allocate, buffer, buffer, bufferIn, if_neg h]
  dsimp only
  induction buffers with
  | nil => rfl
  | cons entry rest ih =>
    rw [List.filter_cons]
    by_cases hentry : entry.1 = place
    · rw [if_neg (by simp [hentry]), ih, bufferIn, if_neg (hentry ▸ h)]
    · rw [if_pos (by simp [hentry]), bufferIn, ih, bufferIn]

/-- What a write does to its target. -/
theorem buffer_write (offset : Nat) (data : Array UInt32) :
    (m.perform (.write place offset data)).buffer place = (m.buffer place).write offset data := by
  refine buffer_modify_self ?_
  rw [Buffer.write]
  split
  next hfits =>
    obtain ⟨rfl, hdata⟩ : offset = 0 ∧ data.size = 0 := Nat.add_eq_zero_iff.1 (Nat.le_zero.1 hfits)
    obtain rfl := Array.size_eq_zero_iff.1 hdata
    rfl
  next => rfl

/-- What a copy does to its target, if the source has what is copied. -/
theorem buffer_copy {source : Place} {sourceOffset offset count : Nat}
    (hsource : sourceOffset + count ≤ (m.buffer source).size) :
    (m.perform (.copy source sourceOffset place offset count)).buffer place =
      (m.buffer place).write offset ((m.buffer source).read sourceOffset count) := by
  rw [perform]
  exact (congrArg (fun m' : Memory => m'.buffer place) (if_pos hsource)).trans
    (buffer_write offset _)

/-- What a copy does not reach stays, whether or not there is anything to copy. -/
theorem word_copy_of_outside {source : Place} {sourceOffset offset count index : Nat}
    (h : index < offset ∨ offset + count ≤ index) :
    ((m.perform (.copy source sourceOffset place offset count)).buffer place).word index =
      (m.buffer place).word index := by
  by_cases hsource : sourceOffset + count ≤ (m.buffer source).size
  · rw [buffer_copy hsource, Buffer.word_write_of_outside (by rwa [Buffer.size_read])]
  · rw [perform, if_neg hsource]

/-- Copying zeros writes zeros. -/
theorem word_copy_of_zeros {source : Place} {sourceOffset offset count index : Nat}
    (hzeros : ∀ index, (m.buffer source).word index = 0)
    (h : (m.buffer place).word index = 0) :
    ((m.perform (.copy source sourceOffset place offset count)).buffer place).word index = 0 := by
  by_cases hsource : sourceOffset + count ≤ (m.buffer source).size
  · rw [buffer_copy hsource]
    refine Buffer.word_write_of_zeros (fun word hword => ?_) h
    obtain ⟨place, hplace, rfl⟩ := Array.mem_iff_getElem.1 hword
    rw [Buffer.size_read] at hplace
    exact Option.some.inj ((Array.getElem?_eq_getElem _).symm.trans
      ((Buffer.getElem?_read _ _ _ _ hplace).trans (congrArg some (hzeros _))))
  · rwa [perform, if_neg hsource]

/-- **A command leaves every buffer alone but its target.** This is the frame of all arguments about
memory: to know a buffer it is enough to know the commands that are aimed at it. -/
theorem buffer_perform_of_ne (h : command.target? ≠ some place) :
    (m.perform command).buffer place = m.buffer place := by
  cases command with
  | write target offset data => exact buffer_modify_ne _ _ fun hsame => h (congrArg some hsame)
  | copy source sourceOffset target targetOffset count =>
    rw [perform]
    split
    next => exact buffer_modify_ne _ _ fun hsame => h (congrArg some hsame)
    next => rfl
  | dispatch entry workgroups => rfl

/-- **Commands leave every buffer alone that none of them is aimed at.** -/
theorem buffer_performAll_of_ne (h : ∀ command ∈ commands, command.target? ≠ some place) :
    (m.performAll commands).buffer place = m.buffer place := by
  induction commands generalizing m with
  | nil => rfl
  | cons command rest ih =>
    obtain ⟨hfirst, hlater⟩ := List.forall_mem_cons.1 h
    exact (ih hlater).trans (buffer_perform_of_ne hfirst)

/-- **A command leaves all sizes.** Nothing grows once it is allocated, so whether a command fits
can be judged by the memory as it was created. -/
theorem size_perform (command : Command) (place : Place) :
    ((m.perform command).buffer place).size = (m.buffer place).size := by
  by_cases h : command.target? = some place
  · cases command with
    | write target offset data =>
      obtain rfl := Option.some.inj h
      rw [buffer_write, Buffer.size_write]
    | copy source sourceOffset target targetOffset count =>
      obtain rfl := Option.some.inj h
      by_cases hsource : sourceOffset + count ≤ (m.buffer source).size
      · rw [buffer_copy hsource, Buffer.size_write]
      · rw [perform, if_neg hsource]
    | dispatch entry workgroups => cases h
  · rw [buffer_perform_of_ne h]

theorem size_performAll (commands : List Command) (place : Place) :
    ((m.performAll commands).buffer place).size = (m.buffer place).size := by
  induction commands generalizing m with
  | nil => rfl
  | cons command rest ih => exact ih.trans (size_perform command place)

/-- The last commands come last. -/
theorem performAll_append (commands more : List Command) :
    m.performAll (commands ++ more) = (m.performAll commands).performAll more :=
  List.foldl_append

end Memory

end Device

end ParticleDynamics
