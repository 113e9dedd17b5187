/-!
# Device memory

The host does not touch the memory of the device; it submits **commands**. A command writes words
into a buffer, copies words between buffers, or runs an entry point of the program. `Memory.perform`
says what a command does to the memory of a device that runs no program: writes and copies take
effect, and running an entry point changes nothing.

Buffers have a fixed size and start out as zeros. Only the words up to the last one written are
kept; the rest are known to be zero. A command that reaches past the end of a buffer has no effect.
Whether it does is stated by `Command.Fits`, which the commands of this library are meant to
satisfy.
-/

namespace ParticleDynamics

namespace Device

/-- A buffer. -/
structure Buffer where
  /-- the number of words -/
  size : Nat
  /-- the words up to the last one written -/
  words : Array UInt32 := #[]

namespace Buffer

/-- The word at a place; zero where nothing was written. -/
def word (b : Buffer) (place : Nat) : UInt32 := b.words[place]?.getD 0

/-- A stretch of words. -/
def read (b : Buffer) (offset count : Nat) : Array UInt32 :=
  let found := b.words.extract offset (offset + count)
  found ++ Array.replicate (count - found.size) 0

/-- The buffer with a stretch of words overwritten, if it fits. -/
def write (b : Buffer) (offset : Nat) (data : Array UInt32) : Buffer :=
  if offset + data.size ≤ b.size then
    { b with words := b.read 0 offset ++ data ++ b.words.extract (offset + data.size) b.words.size }
  else
    b

@[simp] theorem size_write (b : Buffer) (offset : Nat) (data : Array UInt32) :
    (b.write offset data).size = b.size := by
  unfold write
  split <;> rfl

/-- A stretch has the length that was asked for. -/
@[simp] theorem size_read (b : Buffer) (offset count : Nat) :
    (b.read offset count).size = count := by
  simp only [read, Array.size_append, Array.size_extract, Array.size_replicate]
  omega

/-- The places of a stretch are those of the buffer. -/
theorem getElem?_read (b : Buffer) (offset count place : Nat) (h : place < count) :
    (b.read offset count)[place]? = some (b.word (offset + place)) := by
  simp only [read, word, Array.getElem?_append, Array.size_extract, Array.getElem?_extract,
    Array.getElem?_replicate]
  by_cases hplace : place < min (offset + count) b.words.size - offset
  · have hlt : offset + place < b.words.size := by omega
    simp [hplace, Array.getElem?_eq_getElem hlt]
  · have hge : b.words.size ≤ offset + place := by omega
    have hrest : place - (min (offset + count) b.words.size - offset) <
        count - (min (offset + count) b.words.size - offset) := by omega
    simp [hplace, Array.getElem?_eq_none hge, hrest]

end Buffer

/-- The buffers of a simulation. -/
inductive Place where
  /-- the buffer that the program sees under a binding -/
  | bound (binding : Nat)
  /-- the buffer from which the host reads -/
  | staging
deriving DecidableEq, Repr

/-- What the host submits. Offsets and counts are in words. -/
inductive Command where
  /-- overwrite words -/
  | write (target : Place) (offset : Nat) (data : Array UInt32)
  /-- copy words to another buffer -/
  | copy (source : Place) (sourceOffset : Nat) (target : Place) (targetOffset count : Nat)
  /-- run an entry point in a number of workgroups -/
  | dispatch (entry : String) (workgroups : Nat)
deriving DecidableEq, Repr

/-- The buffers by place. -/
structure Memory where
  /-- the buffers -/
  buffers : List (Place × Buffer) := []

namespace Memory

/-- The buffer of a list at a place; one without words where there is none. -/
def bufferIn (place : Place) : List (Place × Buffer) → Buffer
  | [] => { size := 0 }
  | (first, b) :: rest => if first = place then b else bufferIn place rest

/-- The buffer at a place; one without words where there is none. -/
def buffer (m : Memory) (place : Place) : Buffer := bufferIn place m.buffers

/-- The memory with the buffer at a place changed. -/
def modify (m : Memory) (place : Place) (f : Buffer → Buffer) : Memory :=
  ⟨m.buffers.map fun entry => if entry.1 = place then (entry.1, f entry.2) else entry⟩

/-- The memory with a fresh buffer at a place, in the stead of one that is there. -/
def allocate (m : Memory) (place : Place) (size : Nat) : Memory :=
  ⟨(place, { size := size }) :: m.buffers.filter fun entry => entry.1 ≠ place⟩

/-- The memory after a command. -/
def perform (m : Memory) : Command → Memory
  | .write target offset data => m.modify target fun b => b.write offset data
  | .copy source sourceOffset target targetOffset count =>
    let data := (m.buffer source).read sourceOffset count
    if sourceOffset + count ≤ (m.buffer source).size then
      m.modify target fun b => b.write targetOffset data
    else
      m
  | .dispatch _ _ => m

/-- The memory after a sequence of commands. -/
def performAll (m : Memory) (commands : List Command) : Memory := commands.foldl perform m

/-- A fresh buffer has its size and holds zeros. -/
@[simp] theorem buffer_allocate_self (m : Memory) (place : Place) (size : Nat) :
    (m.allocate place size).buffer place = { size := size } := by
  simp [allocate, buffer, bufferIn]

/-- Changing a buffer leaves the buffers elsewhere alone. -/
theorem buffer_modify_ne (m : Memory) {place other : Place} (f : Buffer → Buffer)
    (h : place ≠ other) : (m.modify place f).buffer other = m.buffer other := by
  obtain ⟨buffers⟩ := m
  simp only [modify, buffer]
  induction buffers with
  | nil => rfl
  | cons entry rest ih =>
    by_cases hentry : entry.1 = place
    · simp [bufferIn, hentry, h, ih]
    · simp [bufferIn, hentry, ih]

end Memory

/-- A command reaches only words that are there. -/
def Command.Fits (m : Memory) : Command → Prop
  | .write target offset data => offset + data.size ≤ (m.buffer target).size
  | .copy source sourceOffset target targetOffset count =>
    sourceOffset + count ≤ (m.buffer source).size ∧ targetOffset + count ≤ (m.buffer target).size
  | .dispatch _ _ => True

instance (m : Memory) (command : Command) : Decidable (command.Fits m) := by
  cases command <;> unfold Command.Fits <;> infer_instance

end Device

end ParticleDynamics
