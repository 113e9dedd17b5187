import ParticleDynamics.Grid.Bounds
import ParticleDynamics.Particle
import ParticleDynamics.Single

/-!
# Records in device memory

The device knows a particle as twelve words: everything but its identity, which stays on the host.
A word is 32 bits; a scalar is stored as its bit pattern. Two smaller records tell the program the
duration of the step with the number of particles, and the shape of the neighbour index. Both are
filled up with zeros to a multiple of four words.

In bytes, each word is stored with its lowest byte first.
-/

namespace ParticleDynamics

/-- The number of words in the record of a particle. -/
def recordWords : Nat := 12

namespace Particle

/-- The record of a particle. -/
def toRecord (p : Particle Single) : Array UInt32 :=
  #[p.position.x.bits, p.position.y.bits,
    p.velocity.x.bits, p.velocity.y.bits,
    p.acceleration.x.bits, p.acceleration.y.bits,
    p.size.bits, p.mass.bits,
    p.color.x.bits, p.color.y.bits, p.color.z.bits, p.color.w.bits]

/-- The particle with everything but its identity taken from the record that starts at a word. Words
that are not there count as zero. -/
def applyRecord (p : Particle Single) (words : Array UInt32) (start : Nat) : Particle Single :=
  let scalar (place : Nat) : Single := ⟨words[start + place]?.getD 0⟩
  { id := p.id
    position := ⟨scalar 0, scalar 1⟩
    velocity := ⟨scalar 2, scalar 3⟩
    acceleration := ⟨scalar 4, scalar 5⟩
    size := scalar 6
    mass := scalar 7
    color := ⟨scalar 8, scalar 9, scalar 10, scalar 11⟩ }

@[simp] theorem size_toRecord (p : Particle Single) : p.toRecord.size = recordWords := rfl

/-- A record does not reach the identity. -/
@[simp] theorem id_applyRecord (p : Particle Single) (words : Array UInt32) (start : Nat) :
    (p.applyRecord words start).id = p.id := rfl

/-- The records of a list of particles, one after the other. -/
def toRecords (particles : Array (Particle Single)) : Array UInt32 :=
  particles.foldl (fun words p => words ++ p.toRecord) #[]

/-- The particles with their records taken from consecutive places. -/
def applyRecords (particles : Array (Particle Single)) (words : Array UInt32) :
    Array (Particle Single) :=
  particles.mapIdx fun index p => p.applyRecord words (index * recordWords)

end Particle

namespace Device

/-- The record of a step: its duration and the number of particles. -/
def stepRecord (dt : Single) (count : UInt32) : Array UInt32 := #[dt.bits, count, 0, 0]

/-- The record of the neighbour index: its bounds, with at least one slot per cell. -/
def gridRecord (bounds : Bounds Single) (maxPerCell : UInt32) : Array UInt32 :=
  #[bounds.origin.x.bits, bounds.origin.y.bits, bounds.cellSize.bits, max maxPerCell 1,
    bounds.cols, bounds.rows, 0, 0]

/-- The bytes of a word, the lowest first. -/
def bytesOfWord (word : UInt32) : List UInt8 :=
  [word.toUInt8, (word >>> 8).toUInt8, (word >>> 16).toUInt8, (word >>> 24).toUInt8]

/-- The bytes of a sequence of words. -/
def bytes (words : Array UInt32) : List UInt8 := words.toList.flatMap bytesOfWord

end Device

end ParticleDynamics
