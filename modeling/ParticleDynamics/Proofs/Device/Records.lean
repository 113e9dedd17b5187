import ParticleDynamics.Device.Record
import ParticleDynamics.Proofs.Scratch.Rows

/-!
# What the device keeps of a particle

The record of a particle holds all of it but its identity. Records that lie one after the other in
the order of the particles therefore give back the particles they were taken from
(`Particle.applyRecords_toRecords`): what the host reads from untouched records is what it wrote,
and the identities are its own.
-/

namespace ParticleDynamics

namespace Particle

variable {particles : Array (Particle Single)}

/-- The records of particles are laid out one after the other. -/
theorem toList_toRecords (particles : Array (Particle Single)) :
    (toRecords particles).toList = (particles.toList.map fun p => p.toRecord.toList).flatten := by
  obtain ⟨particles⟩ := particles
  have hstart (words : Array UInt32) :
      (particles.foldl (fun words p => words ++ p.toRecord) words).toList =
        words.toList ++ (particles.map fun p => p.toRecord.toList).flatten := by
    induction particles generalizing words with
    | nil => simp
    | cons p rest ih => rw [List.foldl_cons, ih]; simp
  rw [toRecords, List.foldl_toArray']
  · exact (hstart #[]).trans (List.nil_append _)
  · rfl

/-- Each particle takes one record. -/
theorem size_toRecords (particles : Array (Particle Single)) :
    (toRecords particles).size = particles.size * recordWords := by
  have hlength : ∀ length ∈ (particles.toList.map fun p => p.toRecord.toList).map List.length,
      length = recordWords := by
    simp
  rw [← Array.length_toList, toList_toRecords, List.length_flatten,
    List.sum_eq_card_nsmul _ _ hlength, smul_eq_mul]
  simp

/-- The words of a record stand where the place of the particle says. -/
theorem getElem?_toRecords {index place : Nat} (hplace : place < recordWords) :
    (toRecords particles)[index * recordWords + place]? =
      particles[index]?.bind fun p => p.toRecord[place]? := by
  rw [← Array.getElem?_toList, toList_toRecords, Table.getElem?_flatten (by simp) index hplace]
  cases h : particles[index]? <;> simp [h]

/-- **What is read from untouched records is what was written.** Each field has its own word in a
record, so this comes down to one particle and its words. -/
theorem applyRecords_toRecords (particles : Array (Particle Single)) :
    applyRecords particles (toRecords particles) = particles := by
  apply Array.ext_getElem?
  intro index
  rw [applyRecords, Array.getElem?_mapIdx]
  cases h : particles[index]? with
  | none => rfl
  | some p =>
    have hword : ∀ place < recordWords,
        (toRecords particles)[index * recordWords + place]? = p.toRecord[place]? :=
      fun place hplace => (getElem?_toRecords hplace).trans (by rw [h, Option.bind_some])
    simp (disch := decide) only [Option.map_some, applyRecord, hword]
    rfl

end Particle

end ParticleDynamics
