import ParticleDynamics.Proofs.Particle.Places

/-!
# Finding a particle

A particle is found by bisection, which halves a window of the array. In a store in order the window
never loses a place: as long as the identity stands in it before it is halved, it stands in it
afterwards (`Store.bisect_eq`). So bisection comes to what looking through the whole array comes to
(`Store.Orderly.indexOf_eq_scan`).
-/

namespace ParticleDynamics

namespace Store

variable {α : Type} {s : Store α} {id : ParticleId}

/-- Where the first particle with an identity stands, looking at one particle after the other. -/
def scan (s : Store α) (id : ParticleId) : Option Nat :=
  s.particles.findIdx? fun p => p.id == id

/-- In a store in order, identities compare as their places do. -/
theorem Orderly.id_lt_iff (hs : s.Orderly) {place other : Nat} {p q : Particle α}
    (hp : s.particles[place]? = some p) (hq : s.particles[other]? = some q) :
    p.id < q.id ↔ place < other := by
  obtain ⟨hplace, rfl⟩ := Array.getElem?_eq_some_iff.1 hp
  obtain ⟨hother, rfl⟩ := Array.getElem?_eq_some_iff.1 hq
  have hincreasing := List.pairwise_iff_getElem.1 (List.pairwise_map.1 hs.increasing)
  rcases Nat.lt_trichotomy place other with hlt | rfl | hgt
  · exact iff_of_true (hincreasing place other hplace hother hlt) hlt
  · exact iff_of_false (UInt32.lt_irrefl _) (Nat.lt_irrefl _)
  · have hlt : s.particles[other].id < s.particles[place].id :=
      hincreasing other place hother hplace hgt
    exact iff_of_false (UInt32.lt_asymm hlt) (Nat.lt_asymm hgt)

/-- Halving a window of more than one place. -/
theorem bisect_of_long {particles : Array (Particle α)} {base size : Nat} {q : Particle α}
    (hlong : 1 < size) (hq : particles[base + size / 2]? = some q) :
    bisect particles id base size =
      bisect particles id (if id < q.id then base else base + size / 2) (size - size / 2) := by
  rw [bisect, if_pos hlong]
  simp only [hq, decide_eq_true_eq]

/-- **Halving the window loses no place**: bisection ends at the particle with the identity, if it
stands in the window. The window is never empty, and each round leaves the half in which the
identity would have to stand. -/
theorem bisect_eq (hs : s.Orderly) {place : Nat} {p : Particle α}
    (hp : s.particles[place]? = some p) {base size : Nat} (hbase : base ≤ place)
    (hsize : place < base + size) (hwindow : base + size ≤ s.particles.size) :
    bisect s.particles p.id base size = place := by
  induction size using Nat.strongRecOn generalizing base with
  | ind size ih =>
    by_cases hlong : 1 < size
    · have hmid : base + size / 2 < s.particles.size := by omega
      have hq : s.particles[base + size / 2]? = some s.particles[base + size / 2] :=
        Array.getElem?_eq_getElem hmid
      have horder := hs.id_lt_iff hp hq
      rw [bisect_of_long hlong hq]
      by_cases habove : p.id < s.particles[base + size / 2].id
      · have hplace := horder.1 habove
        rw [if_pos habove]
        exact ih _ (by omega) hbase (by omega) (by omega)
      · have hplace : base + size / 2 ≤ place := Nat.not_lt.1 fun hlt => habove (horder.2 hlt)
        rw [if_neg habove]
        exact ih _ (by omega) hplace (by omega) (by omega)
    · rw [bisect, if_neg hlong]
      omega

/-- A particle of a store in order is found where it stands. -/
theorem Orderly.indexOf_eq (hs : s.Orderly) {place : Nat} {p : Particle α}
    (hp : s.particles[place]? = some p) : s.indexOf p.id = some place := by
  have hplace : place < s.particles.size := (Array.getElem?_eq_some_iff.1 hp).1
  have hbisect : bisect s.particles p.id 0 s.particles.size = place :=
    bisect_eq hs hp (Nat.zero_le place) (by omega) (by omega)
  rw [indexOf, hbisect, hp]
  exact if_pos rfl

/-- An identity that no particle carries is not found. -/
theorem indexOf_of_notMem (hid : id ∉ s.ids) : s.indexOf id = none := by
  cases hindex : s.indexOf id with
  | none => rfl
  | some place =>
    obtain ⟨p, hp, rfl⟩ := id_of_indexOf hindex
    exact absurd (mem_ids_iff.2 ⟨p, Array.mem_of_getElem? hp, rfl⟩) hid

/-- **Bisection finds what looking through all particles finds**, in a store in order. -/
theorem Orderly.indexOf_eq_scan (hs : s.Orderly) (id : ParticleId) : s.indexOf id = s.scan id := by
  cases hscan : s.scan id with
  | none =>
    refine indexOf_of_notMem fun hid => ?_
    obtain ⟨p, hp, rfl⟩ := mem_ids_iff.1 hid
    exact absurd (Array.findIdx?_eq_none_iff.1 hscan p hp) (by simp)
  | some place =>
    obtain ⟨hplace, hid, -⟩ := Array.findIdx?_eq_some_iff_getElem.1 hscan
    obtain rfl : s.particles[place].id = id := by simpa using hid
    exact hs.indexOf_eq (Array.getElem?_eq_getElem hplace)

/-- An identity that no particle carries can be neither read nor killed. -/
theorem get?_of_notMem (hid : id ∉ s.ids) : s.get? id = none := by
  rw [get?, indexOf_of_notMem hid, Option.bind_none]

theorem kill_of_notMem [Scalar α] (hid : id ∉ s.ids) : s.kill id = (false, s) := by
  rw [kill, indexOf_of_notMem hid]

end Store

end ParticleDynamics
