import ParticleDynamics.Force.Joints
import ParticleDynamics.Proofs.Module.Records
import ParticleDynamics.Proofs.Scratch.Rows

/-!
# Jointed particles

The constrain phase enforces a joint where all three arrays have an element
(`Joints.mem_joints_iff`); where no joint is enforced it moves a particle nowhere
(`Joints.foldl_addPull_of_not_enforced`). The correct phase asks only for the ends, which two arrays
give (`Joints.any_ends_iff`), and turns what any constraint moved a particle into velocity as soon
as these name it. So the velocity follows joints that are enforced, and no others, exactly if
whatever the ends name has an enforced joint as well (`Joints.follows_enforced_iff`); that is so if
no rest length is missing (`Joints.enforced_of_size_le`).
-/

namespace ParticleDynamics.Joints

variable {α : Type} [Scalar α]

/-! ## The ends of a joint -/

/-- The particle is one of the two distinct ends of a joint that is not switched off. -/
structure IsEnd (pair : α × α) (index : UInt32) : Prop where
  /-- the first end is not negative -/
  fst_on : ¬ pair.1 < 0
  /-- the second end is not negative -/
  snd_on : ¬ pair.2 < 0
  /-- the ends are two particles -/
  distinct : (Scalar.toWord pair.1 : UInt32) ≠ Scalar.toWord pair.2
  /-- the particle is one of them -/
  mem : Scalar.toWord pair.1 = index ∨ Scalar.toWord pair.2 = index

/-- An end of a joint is what has a partner in it. -/
theorem isSome_partner_iff {pair : α × α} {index : UInt32} :
    (partner pair index).isSome = true ↔ IsEnd pair index := by
  constructor
  · -- a partner is found only past the test for what is left out, at one end or at the other
    intro h
    simp only [partner] at h
    split at h
    next => cases h
    next hon =>
      rw [not_or] at hon
      split at h
      next hfirst => exact ⟨hon.1, hon.2, fun heq => hfirst.2 (heq ▸ hfirst.1), .inl hfirst.1⟩
      next =>
        split at h
        next hsecond =>
          exact ⟨hon.1, hon.2, fun heq => hsecond.2 (heq.trans hsecond.1), .inr hsecond.1⟩
        next => cases h
  · rintro ⟨hfst, hsnd, hdistinct, hmem⟩
    simp only [partner]
    rw [if_neg (not_or.2 ⟨hfst, hsnd⟩)]
    rcases hmem with rfl | rfl
    · rw [if_pos ⟨rfl, hdistinct.symm⟩]
      rfl
    · rw [if_neg fun h => h.2 rfl, if_pos ⟨rfl, hdistinct⟩]
      rfl

/-! ## Which joints there are -/

/-- Some joint has the particle as an end, as far as the two arrays of ends tell. -/
def Named (a b : Array α) (index : UInt32) : Prop :=
  ∃ (k : Nat) (first second : α), a[k]? = some first ∧ b[k]? = some second ∧
    IsEnd (first, second) index

/-- Some joint that has a rest length has the particle as an end. -/
def Enforced (a b rest : Array α) (index : UInt32) : Prop :=
  ∃ (k : Nat) (first second length : α), a[k]? = some first ∧ b[k]? = some second ∧
    rest[k]? = some length ∧ IsEnd (first, second) index

theorem Enforced.named {a b rest : Array α} {index : UInt32} (h : Enforced a b rest index) :
    Named a b index := by
  obtain ⟨k, first, second, length, hfirst, hsecond, -, hend⟩ := h
  exact ⟨k, first, second, hfirst, hsecond, hend⟩

/-- Where no rest length is missing, every joint is enforced. -/
theorem enforced_of_size_le {a b rest : Array α} (hsize : min a.size b.size ≤ rest.size)
    {index : UInt32} (h : Named a b index) : Enforced a b rest index := by
  obtain ⟨k, first, second, hfirst, hsecond, hend⟩ := h
  have hlt : k < a.size := (Array.getElem?_eq_some_iff.1 hfirst).1
  have hlt' : k < b.size := (Array.getElem?_eq_some_iff.1 hsecond).1
  have hrest : k < rest.size := by omega
  exact ⟨k, first, second, rest[k], hfirst, hsecond, Array.getElem?_eq_getElem hrest, hend⟩

/-- **The correct phase looks for a joint among the ends.** It pairs the two arrays of ends and asks
for no rest lengths. -/
theorem any_ends_iff {params : ParamBag α} {index : UInt32} :
    ((ends params).any fun pair => (partner pair index).isSome) = true ↔
      Named (params.getArray aIndexes) (params.getArray bIndexes) index := by
  simp only [List.any_eq_true, isSome_partner_iff, ends, List.mem_iff_getElem?,
    List.getElem?_zip_eq_some, Array.getElem?_toList]
  constructor
  · rintro ⟨⟨first, second⟩, ⟨k, hfirst, hsecond⟩, hend⟩
    exact ⟨k, first, second, hfirst, hsecond, hend⟩
  · rintro ⟨k, first, second, hfirst, hsecond, hend⟩
    exact ⟨(first, second), ⟨k, hfirst, hsecond⟩, hend⟩

/-- **The constrain phase looks for joints that have a rest length.** It pairs all three arrays, and
the pairing stops at the end of the shortest one. -/
theorem mem_joints_iff {params : ParamBag α} {index : UInt32} :
    (∃ joint ∈ joints params, (partner joint.1 index).isSome = true) ↔
      Enforced (params.getArray aIndexes) (params.getArray bIndexes)
        (params.getArray restLengths) index := by
  simp only [isSome_partner_iff, joints, ends, List.mem_iff_getElem?, List.getElem?_zip_eq_some,
    Array.getElem?_toList]
  constructor
  · rintro ⟨⟨⟨first, second⟩, length⟩, ⟨k, ⟨hfirst, hsecond⟩, hlength⟩, hend⟩
    exact ⟨k, first, second, length, hfirst, hsecond, hlength, hend⟩
  · rintro ⟨k, first, second, length, hfirst, hsecond, hlength, hend⟩
    exact ⟨((first, second), length), ⟨k, ⟨hfirst, hsecond⟩, hlength⟩, hend⟩

/-! ## The two phases -/

open Procedure

variable {v : View α} {site : Site} {reach : Reach α}

/-- **Where no joint is enforced the constrain phase moves the particle nowhere.** -/
theorem foldl_addPull_of_not_enforced
    (h : ¬ Enforced (v.params.getArray aIndexes) (v.params.getArray bIndexes)
      (v.params.getArray restLengths) v.index) (me : Particle α) (shift : Vec2 α) :
    (joints v.params).foldl (addPull v me) shift = shift := by
  rw [← mem_joints_iff] at h
  have hskip : ∀ joint ∈ joints v.params, ∀ shift, addPull v me shift joint = shift := by
    intro joint hjoint shift
    have hnone : partner joint.1 v.index = none :=
      Option.not_isSome_iff_eq_none.1 fun hsome => h ⟨joint, hjoint, hsome⟩
    rw [addPull, hnone]
  refine List.foldlRecOn (motive := (· = shift)) (joints v.params) (addPull v me) rfl ?_
  rintro _ rfl joint hjoint
  exact hskip joint hjoint _

/-- **Where no ends name the particle, the correct phase does nothing.** -/
theorem run_follow_of_not_named
    (h : ¬ Named (v.params.getArray aIndexes) (v.params.getArray bIndexes) v.index) :
    (follow v).run site reach = (.ok (), reach) := by
  rw [← any_ends_iff] at h
  change (if reach.particle.isPinned ∨ v.dt ≤ 0 then _ else _ : Procedure α Unit).run site
    reach = _
  rw [if_neg h, ite_self]
  rfl

/-- **Where the ends name a free particle, the correct phase gives it a velocity** for what it was
moved since the integration. -/
theorem run_follow_of_named
    (h : Named (v.params.getArray aIndexes) (v.params.getArray bIndexes) v.index)
    (hfree : ¬ (reach.particle.isPinned = true ∨ v.dt ≤ 0)) {post : Vec2 α}
    (hpost : (postPosition v).run site reach = (.ok post, reach)) :
    (follow v).run site reach =
      (.ok (), { reach with
        particle := { reach.particle with
          velocity := reach.particle.velocity +
            (reach.particle.position - post) / v.dt * v.params.get momentum } }) := by
  rw [← any_ends_iff] at h
  change (if reach.particle.isPinned ∨ v.dt ≤ 0 then _ else _ : Procedure α Unit).run site
    reach = _
  rw [if_neg hfree, if_pos h, bind_eq, run_bind, hpost]
  rfl

omit [Scalar α] in
/-- A position that is kept in two slots is read there. -/
theorem run_readPair {row : UInt32} {x y : Reserved} {first second : α}
    (hx : reach.table.get? row.toNat x.slot = some first)
    (hy : reach.table.get? row.toNat y.slot = some second) :
    (readPair row x y).run site reach = (.ok ⟨first, second⟩, reach) := by
  have hreadX : readCell reach.table row x.slot = .ok first := by rw [readCell, hx]
  have hreadY : readCell reach.table row y.slot = .ok second := by rw [readCell, hy]
  simp only [readPair, bind_eq, run_bind, run, hreadX, hreadY, require]
  rfl

/-! ## A particle that a constraint has moved -/

/-- A free particle at (1, 0) that integration had left at the origin, at rest. -/
def moved : Particle Single := Birth.withId { Birth.standard with position := ⟨1, 0⟩ } 0

/-- Where the module is called for it. -/
def movedSite : Site := ⟨"joints", {}⟩

/-- The particle with a table of zeros. -/
def movedReach (index : UInt32) : Reach Single :=
  { particle := moved, table := (Table.create reservedSlots).resize (index.toNat + 1) }

/-- What the module sees in a step of length one, for joints that are fully stiff. -/
def movedView (a b rest : Array Single) (index : UInt32) : View Single where
  index := index
  dt := 1
  params := ⟨true, #[.scalar 1, .scalar 1, .array a, .array b, .array rest]⟩
  snapshot := Array.replicate (index.toNat + 1) moved
  search _ _ _ := .ok #[]

/-- **Whoever the ends name is given a velocity**, whether a joint is enforced or not. -/
theorem velocity_run_follow {a b : Array Single} (rest : Array Single) {index : UInt32}
    (h : Named a b index) :
    ((follow (movedView a b rest index)).run movedSite
      (movedReach index)).2.particle.velocity = ⟨1, 0⟩ := by
  have hrows : (Table.create reservedSlots : Table Single).HasRows 0 := ⟨by decide, rfl⟩
  have hzero {slot : Nat} (hslot : slot < reservedSlots) :
      (movedReach index).table.get? index.toNat slot = some 0 := by
    have hcell : (movedReach index).table.get? index.toNat slot = _ :=
      hrows.get?_resize hslot (index.toNat + 1)
    rwa [if_pos (Nat.lt_succ_self _), if_neg (Nat.not_lt_zero _)] at hcell
  have hpost : (postPosition (movedView a b rest index)).run movedSite (movedReach index) =
      (.ok ⟨0, 0⟩, movedReach index) := run_readPair (hzero (by decide)) (hzero (by decide))
  have hparticle : (movedReach index).particle = moved := rfl
  have hdt : (movedView a b rest index).dt = 1 := rfl
  have hmomentum : (movedView a b rest index).params.get momentum = 1 := rfl
  have hfree : ¬ ((movedReach index).particle.isPinned = true ∨
      (movedView a b rest index).dt ≤ 0) := by
    rw [hparticle, hdt]
    decide +kernel
  rw [run_follow_of_named (v := movedView a b rest index) h hfree hpost, hmomentum, hdt, hparticle]
  dsimp only
  decide +kernel

/-- **Velocities follow enforced joints alone** exactly if every end is one of an enforced joint.
The two phases pair different arrays, so it comes down to whether those whom the ends name past the
last rest length are named before it, too. -/
theorem follows_enforced_iff (a b rest : Array Single) :
    (∀ (v : View Single) (site : Site) (reach : Reach Single),
      v.params.getArray aIndexes = a → v.params.getArray bIndexes = b →
      v.params.getArray restLengths = rest →
      ((module.run .correct v).run site reach).2.particle.velocity ≠ reach.particle.velocity →
        Enforced a b rest v.index) ↔
      ∀ index, Named a b index → Enforced a b rest index := by
  constructor
  · intro h index hnamed
    refine h (movedView a b rest index) movedSite (movedReach index) rfl rfl rfl ?_
    have hvelocity := velocity_run_follow rest hnamed
    change ((follow _).run _ _).2.particle.velocity ≠ _
    rw [hvelocity]
    change (⟨1, 0⟩ : Vec2 Single) ≠ ⟨0, 0⟩
    decide
  · rintro h v site reach rfl rfl rfl hvelocity
    by_contra hnot
    refine hvelocity ?_
    change ((follow v).run site reach).2.particle.velocity = _
    rw [run_follow_of_not_named fun hnamed => hnot (h _ hnamed)]

/-- A joint without a rest length is not enforced, and yet the velocity follows it. -/
theorem follows_unenforced :
    ¬ Enforced #[0] #[1] (#[] : Array Single) 0 ∧
      ((module.run .correct (movedView #[0] #[1] #[] 0)).run movedSite
        (movedReach 0)).2.particle.velocity ≠ (movedReach 0).particle.velocity := by
  refine ⟨?_, by decide +kernel⟩
  rintro ⟨k, first, second, length, -, -, hlength, -⟩
  simp at hlength

end ParticleDynamics.Joints
