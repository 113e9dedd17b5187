import ParticleDynamics.Proofs.Force.Reactions
import ParticleDynamics.Proofs.Grid.Exactness
import ParticleDynamics.Proofs.Module.Footprint
import ParticleDynamics.Proofs.Pipeline.Turns

/-!
# Sums over all pairs

In its turn a pair force treats one particle after the other, and each of them adds up what its
neighbours do to it. The turn as a whole therefore adds up over all ordered pairs, and where what
happens to the one particle of a pair is the opposite of what happens to the other, nothing is left
(`Scene.Weighty.weighted_turn`).

For this the search has to find both particles of a pair or neither. It does when it finds whoever
is closer than the radius that it is asked for (`FindsCloser`); that it may find others as well does
no harm to a force that looks at the distance again.
-/

namespace ParticleDynamics

/-- A quantity of the particles, each weighed with its mass, added up. -/
def weighted {α : Type} [Scalar α] (f : Particle α → Vec2 α) (particles : Array (Particle α)) :
    Vec2 α :=
  (particles.toList.map fun p => f p * p.mass).sum

/-- For each of the particles, with a radius of its own, **the search finds whoever is closer**: every
other live particle that is less than the radius away, none of them twice, and not the particle
itself. -/
def FindsCloser {α : Type} [Scalar α]
    (search : Vec2 α → α → Option UInt32 → Except Breach (Array UInt32))
    (particles : Array (Particle α)) (radius : Particle α → α) : Prop :=
  ∀ (index : Nat) (p : Particle α), particles[index]? = some p →
    ∃ found, search p.position (radius p) (some index.toUInt32) = .ok found ∧
      found.toList.Nodup ∧ index.toUInt32 ∉ found ∧
      ∀ (other : Nat) (q : Particle α), particles[other]? = some q → other ≠ index →
        q.isAlive = true → (p.position - q.position).length < radius p →
          other.toUInt32 ∈ found

/-- Where two arrays agree in something, so do the elements that they have at an index. -/
theorem exists_of_map_eq {β γ : Type} {f : β → γ} {later earlier : Array β}
    (h : later.map f = earlier.map f) {index : Nat} {b : β} (hb : later[index]? = some b) :
    ∃ c, earlier[index]? = some c ∧ f b = f c := by
  have hsame : (later.map f)[index]? = (earlier.map f)[index]? := by rw [h]
  rw [Array.getElem?_map, Array.getElem?_map, hb, Option.map_some] at hsame
  obtain ⟨c, hc, hvalue⟩ := Option.map_eq_some_iff.1 hsame.symm
  exact ⟨c, hc, hvalue.symm⟩

/-- What a view shows at the word of an index. -/
theorem View.other_toUInt32 {α : Type} {v : View α} (hfew : v.snapshot.size ≤ 2 ^ 32)
    {index : Nat} {p : Particle α}
    (hp : v.snapshot[index]? = some p) : v.other index.toUInt32 = some p := by
  have hlt := (Array.getElem?_eq_some_iff.1 hp).1
  rw [View.other, toNat_toUInt32 (Nat.lt_of_lt_of_le hlt hfew)]
  exact hp

/-! ## Particles with positive masses -/

namespace Scene

variable {α : Type} [Scalar α]

/-- Between the beginning of a pass and a later scene no mass has changed; all masses are positive,
and words can tell the particles apart. -/
structure Weighty (began current : Scene α) : Prop where
  /-- words can tell the particles apart -/
  few : began.particles.size ≤ 2 ^ 32
  /-- all masses are positive -/
  positive : ∀ p ∈ began.particles, 0 < p.mass
  /-- no mass has changed -/
  masses : current.particles.map Particle.mass = began.particles.map Particle.mass

/-- The mass of the particle at an index. -/
def massAt (scene : Scene α) (index : Nat) : α := scene.particles[index]?.elim 0 Particle.mass

theorem massAt_eq {scene : Scene α} {index : Nat} {p : Particle α}
    (hp : scene.particles[index]? = some p) : scene.massAt index = p.mass := by
  rw [massAt, hp, Option.elim_some]

namespace Weighty

variable {began current : Scene α} {index other : Nat} {p q : Particle α}

theorem size_eq (h : Weighty began current) : current.particles.size = began.particles.size := by
  have hsize := congrArg Array.size h.masses
  rwa [Array.size_map, Array.size_map] at hsize

/-- A particle had the same mass when the pass began. -/
theorem exists_began (h : Weighty began current) (hp : current.particles[index]? = some p) :
    ∃ q, began.particles[index]? = some q ∧ p.mass = q.mass :=
  exists_of_map_eq h.masses hp

theorem pos (h : Weighty began current) (hp : began.particles[index]? = some p) : 0 < p.mass :=
  h.positive p (Array.mem_of_getElem? hp)

/-- The words of different indices are different. -/
theorem toUInt32_ne (h : Weighty began current) (hp : began.particles[index]? = some p)
    (hq : began.particles[other]? = some q) (hne : index ≠ other) :
    index.toUInt32 ≠ other.toUInt32 := by
  have hindex := Nat.lt_of_lt_of_le (Array.getElem?_eq_some_iff.1 hp).1 h.few
  have hother := Nat.lt_of_lt_of_le (Array.getElem?_eq_some_iff.1 hq).1 h.few
  intro hword
  exact hne ((toNat_toUInt32 hindex).symm.trans
    ((congrArg UInt32.toNat hword).trans (toNat_toUInt32 hother)))

/-- What a call for a particle sees of another one. -/
theorem other_view (h : Weighty began current) (layout : ScratchLayout) (phase : Phase) (dt : α)
    (entry : Entry α) (index : Nat) (hq : began.particles[other]? = some q) :
    ((began.passOf layout phase dt entry).view index).other other.toUInt32 = some q :=
  View.other_toUInt32 h.few hq

end Weighty

end Scene

variable {K : Type} [Field K] [LinearOrder K] [FloorRing K] [Scalar.Curves K]

open Finset (range sum_congr)

/-! ## Sums over all particles -/

theorem weighted_eq_sum (f : Particle K → Vec2 K) (particles : Array (Particle K)) :
    weighted f particles =
      ∑ index ∈ range particles.size, (particles[index]?).elim 0 fun p => f p * p.mass := by
  obtain ⟨particles⟩ := particles
  rw [weighted]
  induction particles with
  | nil => rfl
  | cons p rest ih =>
    rw [List.map_cons, List.sum_cons, ih, List.size_toArray, List.size_toArray, List.length_cons,
      Finset.sum_range_succ', add_comm]
    simp

/-- Sums of sums in the other order. -/
theorem sum_map_sum {β G : Type} [AddCommMonoid G] (items : List β) (s : Finset Nat)
    (F : β → Nat → G) :
    (items.map fun item => ∑ index ∈ s, F item index).sum =
      ∑ index ∈ s, (items.map fun item => F item index).sum := by
  have hswap := Multiset.sum_map_sum (m := (items : Multiset β)) (s := s) (f := F)
  simpa only [Multiset.map_coe, Multiset.sum_coe] using hswap

/-- **What a turn adds in all.** Every call adds something to the weighed quantity of its particle
and keeps the mass; if the additions cancel out, the sum stays. -/
theorem Pass.weighted_turn {pass : Pass K} {current : Scene K} {f : Particle K → Vec2 K}
    (added : Nat → Vec2 K) (hlive : ∀ p ∈ current.particles, p.isAlive = true)
    (hcall : ∀ index p, current.particles[index]? = some p →
      let q := (pass.call index p (pass.moment current index).table).2.particle
      f q * q.mass = f p * p.mass + added index)
    (hsum : ∑ index ∈ range current.particles.size, added index = 0) :
    weighted f (pass.turn current).particles = weighted f current.particles := by
  have hsize : (pass.turn current).particles.size = current.particles.size :=
    pass.size_moment current _
  calc weighted f (pass.turn current).particles
      = ∑ index ∈ range current.particles.size,
          ((current.particles[index]?.elim 0 fun p => f p * p.mass) + added index) := by
        rw [weighted_eq_sum, hsize]
        refine sum_congr rfl fun index hindex => ?_
        have hp := Array.getElem?_eq_getElem (Finset.mem_range.1 hindex)
        rw [pass.getElem?_turn current hp (hlive _ (Array.getElem_mem _)), hp]
        exact hcall index _ hp
    _ = weighted f current.particles := by
        rw [Finset.sum_add_distrib, hsum, add_zero, weighted_eq_sum]

/-- A turn that only reads the scratch table leaves it as it was. -/
theorem Pass.get?_table_moment {α : Type} [Scalar α] {pass : Pass α}
    (hreads : ∀ index, (pass.module.run pass.phase (pass.view index)).StaysIn pass.site
      .readOnly) (scene : Scene α) (index row slot : Nat) :
    (pass.moment scene index).table.get? row slot = scene.table.get? row slot := by
  refine Pass.moment_induction
    (motive := fun _ current => current.table.get? row slot = scene.table.get? row slot) rfl
    (fun failed current index ih => ?_) index
  rcases pass.visit_cases failed current index with ⟨-, h⟩ | ⟨p, journal, -, -, h, -⟩
  · rw [h]
    exact ih
  · rw [h]
    exact ((hreads index).get?_run id _).trans ih

/-- The sum over what was found is that over all other particles, if the others add nothing. -/
theorem sum_found {G : Type} [AddCommMonoid G] {near : List UInt32} {count index : Nat}
    (hcount : count ≤ 2 ^ 32) (hnodup : near.Nodup)
    (hmem : ∀ j ∈ near, j.toNat < count ∧ j.toNat ≠ index) {c : UInt32 → G}
    (hzero : ∀ other < count, other ≠ index → other.toUInt32 ∉ near → c other.toUInt32 = 0) :
    (near.map c).sum = ∑ other ∈ (range count).erase index, c other.toUInt32 := by
  have hword (j : UInt32) : j.toNat.toUInt32 = j := UInt32.ofNat_toNat
  have hnodup' : (near.map UInt32.toNat).Nodup := hnodup.map fun _ _ => UInt32.toNat_inj.1
  have hnear : (near.map c).sum =
      ∑ other ∈ (near.map UInt32.toNat).toFinset, c other.toUInt32 := by
    rw [List.sum_toFinset _ hnodup', List.map_map]
    simp only [Function.comp_def, hword]
  rw [hnear]
  refine Finset.sum_subset (fun other hother => ?_) fun other hother hnot => ?_
  · obtain ⟨j, hj, rfl⟩ := List.mem_map.1 (List.mem_toFinset.1 hother)
    exact Finset.mem_erase.2 ⟨(hmem j hj).2, Finset.mem_range.2 (hmem j hj).1⟩
  · obtain ⟨hne, hlt⟩ := Finset.mem_erase.1 hother
    refine hzero other (Finset.mem_range.1 hlt) hne fun hfound => hnot ?_
    refine List.mem_toFinset.2 (List.mem_map.2 ⟨_, hfound, ?_⟩)
    exact toNat_toUInt32 (Nat.lt_of_lt_of_le (Finset.mem_range.1 hlt) hcount)

/-! ## What a call sees -/

/-- **Summing up over the neighbours is summing up over all other particles**, if those out of reach
add nothing. -/
theorem FindsCloser.exists_near {v : View K} {radius : Particle K → K}
    (hfinds : FindsCloser v.search v.snapshot radius) (hfew : v.snapshot.size ≤ 2 ^ 32)
    (hlive : ∀ p ∈ v.snapshot, p.isAlive = true) {index : Nat}
    (hindex : v.index = index.toUInt32) {p : Particle K} (hp : v.snapshot[index]? = some p) :
    ∃ near, v.neighborsOf p.position (radius p) = .ok near ∧
      (∀ j ∈ near.toList, ∃ q, v.other j = some q) ∧
      ∀ c : UInt32 → Vec2 K,
        (∀ (other : Nat) (q : Particle K), v.snapshot[other]? = some q → other ≠ index →
          radius p ≤ (p.position - q.position).length → c other.toUInt32 = 0) →
        (near.toList.map c).sum =
          ∑ other ∈ (range v.snapshot.size).erase index, c other.toUInt32 := by
  obtain ⟨found, hsearch, hnodup, hself, hcomplete⟩ := hfinds index p hp
  have hother {j : UInt32} (hj : j ∈ found.filter v.isAlive) : ∃ q, v.other j = some q := by
    have halive := (Array.mem_filter.1 hj).2
    cases hq : v.other j with
    | none =>
      rw [View.isAlive, hq] at halive
      cases halive
    | some q => exact ⟨q, rfl⟩
  refine ⟨found.filter v.isAlive, ?_, fun j hj => hother (Array.mem_toList_iff.1 hj),
    fun c hfar => sum_found hfew ?_ (fun j hj => ?_) fun other hlt hne hnot => ?_⟩
  · rw [View.neighborsOf, hindex, hsearch]
    rfl
  · rw [Array.toList_filter]
    exact hnodup.filter _
  · -- the index that was found is that of a particle, and not the one that asks
    have hmem := Array.mem_toList_iff.1 hj
    obtain ⟨q, hq⟩ := hother hmem
    refine ⟨(Array.getElem?_eq_some_iff.1 hq).1, fun hsame => hself ?_⟩
    have hword : j.toNat.toUInt32 = j := UInt32.ofNat_toNat
    rw [← hsame, hword]
    exact (Array.mem_filter.1 hmem).1
  · -- whoever was not found is not closer than the radius
    have hq := Array.getElem?_eq_getElem hlt
    refine hfar other _ hq hne (not_lt.1 fun hcloser => hnot ?_)
    have halive := hlive _ (Array.getElem_mem hlt)
    refine Array.mem_toList_iff.2 (Array.mem_filter.2 ⟨hcomplete other _ hq hne halive hcloser, ?_⟩)
    rw [View.isAlive, View.other_toUInt32 hfew hq, Option.any_some, halive]

/-- **An index that was built from the particles finds whoever is closer**, where lengths go with
squared distances. -/
theorem FindsCloser.of_build [IsStrictOrderedRing K] {b b' : BucketGrid K} (hb : b.Reachable)
    (hcell : 0 < b.bounds.cellSize)
    (hcols : 1 ≤ b.bounds.cols.toNat ∧ b.bounds.cols.toNat < 2 ^ 15)
    (hrows : 1 ≤ b.bounds.rows.toNat ∧ b.bounds.rows.toNat < 2 ^ 15)
    {particles : Array (Particle K)} (hcount : particles.size ≤ 2 ^ 32)
    (hbuild : b.build particles = .ok b') {radius : Particle K → K}
    (hradius : ∀ p ∈ particles, 0 ≤ radius p)
    (hlength : ∀ p ∈ particles, ∀ q ∈ particles, (p.position - q.position).length < radius p →
      q.position.distanceSquared p.position ≤ radius p * radius p) :
    FindsCloser b'.query particles radius := by
  have hproper : b.bounds.Proper := ⟨hcols.1, by omega, hrows.1, by omega⟩
  obtain ⟨built, hbuilt, hbounds, hholds⟩ := BucketGrid.exists_build hb.tidy hproper hcount
  obtain rfl := Except.ok.inj (hbuild.symm.trans hbuilt)
  rw [← hbounds] at hcell hcols hrows
  intro index p hp
  have hmem := Array.mem_of_getElem? hp
  obtain ⟨found, hfound, hnodup, hexact⟩ := hholds.exists_query hcell hcols.2 hrows.2 p.position
    (hradius p hmem) (some index.toUInt32)
  refine ⟨found, hfound, hnodup, fun hself => ((hexact _).1 hself).1 rfl,
    fun other q hq hne halive hcloser => (hexact _).2 ⟨fun hsame => hne ?_, q, ?_, halive, ?_⟩⟩
  · have hother := Nat.lt_of_lt_of_le (Array.getElem?_eq_some_iff.1 hq).1 hcount
    have hindex := Nat.lt_of_lt_of_le (Array.getElem?_eq_some_iff.1 hp).1 hcount
    rw [← toNat_toUInt32 hother, Option.some.inj hsame, toNat_toUInt32 hindex]
  · rw [toNat_toUInt32 (Nat.lt_of_lt_of_le (Array.getElem?_eq_some_iff.1 hq).1 hcount)]
    exact hq
  · exact hlength p hmem q (Array.mem_of_getElem? hq) hcloser

/-! ## Turns of pair forces -/

namespace Scene

variable {began current : Scene K}

namespace Weighty

theorem isAlive_began (h : Weighty began current) : ∀ p ∈ began.particles, p.isAlive = true :=
  fun p hp => Particle.isAlive_of_pos (h.positive p hp)

theorem isAlive_current (h : Weighty began current) :
    ∀ p ∈ current.particles, p.isAlive = true := by
  intro p hp
  obtain ⟨index, hlt, rfl⟩ := Array.mem_iff_getElem.1 hp
  obtain ⟨q, hq, hmass⟩ := h.exists_began (Array.getElem?_eq_getElem hlt)
  exact Particle.isAlive_of_pos (hmass ▸ h.pos hq)

/-- A turn whose calls keep the masses keeps the masses. -/
theorem turn (h : Weighty began current) {pass : Pass K}
    (hcall : ∀ index p, current.particles[index]? = some p →
      (pass.call index p (pass.moment current index).table).2.particle.mass = p.mass) :
    Weighty began (pass.turn current) := by
  refine ⟨h.few, h.positive, h.masses ▸ Array.ext_getElem? fun index => ?_⟩
  rw [Array.getElem?_map, Array.getElem?_map]
  cases hp : current.particles[index]? with
  | none =>
    have hsize : (pass.turn current).particles.size = current.particles.size :=
      pass.size_moment current _
    rw [Array.getElem?_eq_none (hsize ▸ Array.getElem?_eq_none_iff.1 hp)]
  | some p =>
    rw [pass.getElem?_turn current hp (h.isAlive_current p (Array.mem_of_getElem? hp))]
    exact congrArg some (hcall index p hp)

/-- **A turn that adds up opposites conserves.** If a call adds to a quantity of its particle a sum
over the other particles, and what one particle of a pair contributes is the opposite of what the
other does once both are weighed, then the sum of the weighed quantity over all particles stays. -/
theorem weighted_turn (h : Weighty began current) (pass : Pass K) (f : Particle K → Vec2 K)
    (g : Nat → Nat → Vec2 K)
    (hcall : ∀ index p q, current.particles[index]? = some p →
      began.particles[index]? = some q → p.mass = q.mass →
      let r := (pass.call index p (pass.moment current index).table).2.particle
      r.mass = p.mass ∧
        f r = f p + ∑ other ∈ (range began.particles.size).erase index, g index other)
    (hpair : ∀ i j p q, began.particles[i]? = some p → began.particles[j]? = some q → i ≠ j →
      g i j * p.mass + g j i * q.mass = 0) :
    Weighty began (pass.turn current) ∧
      weighted f (pass.turn current).particles = weighted f current.particles := by
  constructor
  · refine h.turn fun index p hp => ?_
    obtain ⟨q, hq, hmass⟩ := h.exists_began hp
    exact (hcall index p q hp hq hmass).1
  · let moved (i j : Nat) : Vec2 K := g i j * began.massAt i
    refine Pass.weighted_turn
      (fun index => ∑ other ∈ (range began.particles.size).erase index, moved index other)
      h.isAlive_current (fun index p hp => ?_) ?_
    · obtain ⟨q, hq, hmass⟩ := h.exists_began hp
      obtain ⟨hkept, hadded⟩ := hcall index p q hp hq hmass
      dsimp only
      rw [hadded, hkept, Vec2.add_mul, Vec2.sum_mul, hmass, ← massAt_eq hq]
    · rw [h.size_eq]
      refine sum_pairs_eq_zero _ moved fun i hi j hj hne => ?_
      have hp := Array.getElem?_eq_getElem (Finset.mem_range.1 hi)
      have hq := Array.getElem?_eq_getElem (Finset.mem_range.1 hj)
      rw [← hpair i j _ _ hp hq hne, ← massAt_eq hp, ← massAt_eq hq]

end Weighty

end Scene

end ParticleDynamics
