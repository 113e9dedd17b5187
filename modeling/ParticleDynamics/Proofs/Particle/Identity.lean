import Mathlib.Data.Finset.Card
import ParticleDynamics.Particle.Store
import ParticleDynamics.Single

/-!
# When identities stay apart

A store is meant to be **orderly**: the identities of its particles strictly increase and have all
been issued. Appending, killing and compacting keep it so. Taking in a whole set does not always,
and this file says exactly when.

`Store.relabel` walks through the set in the order of the identities and asks of each particle
whether its identity has been issued, but it asks this of a counter that it moves on itself. An
identity that nobody had issued may have been given to another particle by the time it is looked
at; it then passes for issued and is kept, and two particles share it. This happens to the first
particle of an identity exactly when the fresh identities used before it reach past its own.

How many those are can be read off the set. Every particle below a foreign identity needs a fresh
one, except the first particle of each issued identity. That is the count in `Store.Admits`.

The main statement is `Store.orderly_throughout_iff`: the stores of a run are all orderly if and
only if every set that the run takes in is admitted by the store that takes it in.
-/

namespace ParticleDynamics

namespace Store

variable {α : Type}

/-! ## Orderly stores -/

/-- A store whose identities strictly increase and have all been issued. -/
structure Orderly (s : Store α) : Prop where
  /-- no identity comes twice or out of order -/
  increasing : (s.particles.toList.map Particle.id).Pairwise (· < ·)
  /-- the identities have been issued -/
  issued : ∀ p ∈ s.particles, p.id < s.issued

/-- How many particles of a set stand below an identity. -/
def below (particles : List (Particle α)) (id : ParticleId) : Nat :=
  particles.countP fun p => p.id < id

/-- The issued identities that a set carries, without the one that was seen last. -/
def unclaimed (issued : ParticleId) (previous : Option ParticleId)
    (particles : List (Particle α)) : Finset ParticleId :=
  (particles.map Particle.id).toFinset.filter fun id => id < issued ∧ previous ≠ some id

/-- Whether a store keeps the particles of a set apart: the fresh identities that go to the
particles below a foreign identity do not reach past it. -/
def Admits (s : Store α) (particles : List (Particle α)) : Prop :=
  ∀ p ∈ particles, s.issued ≤ p.id →
    s.issued.toNat + below particles p.id ≤ p.id.toNat + (unclaimed s.issued none particles).card

/-! ## Lists in the order of their identities -/

/-- The identities of a list ascend from the one that was seen last. -/
def Ascending (previous : Option ParticleId) (particles : List (Particle α)) : Prop :=
  (previous.toList ++ particles.map Particle.id).Pairwise (· ≤ ·)

section Ascending

variable {issued next : ParticleId} {previous : Option ParticleId} {p : Particle α}
  {rest : List (Particle α)}

theorem Ascending.tail (h : Ascending previous (p :: rest)) : Ascending (some p.id) rest := by
  simpa [Ascending] using h.sublist (List.sublist_append_right _ _)

theorem Ascending.le_of_mem (h : Ascending previous (p :: rest)) {q : Particle α} (hq : q ∈ rest) :
    p.id ≤ q.id := by
  have htail := h.tail
  simp only [Ascending, Option.toList_some, List.singleton_append, List.pairwise_cons] at htail
  exact htail.1 q.id (List.mem_map_of_mem hq)

theorem Ascending.previous_le {id : ParticleId} (h : Ascending (some id) (p :: rest)) :
    id ≤ p.id := by
  simp only [Ascending, Option.toList_some, List.singleton_append, List.pairwise_cons] at h
  exact h.1 p.id (List.mem_map_of_mem List.mem_cons_self)

theorem below_cons (id : ParticleId) :
    below (p :: rest) id = below rest id + if p.id < id then 1 else 0 := by
  simp [below, List.countP_cons]

/-- Nothing stands below the first identity of an ascending list. -/
theorem below_head (h : Ascending previous (p :: rest)) : below (p :: rest) p.id = 0 := by
  rw [below, List.countP_eq_zero]
  intro q hq
  rcases List.mem_cons.1 hq with rfl | hq
  · simp
  · simpa using h.le_of_mem hq

/-- A list that begins with a foreign identity carries no issued one. -/
theorem unclaimed_of_foreign (h : Ascending previous (p :: rest)) (hp : issued ≤ p.id)
    (seen : Option ParticleId) : unclaimed issued seen rest = ∅ := by
  refine Finset.filter_eq_empty_iff.2 ?_
  intro id hid hlt
  -- the list ascends, so whatever stands behind a foreign identity is foreign too
  obtain ⟨q, hq, rfl⟩ := List.mem_map.1 (List.mem_toFinset.1 hid)
  have hle := h.le_of_mem hq
  grind

theorem unclaimed_cons_of_foreign (h : Ascending previous (p :: rest)) (hp : issued ≤ p.id) :
    unclaimed issued previous (p :: rest) = ∅ := by
  have hrest := unclaimed_of_foreign h hp previous
  rw [unclaimed, Finset.filter_eq_empty_iff] at hrest ⊢
  intro id hid
  rw [List.map_cons, List.toFinset_cons, Finset.mem_insert] at hid
  rcases hid with rfl | hid
  · grind
  · exact hrest hid

/-- An identity that is repeated claims nothing anew. -/
theorem unclaimed_cons_of_repeated (hp : previous = some p.id) :
    unclaimed issued previous (p :: rest) = unclaimed issued (some p.id) rest := by
  subst hp
  ext id
  simp only [unclaimed, List.map_cons, List.toFinset_cons, Finset.mem_filter, Finset.mem_insert]
  grind

/-- The first particle of an issued identity claims it. -/
theorem card_unclaimed_cons (h : Ascending previous (p :: rest)) (hp : p.id < issued)
    (hnew : previous ≠ some p.id) :
    (unclaimed issued previous (p :: rest)).card =
      (unclaimed issued (some p.id) rest).card + 1 := by
  have hinsert : unclaimed issued previous (p :: rest) =
      insert p.id (unclaimed issued (some p.id) rest) := by
    ext id
    simp only [unclaimed, List.map_cons, List.toFinset_cons, Finset.mem_filter, Finset.mem_insert]
    constructor
    · grind
    · rintro (rfl | ⟨hid, hlt, hne⟩)
      · exact ⟨.inl rfl, hp, hnew⟩
      · refine ⟨.inr hid, hlt, ?_⟩
        rintro rfl
        -- `id` was seen before `p` and occurs again after it, so it is the identity of `p`
        obtain ⟨q, hq, rfl⟩ := List.mem_map.1 (List.mem_toFinset.1 hid)
        have hle := h.previous_le
        have hge := h.le_of_mem hq
        grind
  rw [hinsert, Finset.card_insert_of_notMem]
  simp [unclaimed]

end Ascending

/-! ## Room for the foreign identities

`Room` is the condition of `Admits` in the middle of a walk, where `next` is the counter and
`previous` the identity that was seen last. -/

/-- The counter, moved on for every particle in between that needs a fresh identity, does not reach
past a foreign identity that is still to come. -/
def Room (issued next : ParticleId) (previous : Option ParticleId)
    (particles : List (Particle α)) : Prop :=
  ∀ p ∈ particles, issued ≤ p.id → previous ≠ some p.id →
    next.toNat + below particles p.id ≤ p.id.toNat + (unclaimed issued previous particles).card

section Room

variable {issued next after : ParticleId} {previous : Option ParticleId} {p : Particle α}
  {rest : List (Particle α)}

/-- A particle that takes a fresh identity leaves as much room as it found. -/
theorem room_cons_of_fresh (h : Ascending previous (p :: rest)) (hissued : issued ≤ next)
    (hafter : after.toNat = next.toNat + 1) (hfresh : next ≤ p.id ∨ previous = some p.id) :
    Room issued next previous (p :: rest) ↔ Room issued after (some p.id) rest := by
  have hhead := below_head h
  -- the particles of `rest` that matter stand above `p`, and claim the same identities as before
  have hsame : ∀ q ∈ rest, issued ≤ q.id → p.id ≠ q.id → previous ≠ some q.id ∧
      below (p :: rest) q.id = below rest q.id + 1 := by
    intro q hq _ hne
    have hle := h.le_of_mem hq
    refine ⟨?_, ?_⟩
    · rintro rfl
      have hprev := h.previous_le
      grind
    · rw [below_cons, if_pos (by grind)]
  have hclaim : (unclaimed issued previous (p :: rest)).card =
      (unclaimed issued (some p.id) rest).card := by
    rcases hfresh with hle | hrep
    · have hp : issued ≤ p.id := by grind
      rw [unclaimed_cons_of_foreign h hp, unclaimed_of_foreign h hp]
    · rw [unclaimed_cons_of_repeated hrep]
  constructor
  · intro hroom q hq hforeign hne
    have hne' : p.id ≠ q.id := fun heq => hne (congrArg some heq)
    obtain ⟨hprev, hbelow⟩ := hsame q hq hforeign hne'
    have := hroom q (List.mem_cons_of_mem p hq) hforeign hprev
    omega
  · intro hroom q hq hforeign hne
    by_cases heq : p.id = q.id
    · rw [← heq] at hne ⊢
      have hle : next ≤ p.id := hfresh.resolve_right hne
      rw [hhead]
      have := UInt32.le_iff_toNat_le.1 hle
      omega
    · have hq : q ∈ rest := by
        rcases List.mem_cons.1 hq with rfl | hq
        · exact absurd rfl heq
        · exact hq
      obtain ⟨-, hbelow⟩ := hsame q hq hforeign heq
      have := hroom q hq hforeign (by simpa using heq)
      omega

/-- A particle that keeps its identity leaves room exactly if the identity has been issued. -/
theorem room_cons_of_kept (h : Ascending previous (p :: rest)) (hlt : p.id < next)
    (hnew : previous ≠ some p.id) :
    Room issued next previous (p :: rest) ↔
      p.id < issued ∧ Room issued next (some p.id) rest := by
  have hhead := below_head h
  by_cases hp : p.id < issued
  · -- it was issued: for those behind, one more identity lies below and one less is unclaimed
    have hcard := card_unclaimed_cons h hp hnew
    have hbelow : ∀ q ∈ rest, issued ≤ q.id → below (p :: rest) q.id = below rest q.id + 1 := by
      intro q _ hforeign
      rw [below_cons, if_pos (by grind)]
    refine ⟨fun hroom => ⟨hp, ?_⟩, ?_⟩
    · intro q hq hforeign hne
      have hle := h.le_of_mem hq
      have hprev : previous ≠ some q.id := by
        rintro rfl
        have hprev := h.previous_le
        grind
      have := hroom q (List.mem_cons_of_mem p hq) hforeign hprev
      have := hbelow q hq hforeign
      omega
    · rintro ⟨-, hroom⟩ q hq hforeign hne
      rcases List.mem_cons.1 hq with rfl | hq
      · grind
      · have hne' : some p.id ≠ some q.id := by grind
        have := hroom q hq hforeign hne'
        have := hbelow q hq hforeign
        omega
  · -- it was not issued: nothing that is unclaimed lies below it, so there is no room
    refine ⟨fun hroom => ?_, fun hboth => absurd hboth.1 hp⟩
    have hforeign : issued ≤ p.id := UInt32.not_lt.1 hp
    have := hroom p List.mem_cons_self hforeign hnew
    rw [hhead, unclaimed_cons_of_foreign h hforeign, Finset.card_empty] at this
    have := UInt32.lt_iff_toNat_lt.1 hlt
    omega

/-- Before the walk there is room exactly if the set is admitted. -/
theorem admits_iff_room (s : Store α) (particles : List (Particle α)) :
    s.Admits particles ↔ Room s.issued s.issued none (sortById particles) := by
  have hperm : (sortById particles).Perm particles := List.mergeSort_perm _ _
  have hbelow (id : ParticleId) : below (sortById particles) id = below particles id :=
    hperm.countP_eq _
  have hclaim : unclaimed s.issued none (sortById particles) =
      unclaimed s.issued none particles := by
    rw [unclaimed, unclaimed, List.toFinset_eq_of_perm _ _ (hperm.map _)]
  simp only [Admits, Room, hperm.mem_iff, hbelow, hclaim, ne_eq, reduceCtorEq, not_false_eq_true,
    true_implies]

end Room

/-! ## The walk -/

/-- The identity after another is the next one. -/
theorem toNat_after {next after : ParticleId} (h : ParticleId.after next = .ok after) :
    after.toNat = next.toNat + 1 := by
  unfold ParticleId.after at h
  split at h
  · cases h
  next hne =>
    obtain rfl := Except.ok.inj h
    have : next.toNat ≠ 4294967295 := fun heq => hne (UInt32.toNat_inj.1 heq)
    have := next.toNat_lt
    rw [UInt32.toNat_add]
    simp only [UInt32.reduceToNat]
    omega

section Relabel

variable {issued next last : ParticleId} {previous : Option ParticleId} {p : Particle α}
  {particles rest relabeled : List (Particle α)}

/-- The first particle of a list either takes the next identity or keeps its own. -/
theorem relabel_cons (h : relabel previous next (p :: rest) = .ok (last, relabeled)) :
    ((next ≤ p.id ∨ previous = some p.id) ∧ ∃ after relabeled',
      after.toNat = next.toNat + 1 ∧ relabel (some p.id) after rest = .ok (last, relabeled') ∧
        relabeled = { p with id := next } :: relabeled') ∨
    ((p.id < next ∧ previous ≠ some p.id) ∧ ∃ relabeled',
      relabel (some p.id) next rest = .ok (last, relabeled') ∧ relabeled = p :: relabeled') := by
  rw [relabel] at h
  split at h
  next hfresh =>
    obtain ⟨after, hafter, h⟩ := bind_eq_ok_iff.1 h
    obtain ⟨⟨last', relabeled'⟩, hrest, h⟩ := bind_eq_ok_iff.1 h
    cases h
    exact .inl ⟨hfresh, after, relabeled', toNat_after hafter, hrest, rfl⟩
  next hkept =>
    obtain ⟨⟨last', relabeled'⟩, hrest, h⟩ := bind_eq_ok_iff.1 h
    cases h
    refine .inr ⟨?_, relabeled', hrest, rfl⟩
    rw [not_or, UInt32.not_le] at hkept
    exact hkept

/-- The counter only moves on, and stays above every identity that it has passed. -/
theorem relabel_lt (h : relabel previous next particles = .ok (last, relabeled)) :
    next ≤ last ∧ ∀ q ∈ relabeled, q.id < last := by
  induction particles generalizing previous next relabeled with
  | nil =>
    cases h
    exact ⟨UInt32.le_refl _, by simp⟩
  | cons p rest ih =>
    rcases relabel_cons h with ⟨-, after, relabeled', hafter, hrest, rfl⟩ |
      ⟨⟨hlt, -⟩, relabeled', hrest, rfl⟩
    · obtain ⟨hle, hall⟩ := ih hrest
      have hnext : next < last := by
        rw [UInt32.lt_iff_toNat_lt]
        have := UInt32.le_iff_toNat_le.1 hle
        omega
      exact ⟨UInt32.le_of_lt hnext, List.forall_mem_cons.2 ⟨hnext, hall⟩⟩
    · obtain ⟨hle, hall⟩ := ih hrest
      exact ⟨hle, List.forall_mem_cons.2 ⟨UInt32.lt_of_lt_of_le hlt hle, hall⟩⟩

/-- An identity below the counter was kept, and stands above the one that was seen last. -/
theorem lt_of_mem_relabel {id : ParticleId} (hsorted : Ascending (some id) particles)
    (h : relabel (some id) next particles = .ok (last, relabeled)) {q : Particle α}
    (hq : q ∈ relabeled) (hlt : q.id < next) : id < q.id := by
  induction particles generalizing id next relabeled with
  | nil =>
    cases h
    simp at hq
  | cons p rest ih =>
    have hle := hsorted.previous_le
    rcases relabel_cons h with ⟨-, after, relabeled', hafter, hrest, rfl⟩ |
      ⟨⟨-, hnew⟩, relabeled', hrest, rfl⟩
    · rcases List.mem_cons.1 hq with rfl | hq
      · -- a fresh identity is the counter itself
        exact absurd hlt (UInt32.lt_irrefl _)
      · have hafter' : q.id < after := by
          rw [UInt32.lt_iff_toNat_lt] at hlt ⊢
          omega
        exact UInt32.lt_of_le_of_lt hle (ih hsorted.tail hrest hq hafter')
    · rcases List.mem_cons.1 hq with rfl | hq
      · grind
      · exact UInt32.lt_of_le_of_lt hle (ih hsorted.tail hrest hq hlt)

/-- No identity comes twice, and the foreign ones among them are fresh. -/
structure Apart (issued next : ParticleId) (particles : List (Particle α)) : Prop where
  /-- no identity comes twice -/
  nodup : (particles.map Particle.id).Nodup
  /-- every identity from `issued` on was given out from `next` on -/
  fresh : ∀ q ∈ particles, issued ≤ q.id → next ≤ q.id

/-- A fresh identity in front keeps a list apart exactly if the list uses none before the next. -/
theorem apart_cons_of_fresh {after : ParticleId} (hissued : issued ≤ next)
    (hafter : after.toNat = next.toNat + 1) :
    Apart issued next ({ p with id := next } :: relabeled) ↔ Apart issued after relabeled := by
  constructor
  · -- the others differ from `next`, so they begin after it
    rintro ⟨hnodup, hall⟩
    obtain ⟨hnext, hnodup⟩ := List.nodup_cons.1 hnodup
    refine ⟨hnodup, fun q hq hforeign => ?_⟩
    have hge := hall q (List.mem_cons_of_mem _ hq) hforeign
    have hne : q.id ≠ next := fun heq => hnext (List.mem_map.2 ⟨q, hq, heq⟩)
    rw [UInt32.le_iff_toNat_le] at hge ⊢
    rw [Ne, ← UInt32.toNat_inj] at hne
    omega
  · rintro ⟨hnodup, hall⟩
    have hle : next ≤ after := by
      rw [UInt32.le_iff_toNat_le]
      omega
    refine ⟨List.nodup_cons.2 ⟨fun hmem => ?_, hnodup⟩, ?_⟩
    · -- whatever carries `next` is foreign, so it was given out from `after` on
      obtain ⟨q, hq, heq⟩ := List.mem_map.1 hmem
      have hge := hall q hq (heq ▸ hissued)
      rw [UInt32.le_iff_toNat_le, heq] at hge
      simp only at hge
      omega
    · exact List.forall_mem_cons.2 ⟨fun _ => UInt32.le_refl _,
        fun q hq hforeign => UInt32.le_trans hle (hall q hq hforeign)⟩

/-- A kept identity in front keeps a relabelled list apart exactly if it has been issued. -/
theorem apart_cons_of_kept (hsorted : Ascending (some p.id) rest) (hlt : p.id < next)
    (hrest : relabel (some p.id) next rest = .ok (last, relabeled)) :
    Apart issued next (p :: relabeled) ↔ p.id < issued ∧ Apart issued next relabeled := by
  constructor
  · rintro ⟨hnodup, hall⟩
    obtain ⟨-, hnodup⟩ := List.nodup_cons.1 hnodup
    refine ⟨?_, hnodup, fun q hq => hall q (List.mem_cons_of_mem _ hq)⟩
    have := hall p List.mem_cons_self
    grind
  · rintro ⟨hp, hnodup, hall⟩
    refine ⟨List.nodup_cons.2 ⟨fun hmem => ?_, hnodup⟩, ?_⟩
    · -- what stands below the counter was kept, and lies strictly above `p`
      obtain ⟨q, hq, heq⟩ := List.mem_map.1 hmem
      have := lt_of_mem_relabel hsorted hrest hq (heq ▸ hlt)
      grind
    · refine List.forall_mem_cons.2 ⟨fun hforeign => ?_, hall⟩
      grind

/-- **Relabelling keeps a list apart exactly if there is room in it.** A foreign identity that the
fresh ones have caught up with is kept, and then it comes twice; there is room if this happens
nowhere. -/
theorem apart_relabel_iff (hsorted : Ascending previous particles) (hissued : issued ≤ next)
    (h : relabel previous next particles = .ok (last, relabeled)) :
    Apart issued next relabeled ↔ Room issued next previous particles := by
  induction particles generalizing previous next relabeled with
  | nil =>
    cases h
    exact ⟨fun _ => by simp [Room], fun _ => ⟨by simp, by simp⟩⟩
  | cons p rest ih =>
    rcases relabel_cons h with ⟨hfresh, after, relabeled', hafter, hrest, rfl⟩ |
      ⟨⟨hlt, hnew⟩, relabeled', hrest, rfl⟩
    · have hissued' : issued ≤ after := by
        rw [UInt32.le_iff_toNat_le] at hissued ⊢
        omega
      rw [room_cons_of_fresh hsorted hissued hafter hfresh, apart_cons_of_fresh hissued hafter,
        ih hsorted.tail hissued' hrest]
    · rw [room_cons_of_kept hsorted hlt hnew, apart_cons_of_kept hsorted.tail hlt hrest,
        ih hsorted.tail hissued hrest]

end Relabel

/-! ## What one operation does to the order -/

theorem orderly_empty : (empty : Store α).Orderly := ⟨by simp [empty], by simp [empty]⟩

variable [Scalar α]

/-- A particle that is born goes to the end, under the next identity. -/
theorem Orderly.spawn {s s' : Store α} (hs : s.Orderly) {birth : Birth α} {id : ParticleId}
    (h : s.spawn birth = .ok (id, s')) : s'.Orderly := by
  obtain ⟨next, hnext, h⟩ := bind_eq_ok_iff.1 h
  cases h
  have hafter := toNat_after hnext
  refine ⟨?_, ?_⟩
  · simp only [Array.toList_push, List.map_append, List.map_cons, List.map_nil]
    refine List.pairwise_append.2 ⟨hs.increasing, List.pairwise_singleton _ _, ?_⟩
    intro id hid id' hid'
    obtain ⟨p, hp, rfl⟩ := List.mem_map.1 hid
    obtain rfl := List.mem_singleton.1 hid'
    exact hs.issued p (Array.mem_toList_iff.1 hp)
  · intro p hp
    rw [UInt32.lt_iff_toNat_lt, hafter]
    rcases Array.mem_push.1 hp with hp | rfl
    · have := UInt32.lt_iff_toNat_lt.1 (hs.issued p hp)
      omega
    · exact Nat.lt_succ_self _

omit [Scalar α] in
/-- Changing a particle under its identity changes no identity. -/
theorem map_id_modifyAt (s : Store α) (index : Nat) {f : Particle α → Particle α}
    (hf : ∀ p, (f p).id = p.id) :
    (s.modifyAt index f).particles.map Particle.id = s.particles.map Particle.id := by
  apply Array.ext_getElem?
  intro other
  simp only [Store.modifyAt, Array.getElem?_map, Array.getElem?_modify]
  split
  · simp [Option.map_map, Function.comp_def, hf]
  · rfl

omit [Scalar α] in
/-- Changing a particle under its identity changes nothing in the order. -/
theorem Orderly.modifyAt {s : Store α} (hs : s.Orderly) (index : Nat)
    {f : Particle α → Particle α} (hf : ∀ p, (f p).id = p.id) : (s.modifyAt index f).Orderly := by
  have hids := s.map_id_modifyAt index hf
  have hlist := congrArg Array.toList hids
  simp only [Array.toList_map] at hlist
  refine ⟨hlist ▸ hs.increasing, fun p hp => ?_⟩
  have hmem : p.id ∈ s.particles.map Particle.id := hids ▸ Array.mem_map_of_mem hp
  obtain ⟨q, hq, heq⟩ := Array.mem_map.1 hmem
  exact heq ▸ hs.issued q hq

theorem Orderly.kill {s : Store α} (hs : s.Orderly) (id : ParticleId) : (s.kill id).2.Orderly := by
  unfold Store.kill
  split
  · split
    · split
      · exact hs.modifyAt _ Particle.kill_id
      · exact hs
    · exact hs
  · exact hs

theorem Orderly.compact {s : Store α} (hs : s.Orderly) : s.compact.Orderly := by
  refine ⟨?_, fun p hp => hs.issued p (Array.mem_filter.1 hp).1⟩
  simp only [Store.compact, Array.toList_filter]
  exact hs.increasing.sublist (List.filter_sublist.map _)

omit [Scalar α] in
/-- **A set that is taken in leaves the store orderly exactly if the store admits it.** What the
store held before does not matter, only how many identities it has issued. -/
theorem orderly_replaceAll_iff {s s' : Store α} {particles : List (Particle α)}
    (h : s.replaceAll particles = .ok s') : s'.Orderly ↔ s.Admits particles := by
  have hsort (l : List (Particle α)) : (sortById l).Pairwise fun p q => p.id ≤ q.id := by
    refine (List.pairwise_mergeSort ?_ ?_ l).imp of_decide_eq_true
    · intro p q r
      grind
    · intro p q
      grind
  obtain ⟨⟨last, relabeled⟩, hrelabel, h⟩ := bind_eq_ok_iff.1 h
  cases h
  have hsorted : Ascending none (sortById particles) := by
    simpa [Ascending, List.pairwise_map] using hsort particles
  -- the last sorting changes the order alone, so only a repetition can spoil the result
  have hperm : (sortById relabeled).Perm relabeled := List.mergeSort_perm _ _
  rw [admits_iff_room, ← apart_relabel_iff hsorted (UInt32.le_refl _) hrelabel]
  constructor
  · rintro ⟨hincreasing, -⟩
    refine ⟨(hperm.map Particle.id).nodup_iff.1 ?_, fun _ _ hforeign => hforeign⟩
    exact hincreasing.imp fun hlt => UInt32.ne_of_lt hlt
  · rintro ⟨hnodup, -⟩
    refine ⟨?_, fun p hp => (relabel_lt hrelabel).2 p (hperm.mem_iff.1 (by simpa using hp))⟩
    rw [List.pairwise_map]
    have hne := List.pairwise_map.1 ((hperm.map Particle.id).nodup_iff.2 hnodup)
    exact (hsort relabeled).imp₂ (fun p q hle hne => by grind) hne

/-! ## Runs -/

/-- What can be done to a store. -/
inductive Command (α : Type) where
  /-- create a particle -/
  | spawn (birth : Birth α)
  /-- mark a particle dead -/
  | kill (id : ParticleId)
  /-- remove the dead particles -/
  | compact
  /-- take in a whole set -/
  | replaceAll (particles : List (Particle α))

/-- The store after one command. -/
def perform (s : Store α) : Command α → Except Breach (Store α)
  | .spawn birth => do return (← s.spawn birth).2
  | .kill id => .ok (s.kill id).2
  | .compact => .ok s.compact
  | .replaceAll particles => s.replaceAll particles

/-- The store after a list of commands. -/
def performAll (s : Store α) : List (Command α) → Except Breach (Store α)
  | [] => .ok s
  | command :: rest => do (← s.perform command).performAll rest

/-- The first command comes first. -/
theorem performAll_cons {s s' : Store α} {command : Command α} (h : s.perform command = .ok s')
    (rest : List (Command α)) : s.performAll (command :: rest) = s'.performAll rest := by
  rw [performAll, h]
  rfl

/-- Whether a store admits what a command takes in. -/
def AdmitsAll (s : Store α) : Command α → Prop
  | .replaceAll particles => s.Admits particles
  | _ => True

/-- A command keeps a store orderly exactly if it takes in nothing that the store does not admit. -/
theorem Orderly.perform_iff {s s' : Store α} (hs : s.Orderly) {command : Command α}
    (h : s.perform command = .ok s') : s'.Orderly ↔ s.AdmitsAll command := by
  cases command with
  | spawn birth =>
    obtain ⟨⟨id, s''⟩, hspawn, h⟩ := bind_eq_ok_iff.1 h
    cases h
    exact iff_of_true (hs.spawn hspawn) trivial
  | kill id =>
    cases h
    exact iff_of_true (hs.kill id) trivial
  | compact =>
    cases h
    exact iff_of_true hs.compact trivial
  | replaceAll particles => exact orderly_replaceAll_iff h

/-- The stores of a run are the first one and those of the run from the second one on. -/
theorem forall_stores_cons {s s' : Store α} {command : Command α} {rest : List (Command α)}
    (h : s.perform command = .ok s') (holds : Store α → Prop) :
    (∀ earlier t, earlier <+: command :: rest → s.performAll earlier = .ok t → holds t) ↔
      holds s ∧ ∀ earlier t, earlier <+: rest → s'.performAll earlier = .ok t → holds t := by
  have hstep := performAll_cons h
  constructor
  · intro hall
    refine ⟨hall [] s List.nil_prefix rfl, fun earlier t hearlier ht => ?_⟩
    exact hall (command :: earlier) t (by simpa using hearlier) (by rw [hstep, ht])
  · rintro ⟨hfirst, hlater⟩ earlier t hearlier ht
    cases earlier with
    | nil =>
      cases ht
      exact hfirst
    | cons first earlier =>
      rw [List.cons_prefix_cons] at hearlier
      obtain ⟨rfl, hearlier⟩ := hearlier
      exact hlater earlier t hearlier (by rw [← hstep, ht])

/-- The commands of a run are the first one and those of the run from the second store on. -/
theorem forall_commands_cons {s s' : Store α} {command : Command α} {rest : List (Command α)}
    (h : s.perform command = .ok s') (holds : Store α → Command α → Prop) :
    (∀ earlier other t, earlier ++ [other] <+: command :: rest →
        s.performAll earlier = .ok t → holds t other) ↔
      holds s command ∧ ∀ earlier other t, earlier ++ [other] <+: rest →
        s'.performAll earlier = .ok t → holds t other := by
  have hstep := performAll_cons h
  constructor
  · intro hall
    refine ⟨hall [] command s (by simp) rfl, fun earlier other t hearlier ht => ?_⟩
    exact hall (command :: earlier) other t (by simpa using hearlier) (by rw [hstep, ht])
  · rintro ⟨hfirst, hlater⟩ earlier other t hearlier ht
    cases earlier with
    | nil =>
      cases ht
      obtain rfl : other = command := by simpa using hearlier
      exact hfirst
    | cons first earlier =>
      rw [List.cons_append, List.cons_prefix_cons] at hearlier
      obtain ⟨rfl, hearlier⟩ := hearlier
      exact hlater earlier other t hearlier (by rw [← hstep, ht])

/-- The stores that a run comes through, from an orderly one on. -/
theorem Orderly.performAll_iff {s last : Store α} (hs : s.Orderly) {commands : List (Command α)}
    (h : s.performAll commands = .ok last) :
    (∀ earlier t, earlier <+: commands → s.performAll earlier = .ok t → t.Orderly) ↔
      ∀ earlier command t, earlier ++ [command] <+: commands →
        s.performAll earlier = .ok t → t.AdmitsAll command := by
  induction commands generalizing s with
  | nil =>
    refine iff_of_true ?_ ?_
    · intro earlier t hearlier ht
      obtain rfl := List.prefix_nil.1 hearlier
      cases ht
      exact hs
    · intro earlier command t hearlier
      simp at hearlier
  | cons command rest ih =>
    obtain ⟨s', hcommand, hrest⟩ := bind_eq_ok_iff.1 h
    have hadmits := hs.perform_iff hcommand
    rw [forall_stores_cons hcommand, forall_commands_cons hcommand]
    constructor
    · rintro ⟨-, hlater⟩
      have hs' : s'.Orderly := hlater [] s' List.nil_prefix rfl
      exact ⟨hadmits.1 hs', (ih hs' hrest).1 hlater⟩
    · rintro ⟨hcommand', hlater⟩
      exact ⟨hs, (ih (hadmits.2 hcommand') hrest).2 hlater⟩

/-- **Identities stay apart exactly as long as every set is admitted.** In a run that begins with
a store without particles, all stores have strictly increasing and issued identities if and only if
each set was admitted by the store that took it in. -/
theorem orderly_throughout_iff {commands : List (Command α)} {last : Store α}
    (h : (empty : Store α).performAll commands = .ok last) :
    (∀ earlier s, earlier <+: commands → empty.performAll earlier = .ok s → s.Orderly) ↔
      ∀ earlier particles s, earlier ++ [.replaceAll particles] <+: commands →
        empty.performAll earlier = .ok s → s.Admits particles := by
  rw [orderly_empty.performAll_iff h]
  refine ⟨fun hall earlier particles s => hall earlier (.replaceAll particles) s, ?_⟩
  intro hall earlier command s hearlier hs
  cases command with
  | replaceAll particles => exact hall earlier particles s hearlier hs
  | spawn _ | kill _ | compact => trivial

omit [Scalar α] in
/-- Taking in a set that is in order before and after it is relabelled. -/
theorem replaceAll_of_sorted {s : Store α} {particles relabeled : List (Particle α)}
    {next : ParticleId} (hbefore : (particles.map Particle.id).Pairwise (· ≤ ·))
    (hrelabel : relabel none s.issued particles = .ok (next, relabeled))
    (hafter : (relabeled.map Particle.id).Pairwise (· ≤ ·)) :
    s.replaceAll particles = .ok ⟨relabeled.toArray, next⟩ := by
  have hsort {l : List (Particle α)} (h : (l.map Particle.id).Pairwise (· ≤ ·)) :
      sortById l = l :=
    List.mergeSort_of_pairwise (by simpa [List.pairwise_map] using h)
  rw [replaceAll, hsort hbefore, hrelabel]
  exact congrArg (fun l => Except.ok (⟨l.toArray, next⟩ : Store α)) (hsort hafter)

/-- A run that takes in a repetition of an issued identity, and nothing foreign. -/
theorem orderly_throughout_repetition :
    let commands : List (Command Single) :=
      [.spawn .standard, .replaceAll ([0, 0].map Birth.standard.withId)]
    ∃ last : Store Single, empty.performAll commands = .ok last ∧
      ∀ earlier s, earlier <+: commands → empty.performAll earlier = .ok s → s.Orderly := by
  intro commands
  have hspawn : (empty : Store Single).perform (.spawn .standard) =
      .ok ⟨#[Birth.standard.withId 0], 1⟩ := rfl
  have hreplace : (⟨#[Birth.standard.withId 0], 1⟩ : Store Single).perform
      (.replaceAll ([0, 0].map Birth.standard.withId)) =
        .ok ⟨([0, 1].map Birth.standard.withId).toArray, 2⟩ :=
    replaceAll_of_sorted (by decide) rfl (by decide)
  have hrun : empty.performAll commands =
      .ok ⟨([0, 1].map Birth.standard.withId).toArray, 2⟩ := by
    rw [performAll_cons hspawn, performAll_cons hreplace, performAll]
  refine ⟨_, hrun, (orderly_throughout_iff hrun).2 ?_⟩
  intro earlier particles s hearlier hs p hp hforeign
  -- the one set of this run is taken in behind the birth
  obtain ⟨rfl, rfl⟩ : earlier = [.spawn .standard] ∧
      particles = [0, 0].map Birth.standard.withId := by
    match earlier with
    | [] => simp [commands] at hearlier
    | [_] => simpa [commands] using hearlier
    | _ :: _ :: _ => simp [commands] at hearlier
  rw [performAll_cons hspawn] at hs
  cases hs
  simp only [List.map_cons, List.map_nil, List.mem_cons, List.not_mem_nil, or_false, or_self] at hp
  subst hp
  exact absurd hforeign (by decide)

/-- A set that repeats an identity and carries the one after it, which is foreign. The particle that
repeats is given the foreign identity, which then passes for issued and is kept as well. -/
theorem replaceAll_repeats_identity :
    ∃ s : Store Single,
      empty.performAll [.replaceAll ([0, 0, 1].map Birth.standard.withId)] = .ok s ∧
        s.particles.toList.map Particle.id = [0, 1, 1] ∧ ¬ s.Orderly := by
  have hreplace : (empty : Store Single).perform
      (.replaceAll ([0, 0, 1].map Birth.standard.withId)) =
        .ok ⟨([0, 1, 1].map Birth.standard.withId).toArray, 2⟩ :=
    replaceAll_of_sorted (by decide) rfl (by decide)
  refine ⟨_, performAll_cons hreplace [], rfl, ?_⟩
  rintro ⟨hincreasing, -⟩
  revert hincreasing
  decide

end Store

end ParticleDynamics
