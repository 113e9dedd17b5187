import ParticleDynamics.Proofs.Grid.Agreement
import ParticleDynamics.Proofs.Grid.Rings

/-!
# The slot index with all checks

The slot index is written with counters and slots that never fail: one that was never written holds
zero, and counters grow without limit. On a machine both are rows of a fixed length, and a counter
is a word. Here the checks are written out that a machine makes on the way:

* `SlotGrid.checkedBuild` is a build in which counters and slots have to exist, and in which a
  counter that overflows is a breach;
* `RingCursor.check` makes the checks of one turn of a search, of its counter and slot and of the
  signed words in which it walks along the rings.

Counters and slots always exist, because the places of the cells are those of the counters. What can
fail is the counting. Counters only grow during a build, so a build passes its checks exactly when
the counters that it ends with are words (`SlotGrid.exists_checkedBuild`, `SlotGrid.Counted`), which
they are when fewer than `2^32` particles are alive. A search keeps within the rings around a cell of
the grid (`RingCursor.Steady`) and passes all its checks (`RingCursor.Steady.check_eq_ok`).
-/

namespace ParticleDynamics

/-- An index into something of the given length, or a breach when it lies at or past the end. -/
def within (length index : Nat) : Except Breach Nat :=
  if index < length then .ok index else .error (.outOfBounds length index)

theorem within_eq_ok {length index : Nat} (h : index < length) : within length index = .ok index :=
  if_pos h

/-- Particles that words can count: fewer than `2^32` live ones in every cell, and fewer than `2^32`
that find their cell full. -/
structure Bounds.Countable {α : Type} [Scalar α] (b : Bounds α) (particles : Array (Particle α))
    (capacity : Nat) : Prop where
  crowd_lt : ∀ place, (b.occupants particles place particles.size).length < 2 ^ 32
  left_lt : ((List.range particles.size).filter fun index =>
    Particle.isLiveAt particles index && !b.stored particles capacity index).length < 2 ^ 32

/-- A cell with `2^32` live particles is not counted in a word. -/
theorem Bounds.not_countable_replicate {α : Type} [Scalar α] {b : Bounds α} (hproper : b.Proper)
    {p : Particle α} (halive : p.isAlive = true) {count : Nat} (hmany : 2 ^ 32 ≤ count)
    (capacity : Nat) : ¬ b.Countable (Array.replicate count p) capacity := by
  rintro ⟨hcrowds, -⟩
  have hcrowd := hcrowds (b.flatIndex (b.nearest (b.freeCell p.position)))
  -- all of them fall in the cell of their common position
  have hall : b.occupants (Array.replicate count p)
      (b.flatIndex (b.nearest (b.freeCell p.position))) count = List.range count := by
    refine List.filter_eq_self.2 fun index hindex => beq_iff_eq.2 ?_
    have hp : (Array.replicate count p)[index]? = some p := by
      rw [Array.getElem?_replicate, if_pos (List.mem_range.1 hindex)]
    rw [(Bounds.cellAt_eq_some_iff hproper).2 ⟨p, hp, halive, rfl⟩, Option.map_some]
  rw [Array.size_replicate, hall, List.length_range] at hcrowd
  omega

namespace SlotGrid

variable {α : Type} [Scalar α]

/-! ## Building -/

/-- The checks when a particle asks the cell at a place for a slot. The counter has to exist and to
have room for one more, and the slot has to exist, if there is one; otherwise the number of dropped
particles has to have room for one more. -/
def checkFiled (g : SlotGrid α) (place : Nat) : Except Breach Unit := do
  let _ ← within g.bounds.cellCount place
  let _ ← fitWord "add" (g.asked place + 1)
  let _ ← if g.asked place < g.capacity.toNat then
      within (g.bounds.cellCount * g.capacity.toNat) (g.slotPlace place (g.asked place))
    else fitWord "add" (g.dropped + 1)
  return ()

/-- The index with one more particle, with all checks. -/
def checkedInsert (g : SlotGrid α) (index : Nat) (p : Particle α) : Except Breach (SlotGrid α) :=
  if p.isAlive then do
    let cell ← g.bounds.cellOf p.position
    g.checkFiled (g.bounds.flatIndex cell)
    return g.filed (g.bounds.flatIndex cell) index
  else
    .ok g

/-- The index with the particles of a list inserted in order, with all checks. -/
def checkedInsertFrom (g : SlotGrid α) (index : Nat) :
    List (Particle α) → Except Breach (SlotGrid α)
  | [] => .ok g
  | p :: rest => do checkedInsertFrom (← g.checkedInsert index p) (index + 1) rest

/-- The index of the given particles, with all checks. -/
def checkedBuild (g : SlotGrid α) (particles : Array (Particle α)) : Except Breach (SlotGrid α) :=
  checkedInsertFrom { g.clear with positions := particles.map Particle.position } 0 particles.toList

omit [Scalar α] in
/-- The slots of a cell of the grid exist. -/
theorem slotPlace_lt {g : SlotGrid α} {place slot : Nat} (hplace : place < g.bounds.cellCount)
    (hslot : slot < g.capacity.toNat) :
    g.slotPlace place slot < g.bounds.cellCount * g.capacity.toNat := by
  have hrow : (place + 1) * g.capacity.toNat ≤ g.bounds.cellCount * g.capacity.toNat :=
    Nat.mul_le_mul_right _ hplace
  rw [Nat.add_mul, Nat.one_mul] at hrow
  rw [slotPlace]
  omega

/-- No counter exceeds the number of particles that have asked so far, and every slot that means
something holds an index with a captured position. -/
structure Accounted (g : SlotGrid α) (total : Nat) : Prop where
  asked_le : ∀ place, g.asked place ≤ total
  dropped_le : g.dropped ≤ total
  placed : ∀ place slot, slot < g.filled place → (g.held place slot).toNat < g.positions.size

/-- Every counter is a word, the number of dropped particles included. -/
structure Counted (g : SlotGrid α) : Prop where
  asked_lt : ∀ place, g.asked place < 2 ^ 32
  dropped_lt : g.dropped < 2 ^ 32

/-- What the checks on the way to an index come to: they pass if the index counts in words, and
break at an addition otherwise. -/
def Checks (g : SlotGrid α) (outcome : Except Breach (SlotGrid α)) : Prop :=
  g.Counted ∧ outcome = .ok g ∨ ¬ g.Counted ∧ outcome = .error (.overflow "add")

section

variable {g : SlotGrid α} {total : Nat}

omit [Scalar α] in
/-- Few particles are counted in words. -/
theorem Accounted.counted (hg : g.Accounted total) (hfew : total < 2 ^ 32) : g.Counted :=
  ⟨fun place => (hg.asked_le place).trans_lt hfew, hg.dropped_le.trans_lt hfew⟩

omit [Scalar α] in
/-- Where a particle can be counted, the ones before it could. -/
theorem Counted.of_filed {place index : Nat} (h : (g.filed place index).Counted) : g.Counted := by
  refine ⟨fun other => ?_, ?_⟩
  · have hasked := h.asked_lt other
    rw [asked_filed] at hasked
    exact (Nat.le_add_right ..).trans_lt hasked
  · have hdropped := h.dropped_lt
    rw [dropped_filed] at hdropped
    exact (Nat.le_add_right ..).trans_lt hdropped

omit [Scalar α] in
/-- Counting one more particle of a cell leaves the counters words when its own counter has room,
and that of the dropped particles too if no slot is left. -/
theorem Counted.filed_iff (hg : g.Counted) {place index : Nat} :
    (g.filed place index).Counted ↔ g.asked place + 1 < 2 ^ 32 ∧
      (g.asked place < g.capacity.toNat ∨ g.dropped + 1 < 2 ^ 32) := by
  constructor
  · intro h
    have hasked := h.asked_lt place
    have hdropped := h.dropped_lt
    rw [asked_filed, if_pos rfl] at hasked
    rw [dropped_filed] at hdropped
    refine ⟨hasked, or_iff_not_imp_left.2 fun hfull => ?_⟩
    rwa [if_neg hfull] at hdropped
  · rintro ⟨hasked, hroom⟩
    refine ⟨fun other => ?_, ?_⟩
    · rw [asked_filed]
      split
      next heq => exact heq ▸ hasked
      next => exact hg.asked_lt other
    · rw [dropped_filed]
      split
      next => exact hg.dropped_lt
      next hfull => exact hroom.resolve_left hfull

omit [Scalar α] in
/-- **A particle that asks for a slot passes the checks exactly when it can be counted.** The
counter itself is always there, because the place is that of a cell. -/
theorem Counted.checkFiled (hg : g.Counted) {place index : Nat}
    (hplace : place < g.bounds.cellCount) :
    (g.filed place index).Checks (do
      g.checkFiled place
      return g.filed place index) := by
  rw [Checks, hg.filed_iff, SlotGrid.checkFiled, within_eq_ok hplace]
  by_cases hcount : g.asked place + 1 < 2 ^ 32
  · rw [fitWord_eq_ok hcount]
    dsimp only [bind, Except.bind, pure, Except.pure]
    split_ifs with hslot
    · rw [within_eq_ok (slotPlace_lt hplace hslot)]
      exact .inl ⟨⟨hcount, .inl hslot⟩, rfl⟩
    · by_cases hdrop : g.dropped + 1 < 2 ^ 32
      · rw [fitWord_eq_ok hdrop]
        exact .inl ⟨⟨hcount, .inr hdrop⟩, rfl⟩
      · rw [fitWord_eq_error (Nat.not_lt.1 hdrop)]
        exact .inr ⟨fun h => h.2.elim hslot hdrop, rfl⟩
  · rw [fitWord_eq_error (Nat.not_lt.1 hcount)]
    exact .inr ⟨fun h => hcount h.1, rfl⟩

omit [Scalar α] in
theorem Accounted.filed (hg : g.Accounted total) (place : Nat) {index : Nat}
    (hindex : index < g.positions.size) : (g.filed place index).Accounted (total + 1) := by
  obtain ⟨-, hcapacity, hpositions⟩ := keeps_filed g place index
  refine ⟨fun other => ?_, ?_, fun other slot hslot => ?_⟩
  · have hasked := hg.asked_le other
    rw [asked_filed]
    split <;> omega
  · have hdropped := hg.dropped_le
    rw [dropped_filed]
    split <;> omega
  · rw [filled, asked_filed, hcapacity] at hslot
    rw [hpositions, held_filed g (by omega)]
    split
    next => exact Nat.lt_of_le_of_lt (Nat.mod_le _ _) hindex
    next hother =>
      -- the slots before the new one meant something already
      refine hg.placed other slot ?_
      rw [filled]
      split at hslot
      next hplace =>
        subst hplace
        have hne : g.asked place ≠ slot := fun heq => hother ⟨rfl, heq⟩
        omega
      next => omega

/-- One round of a build. -/
theorem Accounted.exists_insert (hg : g.Accounted total) (hproper : g.bounds.Proper) {index : Nat}
    (hindex : index < g.positions.size) (p : Particle α) :
    ∃ g', g.insert index p = .ok g' ∧ g'.Keeps g ∧
      g'.Accounted (total + if p.isAlive then 1 else 0) ∧
      (g'.Counted → g.Counted) ∧ (g.Counted → g'.Checks (g.checkedInsert index p)) := by
  rw [checkedInsert]
  cases halive : p.isAlive with
  | false =>
    exact ⟨g, insert_eq_ok_iff.2 (.inl ⟨halive, rfl⟩), .refl g, hg, id,
      fun hcounted => .inl ⟨hcounted, rfl⟩⟩
  | true =>
    have hcell := Bounds.cellOf_eq hproper p.position
    have hplace := Bounds.flatIndex_lt (Bounds.has_nearest hproper (g.bounds.freeCell p.position))
    refine ⟨_, insert_eq_ok_iff.2 (.inr ⟨halive, _, hcell, rfl⟩), keeps_filed ..,
      hg.filed _ hindex, Counted.of_filed, fun hcounted => ?_⟩
    rw [if_pos rfl, hcell]
    exact hcounted.checkFiled hplace

/-- The rest of a build. Where a round breaks, no later index counts in words, because counters
never go back. -/
theorem Accounted.exists_insertFrom {particles : List (Particle α)} {index : Nat}
    (hg : g.Accounted total) (hproper : g.bounds.Proper)
    (hroom : index + particles.length ≤ g.positions.size) :
    ∃ g', g.insertFrom index particles = .ok g' ∧ g'.Keeps g ∧
      g'.Accounted (total + particles.countP Particle.isAlive) ∧
      (g'.Counted → g.Counted) ∧
      (g.Counted → g'.Checks (g.checkedInsertFrom index particles)) := by
  induction particles generalizing g index total with
  | nil => exact ⟨g, rfl, .refl g, hg, id, fun hcounted => .inl ⟨hcounted, rfl⟩⟩
  | cons p rest ih =>
    rw [List.length_cons] at hroom
    rw [List.countP_cons, Nat.add_comm (rest.countP _), ← Nat.add_assoc]
    have hindex : index < g.positions.size := by omega
    obtain ⟨between, hinsert, hkeeps, hbetween, hgrown, hchecks⟩ :=
      hg.exists_insert hproper hindex p
    have hroom' : index + 1 + rest.length ≤ between.positions.size := by
      rw [hkeeps.positions_eq]
      omega
    obtain ⟨g', hrest, hkeeps', hg', hgrown', hchecks'⟩ :=
      ih hbetween (hkeeps.bounds_eq ▸ hproper) hroom'
    refine ⟨g', bind_eq_ok_iff.2 ⟨between, hinsert, hrest⟩, hkeeps'.trans hkeeps, hg',
      hgrown ∘ hgrown', fun hcounted => ?_⟩
    rw [checkedInsertFrom]
    rcases hchecks hcounted with ⟨hbetween', hchecked⟩ | ⟨hmany, hchecked⟩
    · rw [hchecked]
      exact hchecks' hbetween'
    · rw [hchecked]
      exact .inr ⟨fun hend => hmany (hgrown' hend), rfl⟩

omit [Scalar α] in
/-- Where nothing was counted, nothing has to be accounted for. -/
theorem accounted_of_uncounted (hasked : ∀ place, g.asked place = 0) (hdropped : g.dropped = 0) :
    g.Accounted 0 := by
  refine ⟨fun place => (hasked place).le, hdropped.le, fun place slot hslot => ?_⟩
  rw [filled, hasked] at hslot
  omega

/-- **A build passes all checks exactly when it ends with counters that are words**, whatever was
indexed before, and otherwise breaks where a counter overflows. It never looks for a counter, a slot
or a position that does not exist. -/
theorem exists_checkedBuild (hproper : g.bounds.Proper) (particles : Array (Particle α)) :
    ∃ g', g.build particles = .ok g' ∧ g'.bounds = g.bounds ∧
      g'.Accounted (particles.countP Particle.isAlive) ∧ g'.Checks (g.checkedBuild particles) := by
  let cleared : SlotGrid α := { g.clear with positions := particles.map Particle.position }
  have hempty : cleared.Accounted 0 := accounted_of_uncounted g.asked_clear rfl
  have hroom : 0 + particles.toList.length ≤ cleared.positions.size := by
    rw [Array.size_map, Array.length_toList]
    omega
  obtain ⟨g', hbuild, hkeeps, hg', -, hchecks⟩ := hempty.exists_insertFrom hproper hroom
  rw [Nat.zero_add, Array.countP_toList] at hg'
  exact ⟨g', hbuild, hkeeps.bounds_eq, hg', hchecks (hempty.counted (by decide))⟩

omit [Scalar α] in
/-- Fewer live particles than a word can count are indexed with all checks. -/
theorem Checks.eq_ok {outcome : Except Breach (SlotGrid α)} (h : g.Checks outcome)
    (hg : g.Accounted total) (hfew : total < 2 ^ 32) : outcome = .ok g :=
  (h.resolve_right fun hmany => hmany.1 (hg.counted hfew)).2

/-- **An index counts in words exactly when the crowds are small**: fewer than `2^32` live particles
in every cell, and fewer than `2^32` that found theirs full. -/
theorem Holds.counted_iff {particles : Array (Particle α)} (hg : g.Holds particles particles.size) :
    g.Counted ↔ g.bounds.Countable particles g.capacity.toNat := by
  constructor
  · rintro ⟨hasked, hdropped⟩
    exact ⟨fun place => hg.asked_eq place ▸ hasked place, hg.dropped_eq ▸ hdropped⟩
  · rintro ⟨hcrowds, hleft⟩
    exact ⟨fun place => (hg.asked_eq place).symm ▸ hcrowds place, hg.dropped_eq.symm ▸ hleft⟩

/-- **`2^32` live particles at one position overflow the counter of their cell.** All of them ask
the same cell, so its counter is their number in the end, and it grows one by one. -/
theorem checkedBuild_replicate (hproper : g.bounds.Proper) {p : Particle α}
    (halive : p.isAlive = true) {count : Nat} (hmany : 2 ^ 32 ≤ count) :
    g.checkedBuild (Array.replicate count p) = .error (.overflow "add") := by
  obtain ⟨built, hbuild, -, -, hchecks⟩ := g.exists_checkedBuild hproper (Array.replicate count p)
  obtain ⟨built', hbuild', hkeeps, hholds⟩ := g.exists_holding (Array.replicate count p) hproper
  obtain rfl : built = built' := Except.ok.inj (hbuild.symm.trans hbuild')
  refine (hchecks.resolve_left fun hfits => ?_).2
  rw [hholds.counted_iff, hkeeps.bounds_eq] at hfits
  exact Bounds.not_countable_replicate hproper halive hmany _ hfits.1

end

end SlotGrid

/-! ## Searching -/

namespace RingCursor

variable {α : Type} [Scalar α]

/-- The checks of a turn. The counter and the slot that are read have to exist, and the numbers of
the next slot, ring and place have to fit their words, as does the way to the next place. -/
def check (g : SlotGrid α) (c : RingCursor α) : Except Breach Unit :=
  match c.cell with
  | some place => do
    let _ ← within g.bounds.cellCount place
    if c.slot < g.filled place then
      let _ ← within (g.bounds.cellCount * g.capacity.toNat) (g.slotPlace place c.slot)
      let _ ← fitWord "add" (c.slot + 1)
      return ()
    else return ()
  | none =>
    if c.maxRing < c.ring then .ok ()
    else do
      let places ← Ring.signedLength c.ring
      if places ≤ c.k then
        let _ ← fitSigned "add" (c.ring + 1)
        return ()
      else
        let offset ← Ring.signedOffset c.ring c.k
        let _ ← fitSigned "add" (c.center.x + offset.x)
        let _ ← fitSigned "add" (c.center.y + offset.y)
        let _ ← fitSigned "add" (c.k + 1)
        return ()

/-- The searches that turns lead to. -/
inductive Leads (g : SlotGrid α) (c : RingCursor α) : RingCursor α → Prop where
  /-- no turn was made -/
  | refl : Leads g c c
  /-- one more turn was made -/
  | turn {before later : RingCursor α} {t : Turn α} (h : Leads g c before)
      (hturn : turn g before = .ok t) (hafter : t.after = some later) : Leads g c later

/-- A search that walks along the rings around a cell of the grid and reads cells of the grid. -/
structure Steady (g : SlotGrid α) (c : RingCursor α) : Prop where
  has_center : g.bounds.Has c.center
  maxRing_lt : c.maxRing < 2 ^ 15
  ring_le : c.ring ≤ c.maxRing + 1
  k_le : c.k ≤ c.places
  open_lt : ∀ place, c.cell = some place → place < g.bounds.cellCount

variable {g : SlotGrid α} {c : RingCursor α}

theorem length_mem {ring : Nat} (hring : ring ≤ 2 ^ 15) :
    0 ≤ Ring.length ring ∧ Ring.length ring ≤ 2 ^ 18 := by
  rw [Ring.length]
  split <;> omega

omit [Scalar α] in
/-- **A turn of a steady search passes the checks.** There are fewer than `2^15` cells on an axis,
so the sums on the way stay far below what a signed word can hold. -/
theorem Steady.check_eq_ok (h : c.Steady g) (hcols : g.bounds.cols.toNat < 2 ^ 15)
    (hrows : g.bounds.rows.toNat < 2 ^ 15) : check g c = .ok () := by
  obtain ⟨⟨hx, hx', hy, hy'⟩, hmax, hring, hk, hopen⟩ := h
  rw [check]
  cases hcell : c.cell with
  | some place =>
    -- an open cell is one of the grid, so its count and its slots are there
    have hplace := hopen place hcell
    dsimp only
    rw [within_eq_ok hplace]
    change (if c.slot < g.filled place then _ else _) = _
    split
    next hslot =>
      have hcapacity : c.slot < g.capacity.toNat := Nat.lt_of_lt_of_le hslot (Nat.min_le_right ..)
      have hword := g.capacity.toNat_lt
      rw [within_eq_ok (SlotGrid.slotPlace_lt hplace hcapacity), fitWord_eq_ok (by omega)]
      rfl
    next => rfl
  | none =>
    dsimp only
    split
    next => rfl
    next hwalks =>
      -- no ring is reached whose length or whose offsets leave the signed words
      have hring' : c.ring ≤ 2 ^ 15 := by omega
      obtain ⟨hlength, hlength'⟩ := length_mem hring'
      rw [Ring.signedLength, fitSigned_eq_ok (by omega) (by omega)]
      change (if Ring.length c.ring ≤ c.k then _ else _) = _
      split
      next =>
        -- the number of the next ring
        rw [fitSigned_eq_ok (by omega) (by omega)]
        rfl
      next hplaces =>
        -- the place on the ring, then the cell it leads to, in both directions
        have hplace : c.k < (Ring.length c.ring).toNat := by omega
        obtain ⟨hox, hox', hoy, hoy'⟩ := Ring.offset_mem hplace
        exact bind_eq_ok_iff.2 ⟨_, Ring.signedOffset_eq (by omega) hplace,
          bind_eq_ok_iff.2 ⟨_, fitSigned_eq_ok (by omega) (by omega),
            bind_eq_ok_iff.2 ⟨_, fitSigned_eq_ok (by omega) (by omega),
              bind_eq_ok_iff.2 ⟨_, fitSigned_eq_ok (by omega) (by omega), rfl⟩⟩⟩⟩

/-- **All that a turn can leave behind**: inside a cell it goes on by a slot or leaves the cell, and
between cells it goes on by a ring or by a place, and opens the cell there if the grid has it. -/
theorem after_cases {t : Turn α} {later : RingCursor α} (h : turn g c = .ok t)
    (hlater : t.after = some later) :
    (∃ place, c.cell = some place ∧
        (c.slot < g.filled place ∧ later = { c with slot := c.slot + 1 } ∨
          g.filled place ≤ c.slot ∧ later = { c with cell := none })) ∨
      c.cell = none ∧ c.ring ≤ c.maxRing ∧
        (c.places ≤ c.k ∧ later = { c with ring := c.ring + 1, k := 0 } ∨
          c.k < c.places ∧
            (g.contains c.target = true ∧ later = { c with
                k := c.k + 1, cell := some (g.bounds.flatIndex c.target), slot := 0 } ∨
              g.contains c.target = false ∧ later = { c with k := c.k + 1 })) := by
  cases hcell : c.cell with
  | some place =>
    simp only [turn, hcell] at h
    split at h
    next hslot =>
      -- an entry of the cell that is open: it is passed over or given back, the search is one on
      obtain ⟨⟨index, position⟩, -, h⟩ := bind_eq_ok_iff.1 h
      dsimp only at h
      split at h <;> obtain rfl := Except.ok.inj h <;> obtain rfl := Option.some.inj hlater <;>
        exact .inl ⟨place, rfl, .inl ⟨hslot, rfl⟩⟩
    next hslot =>
      -- the cell has no more entries and is closed
      obtain rfl := Except.ok.inj h
      obtain rfl := Option.some.inj hlater
      exact .inl ⟨place, rfl, .inr ⟨Nat.not_lt.1 hslot, rfl⟩⟩
  | none =>
    simp only [turn, hcell] at h
    split at h
    next =>
      -- behind the last ring nothing comes after
      obtain rfl := Except.ok.inj h
      cases hlater
    next hring =>
      refine .inr ⟨rfl, Nat.not_lt.1 hring, ?_⟩
      split at h
      next hk =>
        -- the ring has been walked: the next one begins
        obtain rfl := Except.ok.inj h
        obtain rfl := Option.some.inj hlater
        exact .inl ⟨hk, rfl⟩
      next hk =>
        refine .inr ⟨Nat.not_le.1 hk, ?_⟩
        split at h
        next hcontains =>
          -- a place of the ring is opened if it is a cell of the grid, and passed over otherwise
          obtain rfl := Except.ok.inj h
          obtain rfl := Option.some.inj hlater
          exact .inl ⟨hcontains, rfl⟩
        next hcontains =>
          obtain rfl := Except.ok.inj h
          obtain rfl := Option.some.inj hlater
          exact .inr ⟨Bool.eq_false_iff.2 hcontains, rfl⟩

/-- **A turn keeps a search steady.** Only the turn that opens a cell has something to show, which
is that the grid has this cell. -/
theorem Steady.after (h : c.Steady g) (hproper : g.bounds.Proper) {t : Turn α}
    {later : RingCursor α} (hturn : turn g c = .ok t) (hlater : t.after = some later) :
    later.Steady g := by
  obtain ⟨hcenter, hmax, hring, hk, hopen⟩ := h
  rcases after_cases hturn hlater with ⟨place, hcell, ⟨-, rfl⟩ | ⟨-, rfl⟩⟩ |
    ⟨hcell, hwalks, ⟨-, rfl⟩ | ⟨hplace, ⟨hcontains, rfl⟩ | ⟨-, rfl⟩⟩⟩
  · exact ⟨hcenter, hmax, hring, hk, hopen⟩
  · exact ⟨hcenter, hmax, hring, hk, nofun⟩
  · exact ⟨hcenter, hmax, Nat.succ_le_succ hwalks, Nat.zero_le _, hopen⟩
  · refine ⟨hcenter, hmax, hring, hplace, fun place hopened => ?_⟩
    obtain rfl := Option.some.inj hopened
    exact Bounds.flatIndex_lt ((SlotGrid.contains_iff hproper).1 hcontains)
  · exact ⟨hcenter, hmax, hring, hplace, hopen⟩

theorem Steady.leads (h : c.Steady g) (hproper : g.bounds.Proper) {later : RingCursor α}
    (hleads : Leads g c later) : later.Steady g := by
  induction hleads with
  | refl => exact h
  | turn _ hturn hafter ih => exact ih.after hproper hturn hafter

/-- **Every search starts**, steady and with nothing visited yet. -/
theorem exists_start {g : SlotGrid Single} (hproper : g.bounds.Proper)
    (hcols : g.bounds.cols.toNat < 2 ^ 15) (hrows : g.bounds.rows.toNat < 2 ^ 15)
    (point : Vec2 Single) (radius : Single) :
    ∃ c, start g point radius = .ok c ∧ g.bounds.cellOf point = .ok c.center ∧ c.Steady g ∧
      c.cell = none ∧ c.cellsAhead = Ring.walk c.center c.maxRing := by
  have hcell := Bounds.cellOf_eq hproper point
  obtain ⟨rings, hrings, hfew⟩ := Bounds.exists_ringsFor hcols hrows radius
  exact ⟨_, bind_eq_ok_iff.2 ⟨_, hcell, bind_eq_ok_iff.2 ⟨rings, hrings, rfl⟩⟩, hcell,
    ⟨Bounds.has_nearest hproper _, hfew, Nat.zero_le _, Nat.zero_le _, nofun⟩, rfl,
    cellsAhead_start rfl rfl⟩

/-- **Every turn has an outcome**, because the slots that mean something hold indices with a
position. -/
theorem exists_turn_of_accounted {total : Nat} (hg : g.Accounted total) (c : RingCursor α) :
    ∃ t, turn g c = .ok t := by
  rw [turn]
  split
  next place hcell =>
    split
    next hslot =>
      have hposition := Array.getElem?_eq_getElem (hg.placed place c.slot hslot)
      have hentry : g.entry place c.slot = .ok (g.held place c.slot, _) :=
        bind_eq_ok_iff.2 ⟨_, fetch_eq_ok_iff.2 hposition, rfl⟩
      rw [hentry]
      dsimp only [bind, Except.bind]
      split <;> exact ⟨_, rfl⟩
    next => exact ⟨_, rfl⟩
  next hcell =>
    split
    next => exact ⟨_, rfl⟩
    next =>
      split
      next => exact ⟨_, rfl⟩
      next => split <;> exact ⟨_, rfl⟩

theorem Leads.trans {later last : RingCursor α} (h : Leads g c later) (h' : Leads g later last) :
    Leads g c last := by
  induction h' with
  | refl => exact h
  | turn _ hturn hafter ih => exact ih.turn hturn hafter

/-- **Every search can be asked for the next index**, and turns lead to where it stands then. -/
theorem exists_next {total : Nat} (hg : g.Accounted total) (c : RingCursor α) :
    ∃ found later, next g c = .ok (found, later) ∧ Leads g c later := by
  fun_induction next g c with
  | case1 c breach hturn =>
    obtain ⟨t, ht⟩ := exists_turn_of_accounted hg c
    cases hturn.symm.trans ht
  | case2 c index later hturn => exact ⟨_, _, rfl, .turn .refl hturn rfl⟩
  | case3 c later hturn ih =>
    obtain ⟨found, last, hnext, hleads⟩ := ih
    exact ⟨found, last, hnext, (Leads.turn .refl hturn rfl).trans hleads⟩
  | case4 c hturn => exact ⟨_, _, rfl, .refl⟩

/-- **Every search comes to an end.** The recursion is that of the search itself, which ends because
every turn lowers what is left of it. -/
theorem exists_drain {total : Nat} (hg : g.Accounted total) (c : RingCursor α)
    (found : Array UInt32) : ∃ result, drain g c found = .ok result := by
  fun_induction drain g c found with
  | case1 c found breach hturn =>
    obtain ⟨t, ht⟩ := exists_turn_of_accounted hg c
    cases hturn.symm.trans ht
  | case2 c found index later hturn ih => exact ih
  | case3 c found later hturn ih => exact ih
  | case4 c found hturn => exact ⟨found, rfl⟩

end RingCursor

end ParticleDynamics
