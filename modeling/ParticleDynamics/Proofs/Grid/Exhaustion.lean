import ParticleDynamics.Proofs.Grid.Checked

/-!
# Searches come to an end

A search is asked for one index after the other. Each call goes through finitely many turns, as no
search can make turns forever (`RingCursor.wellFounded_follows`), and takes the head off the list of
indices that the search has ahead of it (`RingCursor.exists_next_ahead`). So the calls answer with
that list, one index each, and with nothing from then on: a search that has once answered with
nothing is past its last ring, and stays as it is (`RingCursor.enumerates_ahead`).

The list ahead follows the walk along the rings, so its indices fall in cells that are further and
further away from the cell of the centre (`RingCursor.pairwise_ahead`).
-/

namespace ParticleDynamics

/-- Whether two indices are live and the first one falls in a cell that is at most as far from a
centre as the cell of the second one. -/
def Bounds.Nearer {α : Type} [Scalar α] (b : Bounds α) (particles : Array (Particle α))
    (center : Cell) (index other : Nat) : Prop :=
  ∃ cell ∈ b.cellAt particles index, ∃ cell' ∈ b.cellAt particles other,
    cell.distance center ≤ cell'.distance center

namespace RingCursor

variable {α : Type} [Scalar α] {g : SlotGrid α} {particles : Array (Particle α)}
  {c : RingCursor α}

/-! ## Turns -/

/-- A turn leads from one search to the other. -/
def Follows (g : SlotGrid α) (later c : RingCursor α) : Prop :=
  ∃ t, turn g c = .ok t ∧ t.after = some later

/-- **No search makes turns forever**, wherever it stands. What is left of a search is a quadruple
that every turn lowers in lexicographic order. -/
theorem wellFounded_follows (g : SlotGrid α) : WellFounded (Follows g) :=
  Subrelation.wf (fun ⟨_, hturn, hafter⟩ => rest_turn hturn hafter)
    (InvImage.wf (rest g) (Prod.lex ⟨_, wellFounded_lt⟩
      (Prod.lex ⟨_, wellFounded_lt⟩ (Prod.lex ⟨_, wellFounded_lt⟩ ⟨_, wellFounded_lt⟩))).wf)

/-- A search that is past its last ring. -/
def Exhausted (c : RingCursor α) : Prop := c.cell = none ∧ c.maxRing < c.ring

/-- A search ends only past its last ring. -/
theorem exhausted_of_finished (h : turn g c = .ok .finished) : c.Exhausted := by
  cases hcell : c.cell with
  | some place =>
    simp only [turn, hcell] at h
    split at h
    next =>
      obtain ⟨⟨index, position⟩, -, h⟩ := bind_eq_ok_iff.1 h
      dsimp only at h
      split at h <;> cases h
    next => cases h
  | none =>
    simp only [turn, hcell] at h
    split at h
    next hring => exact ⟨hcell, hring⟩
    next => split at h <;> [cases h; split at h <;> cases h]

/-- **An exhausted search stays as it is.** -/
theorem Exhausted.stays (h : c.Exhausted) (g : SlotGrid α) :
    next g c = .ok (none, c) ∧ nextRaw g c = .ok (neighborEnd, c) := by
  have hnext : next g c = .ok (none, c) := next_of_exhausted h.1 h.2
  exact ⟨hnext, bind_eq_ok_iff.2 ⟨_, hnext, rfl⟩⟩

/-! ## Calls -/

/-- The answers to some calls, and the search as it stands after them. -/
def calls (g : SlotGrid α) (c : RingCursor α) :
    Nat → Except Breach (List (Option UInt32) × RingCursor α)
  | 0 => .ok ([], c)
  | count + 1 => do
    let (answer, later) ← next g c
    let (answers, last) ← calls g later count
    return (answer :: answers, last)

/-- A search that yields some indices, one with each call, and nothing from then on: after any
number of calls the next one answers with the index whose turn it is, in either way of asking, and
once there was none the search stays as it is. -/
def Enumerates (g : SlotGrid α) (c : RingCursor α) (found : List UInt32) : Prop :=
  ∀ count, ∃ last later, calls g c count = .ok ((List.range count).map (found[·]?), last) ∧
    next g last = .ok (found[count]?, later) ∧
    nextRaw g last = .ok (found[count]?.getD neighborEnd, later) ∧
    (found.length ≤ count →
      next g later = .ok (none, later) ∧ nextRaw g later = .ok (neighborEnd, later))

/-- **A call takes the head of the list ahead.** Where there is none, the search is exhausted. A
call may take many turns, but only the last of them takes something from the list. -/
theorem exists_next_ahead (hg : g.Built particles) (c : RingCursor α) :
    ∃ later, next g c = .ok ((c.ahead g particles).head?.map Nat.toUInt32, later) ∧
      later.ahead g particles = (c.ahead g particles).tail ∧
      (c.ahead g particles = [] → later.Exhausted) := by
  fun_induction next g c with
  -- a turn does not fail
  | case1 c breach hturn =>
    obtain ⟨t, ht, -⟩ := exists_turn hg c
    cases hturn.symm.trans ht
  -- it gives back the first index that is ahead
  | case2 c index later hturn =>
    obtain ⟨t, ht, hconsumes⟩ := exists_turn hg c
    cases hturn.symm.trans ht
    obtain ⟨i, rfl, hahead⟩ := hconsumes
    rw [hahead]
    exact ⟨later, rfl, rfl, fun hnone => (List.cons_ne_nil _ _ hnone).elim⟩
  -- it leaves what is ahead as it was, and the search goes on
  | case3 c later hturn ih =>
    obtain ⟨t, ht, hconsumes⟩ := exists_turn hg c
    cases hturn.symm.trans ht
    have hahead : c.ahead g particles = later.ahead g particles := hconsumes
    rw [hahead]
    exact ih
  -- it ends the search
  | case4 c hturn =>
    obtain ⟨t, ht, hconsumes⟩ := exists_turn hg c
    cases hturn.symm.trans ht
    have hahead : c.ahead g particles = [] := hconsumes
    rw [hahead]
    exact ⟨c, rfl, hahead, fun _ => exhausted_of_finished hturn⟩

/-- **Calls go through the list ahead.** -/
theorem exists_calls (hg : g.Built particles) (c : RingCursor α) (count : Nat) :
    ∃ last, calls g c count =
        .ok ((List.range count).map (((c.ahead g particles).map Nat.toUInt32)[·]?), last) ∧
      last.ahead g particles = (c.ahead g particles).drop count := by
  induction count generalizing c with
  | zero => exact ⟨c, rfl, rfl⟩
  | succ count ih =>
    obtain ⟨later, hnext, hahead, -⟩ := exists_next_ahead hg c
    obtain ⟨last, hlast, hdrop⟩ := ih later
    rw [hahead] at hlast hdrop
    refine ⟨last, bind_eq_ok_iff.2 ⟨_, hnext, bind_eq_ok_iff.2 ⟨_, hlast, ?_⟩⟩, ?_⟩
    · rw [List.range_succ_eq_map, List.map_cons, List.map_map]
      cases c.ahead g particles <;> rfl
    · rw [hdrop, List.drop_tail]

/-- **A search yields what it has ahead of it**, and then stays exhausted. The list is fixed when
the search starts, so this is also what two searches from the same place have in common. -/
theorem enumerates_ahead (hg : g.Built particles) (c : RingCursor α) :
    c.Enumerates g ((c.ahead g particles).map Nat.toUInt32) := by
  intro count
  obtain ⟨last, hlast, hdrop⟩ := exists_calls hg c count
  obtain ⟨later, hnext, -, hexhausted⟩ := exists_next_ahead hg last
  have hhead : (last.ahead g particles).head?.map Nat.toUInt32 =
      ((c.ahead g particles).map Nat.toUInt32)[count]? := by
    rw [hdrop, List.head?_drop, List.getElem?_map]
  rw [hhead] at hnext
  refine ⟨last, later, hlast, hnext, bind_eq_ok_iff.2 ⟨_, hnext, rfl⟩, fun hdone => ?_⟩
  rw [List.length_map] at hdone
  exact (hexhausted (hdrop.trans (List.drop_eq_nil_of_le hdone))).stays g

/-! ## The list ahead -/

/-- What a search finds in a cell of the grid falls in that cell. -/
theorem cellAt_of_mem_inSlots (hg : g.Built particles) {cell : Cell} (hcell : g.bounds.Has cell)
    {slot index : Nat} (h : index ∈ c.inSlots g particles (g.bounds.flatIndex cell) slot) :
    g.bounds.cellAt particles index = some cell := by
  have hoccupant := List.mem_of_mem_take (List.mem_of_mem_drop (List.mem_filter.1 h).1)
  rw [← Bounds.filter_cellAt_eq hg.proper hcell] at hoccupant
  exact beq_iff_eq.1 (List.mem_filter.1 hoccupant).2

/-- Before its first turn a search has the indices ahead of it that it finds in the cells of the
walk. -/
theorem ahead_eq_of_walk (hcell : c.cell = none)
    (hwalk : c.cellsAhead = Ring.walk c.center c.maxRing) :
    c.ahead g particles = (g.walked c.center c.maxRing).flatMap fun cell =>
      c.inSlots g particles (g.bounds.flatIndex cell) 0 := by
  rw [ahead, hcell, List.nil_append, hwalk]
  rfl

/-- Only cells of the grid are walked through. -/
theorem has_of_mem_walked (hg : g.Built particles) {center cell : Cell} {rings : Nat}
    (h : cell ∈ g.walked center rings) : g.bounds.Has cell :=
  (SlotGrid.contains_iff hg.proper).1 (List.mem_filter.1 h).2

/-- **What a search has ahead of it falls in a cell**, as only live indices do. -/
theorem exists_cellAt_of_mem_ahead (hg : g.Built particles) (hcell : c.cell = none)
    (hwalk : c.cellsAhead = Ring.walk c.center c.maxRing) {index : Nat}
    (h : index ∈ c.ahead g particles) : ∃ cell, g.bounds.cellAt particles index = some cell := by
  rw [ahead_eq_of_walk hcell hwalk] at h
  obtain ⟨cell, hmem, hindex⟩ := List.mem_flatMap.1 h
  exact ⟨cell, cellAt_of_mem_inSlots hg (has_of_mem_walked hg hmem) hindex⟩

/-- **A search goes outwards.** Rings are walked from the inside to the outside, and within a cell
all indices are equally near. -/
theorem pairwise_ahead (hg : g.Built particles) (hcell : c.cell = none)
    (hwalk : c.cellsAhead = Ring.walk c.center c.maxRing) :
    (c.ahead g particles).Pairwise (g.bounds.Nearer particles c.center) := by
  have hat {cell : Cell} {index : Nat} (hmem : cell ∈ g.walked c.center c.maxRing)
      (hindex : index ∈ c.inSlots g particles (g.bounds.flatIndex cell) 0) :
      cell ∈ g.bounds.cellAt particles index :=
    cellAt_of_mem_inSlots hg (has_of_mem_walked hg hmem) hindex
  rw [ahead_eq_of_walk hcell hwalk]
  refine List.pairwise_flatMap.2 ⟨fun cell hmem => ?_, ?_⟩
  · refine List.pairwise_of_forall_mem_list fun index hindex other hother => ?_
    exact ⟨cell, hat hmem hindex, cell, hat hmem hother, Nat.le_refl _⟩
  · have houtwards := (Ring.pairwise_walk c.center c.maxRing).filter g.contains
    refine houtwards.imp_of_mem fun {cell cell'} hmem hmem' hle => ?_
    exact fun index hindex other hother =>
      ⟨cell, hat hmem hindex, cell', hat hmem' hother, hle⟩

end RingCursor

namespace SlotGrid

open RingCursor in
/-- **Searches come to an end.** Over bounds of fewer than `2^15` cells on each axis, whatever was
indexed before, fewer than `2^32 - 1` particles can be indexed with all checks. No search of the
index then makes turns forever, and every point and radius have a search around the cell of the
point that passes the checks at every turn. There is a list of indices with which its calls answer,
one after the other, before they answer with nothing for ever; it is also what the search finds when
it is drained. These indices are live, none is `neighborEnd`, and no index falls in a cell that is
nearer to the cell of the point than that of an index before it. -/
theorem searches_end {g : SlotGrid Single}
    (hcols : 1 ≤ g.bounds.cols.toNat ∧ g.bounds.cols.toNat < 2 ^ 15)
    (hrows : 1 ≤ g.bounds.rows.toNat ∧ g.bounds.rows.toNat < 2 ^ 15)
    {particles : Array (Particle Single)} (hcount : particles.size < 2 ^ 32 - 1) :
    ∃ built, g.build particles = .ok built ∧ g.checkedBuild particles = .ok built ∧
      WellFounded (Follows built) ∧
      ∀ point radius, ∃ c found, start built point radius = .ok c ∧
        built.bounds.cellOf point = .ok c.center ∧
        (∀ later, Leads built c later → check built later = .ok ()) ∧
        c.Enumerates built found ∧ drain built c #[] = .ok found.toArray ∧
        (∀ index ∈ found, Particle.isLiveAt particles index.toNat = true ∧ index ≠ neighborEnd) ∧
        found.Pairwise fun index other =>
          built.bounds.Nearer particles c.center index.toNat other.toNat := by
  have hproper : g.bounds.Proper := ⟨hcols.1, by omega, hrows.1, by omega⟩
  have hfew : particles.size ≤ 2 ^ 32 := by omega
  obtain ⟨built, hbuild, hbounds, -, hbuilt⟩ := exists_build g hproper hfew
  obtain ⟨built', hbuild', -, haccounted, hchecks⟩ := exists_checkedBuild hproper particles
  obtain rfl : built = built' := Except.ok.inj (hbuild.symm.trans hbuild')
  have hlive : particles.countP Particle.isAlive ≤ particles.size := Array.countP_le_size
  rw [← hbounds] at hcols hrows
  refine ⟨built, hbuild, hchecks.eq_ok haccounted (by omega), wellFounded_follows built, fun point radius => ?_⟩
  obtain ⟨c, hstart, hcenter, hsteady, hcell, hwalk⟩ :=
    exists_start hbuilt.proper hcols.2 hrows.2 point radius
  -- what is found is the index of a particle, so it is a word below the last one
  have hword {index : Nat} (h : index ∈ c.ahead built particles) :
      index.toUInt32.toNat = index ∧ index < 2 ^ 32 - 1 := by
    obtain ⟨cell, hat⟩ := exists_cellAt_of_mem_ahead hbuilt hcell hwalk h
    have hlt := Bounds.lt_size_of_cellAt hat
    exact ⟨toNat_toUInt32 (by omega), by omega⟩
  refine ⟨c, _, hstart, hcenter, fun later hleads => ?checks, enumerates_ahead hbuilt c,
    ?drains, fun index hindex => ?lives, ?outwards⟩
  case checks => exact (hsteady.leads hbuilt.proper hleads).check_eq_ok hcols.2 hrows.2
  case drains => rw [drain_eq hbuilt c, Array.empty_append]
  case lives =>
    obtain ⟨i, hi, rfl⟩ := List.mem_map.1 hindex
    obtain ⟨hto, hlt⟩ := hword hi
    obtain ⟨cell, hat⟩ := exists_cellAt_of_mem_ahead hbuilt hcell hwalk hi
    refine ⟨?_, fun hend => ?_⟩
    · rw [hto, ← Bounds.isSome_cellAt hbuilt.proper, hat, Option.isSome_some]
    · have hlast : neighborEnd.toNat = 2 ^ 32 - 1 := rfl
      rw [hend] at hto
      omega
  case outwards =>
    refine List.pairwise_map.2 ((pairwise_ahead hbuilt hcell hwalk).imp_of_mem ?_)
    intro index other hindex hother hnearer
    rw [(hword hindex).1, (hword hother).1]
    exact hnearer

open RingCursor in
/-- A search among the twins, with one slot for the two of them and a centre and a radius that are
not numbers. -/
theorem searches_end_on_twins :
    (1 ≤ singleCell.cols.toNat ∧ singleCell.cols.toNat < 2 ^ 15) ∧
      (1 ≤ singleCell.rows.toNat ∧ singleCell.rows.toNat < 2 ^ 15) ∧
      twins.size < 2 ^ 32 - 1 ∧
      ∃ built c found, (create singleCell 1).checkedBuild twins = .ok built ∧
        start built ⟨.undefined, .undefined⟩ .undefined = .ok c ∧ c.Enumerates built found ∧
        ∀ index ∈ found, Particle.isLiveAt twins index.toNat = true ∧ index ≠ neighborEnd := by
  obtain ⟨built, -, hbuilt, -, hsearches⟩ :=
    @searches_end (create singleCell 1) (by decide) (by decide) twins (by decide)
  obtain ⟨c, found, hstart, -, -, henumerates, -, hfound, -⟩ :=
    hsearches ⟨.undefined, .undefined⟩ .undefined
  exact ⟨by decide, by decide, by decide, built, c, found, hbuilt, hstart, henumerates, hfound⟩

end SlotGrid

end ParticleDynamics
