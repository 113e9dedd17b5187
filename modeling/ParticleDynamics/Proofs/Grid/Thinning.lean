import ParticleDynamics.Proofs.Grid.Buckets

/-!
# An index that is out of date

Between two builds of an index particles die. The index goes on finding them, so whoever uses it has
to leave out the dead. What is left is what an index built anew would find, provided that the living
are where they were when the index was built (`BucketGrid.Tidy.exists_query_eq`).

When nothing has happened since the build, nothing is to be left out: an index finds no dead
particles. And what an index held before it was built has no part in what it finds.
-/

namespace ParticleDynamics

variable {α : Type} [Scalar α]

/-- Some time later, the living are among those who lived earlier, and where these were. -/
structure Thins (earlier later : Array (Particle α)) : Prop where
  size_eq : later.size = earlier.size
  stands : ∀ (index : Nat) (p : Particle α), later[index]? = some p → p.isAlive = true →
    ∃ q, earlier[index]? = some q ∧ q.isAlive = true ∧ q.position = p.position

theorem Thins.refl (particles : Array (Particle α)) : Thins particles particles :=
  ⟨rfl, fun _ p hp halive => ⟨p, hp, halive, rfl⟩⟩

theorem Particle.exists_of_isLiveAt {particles : Array (Particle α)} {index : Nat}
    (h : Particle.isLiveAt particles index = true) :
    ∃ p, particles[index]? = some p ∧ p.isAlive = true :=
  (Option.any_eq_true ..).1 h

namespace Thins

variable {earlier later : Array (Particle α)} (h : Thins earlier later)

include h

theorem isLiveAt {index : Nat} (hlive : Particle.isLiveAt later index = true) :
    Particle.isLiveAt earlier index = true := by
  obtain ⟨p, hp, halive⟩ := Particle.exists_of_isLiveAt hlive
  obtain ⟨q, hq, halive', -⟩ := h.stands index p hp halive
  rw [Particle.isLiveAt, hq, Option.any_some, halive']

/-- Who is alive is in the cell that it was in. -/
theorem cellAt_eq (b : Bounds α) {index : Nat} (hlive : Particle.isLiveAt later index = true) :
    b.cellAt later index = b.cellAt earlier index := by
  obtain ⟨p, hp, halive⟩ := Particle.exists_of_isLiveAt hlive
  obtain ⟨q, hq, halive', hposition⟩ := h.stands index p hp halive
  rw [Bounds.cellAt, Bounds.cellAt, hp, hq, Option.filter_some_pos halive,
    Option.filter_some_pos halive', Option.bind_some, Option.bind_some, hposition]

/-- Who is alive is kept by a search that kept it. -/
theorem keeps_eq (s : BucketGrid.Search α) {index : Nat}
    (hlive : Particle.isLiveAt later index = true) :
    s.keeps later index = s.keeps earlier index := by
  obtain ⟨p, hp, halive⟩ := Particle.exists_of_isLiveAt hlive
  obtain ⟨q, hq, -, hposition⟩ := h.stands index p hp halive
  rw [BucketGrid.Search.keeps, BucketGrid.Search.keeps, hp, hq, Option.any_some, Option.any_some,
    hposition]

/-- The occupants of a place are those of its earlier occupants who are still alive. -/
theorem occupants_eq (b : Bounds α) (place count : Nat) :
    b.occupants later place count =
      (b.occupants earlier place count).filter (Particle.isLiveAt later) := by
  rw [Bounds.occupants, Bounds.occupants, List.filter_filter]
  refine List.filter_congr fun index _ => ?_
  cases hlive : Particle.isLiveAt later index with
  | true => rw [h.cellAt_eq b hlive, Bool.true_and]
  | false =>
    have hnone : b.cellAt later index = none := by
      cases hp : later[index]? with
      | none => rw [Bounds.cellAt, hp]; rfl
      | some p =>
        rw [Particle.isLiveAt, hp, Option.any_some] at hlive
        exact Bounds.cellAt_of_dead hp hlive
    rw [hnone, Bool.false_and]
    rfl

/-- Going through cells meets those met earlier who are still alive. -/
theorem gather_eq (b : Bounds α) (s : BucketGrid.Search α) (cells : List Cell) :
    b.gather later (s.keeps later) cells =
      (b.gather earlier (s.keeps earlier) cells).filter (Particle.isLiveAt later) := by
  induction cells with
  | nil => rfl
  | cons cell rest ih =>
    rw [Bounds.gather_cons, Bounds.gather_cons, List.filter_append, ih, h.size_eq,
      h.occupants_eq, List.filter_filter, List.filter_filter]
    congr 1
    refine List.filter_congr fun index _ => ?_
    cases hlive : Particle.isLiveAt later index with
    | true => rw [h.keeps_eq s hlive, Bool.and_true, Bool.true_and]
    | false => rw [Bool.and_false, Bool.false_and]

end Thins

namespace Bounds

variable {b : Bounds α}

omit [Scalar α] in
/-- An axis with a cell that can be counted is neither too short nor too long. -/
theorem toNat_of_lastCell {count : UInt32} {last : Int} (h : lastCell count = .ok last)
    (hlast : 0 ≤ last) : 0 < count.toNat ∧ count.toNat < 2 ^ 31 := by
  rw [lastCell] at h
  split at h
  next => cases h
  next =>
    obtain rfl := Except.ok.inj h
    have hlt := count.toNat_lt
    have hsigned : count.toInt32.toInt = count.toBitVec.toInt := rfl
    rw [hsigned, BitVec.toInt_eq_toNat_cond] at hlast
    have hnat : count.toBitVec.toNat = count.toNat := rfl
    rw [hnat] at hlast
    split at hlast
    · omega
    · omega

/-- Bounds that have a cell for one position have one for every position. -/
theorem proper_of_cellOf {position : Vec2 α} {cell : Cell} (h : b.cellOf position = .ok cell) :
    b.Proper := by
  obtain ⟨⟨hx, lastX, hlastX, hx'⟩, hy, lastY, hlastY, hy'⟩ := cellOf_mem h
  obtain ⟨hcols, hcols'⟩ := toNat_of_lastCell hlastX (by omega)
  obtain ⟨hrows, hrows'⟩ := toNat_of_lastCell hlastY (by omega)
  exact ⟨hcols, hcols', hrows, hrows'⟩

/-- A search visits cells of the grid only. -/
theorem has_of_mem_window (hproper : b.Proper) {point : Vec2 α} {radius : α} {window : Window}
    (h : b.window point radius = .ok window) {cell : Cell} (hcell : cell ∈ window.cells) :
    b.Has cell := by
  obtain ⟨rings, -, h⟩ := bind_eq_ok_iff.1 h
  obtain ⟨center, -, h⟩ := bind_eq_ok_iff.1 h
  rw [lastCell_eq hproper.cols_lt, lastCell_eq hproper.rows_lt] at h
  rw [Window.mem_cells_iff] at hcell
  split at h
  next => cases h
  next =>
    obtain rfl := Except.ok.inj h
    dsimp only at hcell
    exact (b.has_iff cell).2 (by omega)

end Bounds

namespace BucketGrid

variable {earlier later : Array (Particle α)} {g g' : BucketGrid α}

/-- **An index finds whom an older one finds**, the dead left out. The living have kept their
positions, so each of them is in the cell it was in. -/
theorem Built.query_of_thins (hg : g.Built earlier) (hg' : g'.Built later)
    (hbounds : g'.bounds = g.bounds) (h : Thins earlier later) (point : Vec2 α) (radius : α)
    (exclude : Option UInt32) :
    (g.query point radius exclude).map
        (·.filter fun index => Particle.isLiveAt later index.toNat) =
      g'.query point radius exclude := by
  cases hwindow : g.bounds.window point radius with
  | error breach =>
    have hwindow' : g'.bounds.window point radius = .error breach := hbounds ▸ hwindow
    rw [query, query, queryOnto, queryOnto, hwindow, hwindow']
    rfl
  | ok window =>
    let s : Search α := ⟨point, radius * radius, exclude⟩
    have hhas : ∀ cell ∈ window.cells, g.bounds.Has cell := fun cell hcell =>
      Bounds.has_of_mem_window hg.proper hwindow hcell
    have hlt : ∀ index ∈ g.bounds.gather earlier (s.keeps earlier) window.cells,
        index < 2 ^ 32 := fun index hindex =>
      Nat.lt_of_lt_of_le (Bounds.lt_size_of_mem_gather hindex) hg.few
    rw [hg.query_of_window exclude hwindow hhas,
      hg'.query_of_window exclude (hbounds ▸ hwindow) (hbounds ▸ hhas), hbounds, h.gather_eq,
      ← filter_map_toUInt32 hlt, ← List.filter_toArray]
    rfl

/-- Bounds in which a live particle has been filed have a cell for every position. -/
theorem proper_of_insertFrom {particles : List (Particle α)} {index : Nat}
    (h : g.insertFrom index particles = .ok g') {p : Particle α} (hp : p ∈ particles)
    (halive : p.isAlive = true) : g.bounds.Proper := by
  induction particles generalizing g index with
  | nil => cases hp
  | cons first rest ih =>
    obtain ⟨between, hfirst, hrest⟩ := bind_eq_ok_iff.1 h
    rcases List.mem_cons.1 hp with rfl | hp
    · rcases insert_eq_ok_iff.1 hfirst with ⟨hdead, -⟩ | ⟨-, cell, -, hcell, -, -⟩
      · rw [halive] at hdead
        cases hdead
      · exact Bounds.proper_of_cellOf hcell
    · exact (insert_keeps hfirst).1 ▸ ih hrest hp

/-- **Once an index has been built, whom it finds alive is told by an index built anew.** What the
old index held before, and whom else it finds, does not matter. -/
theorem Tidy.exists_query_eq (hg : g.Tidy) (hbuild : g.build earlier = .ok g')
    (hfew : earlier.size ≤ 2 ^ 32) (h : Thins earlier later) {index : Nat}
    (hlive : Particle.isLiveAt later index = true) :
    ∃ fresh, (ofBounds g.bounds).build later = .ok fresh ∧ ∀ point radius exclude,
      (g'.query point radius exclude).map
          (·.filter fun index => Particle.isLiveAt later index.toNat) =
        fresh.query point radius exclude := by
  obtain ⟨p, hp, halive⟩ := Particle.exists_of_isLiveAt (h.isLiveAt hlive)
  have hproper : g.bounds.Proper :=
    proper_of_insertFrom (g := g.readied earlier) hbuild
      (Array.mem_toList_iff.2 (Array.mem_of_getElem? hp)) halive
  obtain ⟨built, hbuilt, hbounds, hg'⟩ :=
    BucketGrid.exists_build hg hproper hfew
  obtain rfl := Except.ok.inj (hbuilt.symm.trans hbuild)
  have htidy : (ofBounds g.bounds).Tidy := tidy_of_replicate rfl
  have hfew' : later.size ≤ 2 ^ 32 := by rw [h.size_eq]; exact hfew
  obtain ⟨fresh, hfresh, hbounds', hfresh'⟩ :=
    BucketGrid.exists_build htidy hproper hfew'
  exact ⟨fresh, hfresh, hg'.query_of_thins hfresh' (hbounds'.trans hbounds.symm) h⟩

end BucketGrid

end ParticleDynamics
