import Mathlib.Algebra.BigOperators.Group.List.Defs
import Mathlib.Algebra.Group.Action.Defs
import Mathlib.Algebra.Ring.Nat
import ParticleDynamics.Grid.Bounds
import ParticleDynamics.Scratch.Table

/-!
# The scratch table as a list of rows

The table is one flat array of cells, and what it is meant to be is a list of rows. A table **has**
`count` rows when its cells are exactly those of `count` rows (`Table.HasRows`). Creating, resizing,
writing and dropping rows lead from such tables to such tables, and each of them does to the rows
what its name says: writing a cell changes no other row (`Table.row_set_ne`), resizing cuts rows off
at the end or appends rows of zeros there (`Table.row_resize`), and dropping rows leaves the others
as they were and in their order (`Table.HasRows.retainRows`). Cell by cell, another cell reads as
before after a write (`Table.get?_set_ne`), and writes to different cells may change places
(`Table.set_comm`).

Rows are dropped in place: the rows that are kept move to the front one after the other. As at most
as many rows are kept as were looked at, a row is only ever copied down, over a row that has been
looked at (`Table.HasRows.packFrom`).
-/

namespace ParticleDynamics

/-- Changes in different places of an array may change places. -/
theorem modify_comm {β : Type} (values : Array β) {place place' : Nat} (h : place ≠ place')
    (f g : β → β) :
    (values.modify place f).modify place' g = (values.modify place' g).modify place f := by
  refine Array.ext_getElem? fun other => ?_
  simp only [Array.getElem?_modify]
  split
  next hplace' =>
    rw [if_neg (hplace' ▸ h), if_neg (hplace' ▸ h)]
  next => rfl

namespace Table

variable {α : Type} {t : Table α}

/-! ## Tables made of rows -/

/-- A table of `count` rows and nothing besides. -/
structure HasRows (t : Table α) (count : Nat) : Prop where
  /-- a row is not empty -/
  stride_pos : 0 < t.stride
  /-- the cells are those of the rows -/
  size_eq : t.cells.size = count * t.stride

theorem HasRows.rows_eq {count : Nat} (h : t.HasRows count) : t.rows = count := by
  have hpos := h.stride_pos
  rw [rows, if_neg (by omega), h.size_eq, Nat.mul_div_cancel _ hpos]

/-- The cells of a row are there exactly if the row is. -/
theorem HasRows.place_lt_iff {count index slot : Nat} (h : t.HasRows count)
    (hslot : slot < t.stride) : index * t.stride + slot < t.cells.size ↔ index < count := by
  rw [h.size_eq]
  constructor
  · intro hlt
    by_contra hge
    have := Nat.mul_le_mul_right t.stride (Nat.le_of_not_lt hge)
    omega
  · intro hlt
    have := Nat.mul_le_mul_right t.stride (Nat.succ_le_of_lt hlt)
    rw [Nat.succ_mul] at this
    omega

/-- The table has the slots of each of its rows, and no others. -/
theorem HasRows.holds_iff {count index slot : Nat} (h : t.HasRows count) :
    t.holds index slot = true ↔ slot < t.stride ∧ index < count := by
  rw [holds, decide_eq_true_iff]
  exact and_congr_right h.place_lt_iff

/-- A scalar is read where the table has the slot. -/
theorem get?_eq_none_iff {index slot : Nat} : t.get? index slot = none ↔ t.holds index slot = false := by
  rw [get?, holds, decide_eq_false_iff_not, not_and, Nat.not_lt]
  split
  next hslot => rw [Array.getElem?_eq_none_iff, imp_iff_right hslot]
  next hslot => exact iff_of_true rfl fun h => absurd h hslot

/-- The cells of a row among all cells. -/
theorem getElem?_row (index : Nat) {slot : Nat} (hslot : slot < t.stride) :
    (t.row index)[slot]? = t.cells[index * t.stride + slot]? := by
  have hend : (index + 1) * t.stride = index * t.stride + t.stride := Nat.succ_mul ..
  rw [row, Array.getElem?_toList, Array.getElem?_extract]
  split
  · rfl
  · rw [Array.getElem?_eq_none (by omega)]

/-- A row is read cell by cell. -/
theorem get?_eq_getElem?_row (index : Nat) {slot : Nat} (hslot : slot < t.stride) :
    t.get? index slot = (t.row index)[slot]? := by
  rw [get?, if_pos hslot, getElem?_row index hslot]

theorem length_row_le (index : Nat) : (t.row index).length ≤ t.stride := by
  have hend : (index + 1) * t.stride = index * t.stride + t.stride := Nat.succ_mul ..
  rw [row, Array.length_toList, Array.size_extract]
  omega

theorem HasRows.length_row {count index : Nat} (h : t.HasRows count) (hindex : index < count) :
    (t.row index).length = t.stride := by
  have hend : (index + 1) * t.stride = index * t.stride + t.stride := Nat.succ_mul ..
  have hfits : (index + 1) * t.stride ≤ count * t.stride := Nat.mul_le_mul_right _ hindex
  rw [row, Array.length_toList, Array.size_extract, h.size_eq]
  omega

/-- Two rows are the same when their cells are. -/
theorem row_eq_of_cells (t t' : Table α) (hstride : t'.stride = t.stride) {index : Nat}
    (h : ∀ slot < t.stride,
      t'.cells[index * t.stride + slot]? = t.cells[index * t.stride + slot]?) :
    t'.row index = t.row index := by
  refine List.ext_getElem? fun slot => ?_
  by_cases hslot : slot < t.stride
  · rw [getElem?_row index hslot, getElem?_row index (hstride ▸ hslot), hstride, h slot hslot]
  · have hlength := t.length_row_le index
    have hlength' := t'.length_row_le index
    rw [List.getElem?_eq_none (by omega), List.getElem?_eq_none (by omega)]

/-! ## Lists of rows -/

theorem length_rowsList : t.rowsList.length = t.rows := by
  rw [rowsList, List.length_map, List.length_range]

theorem getElem?_rowsList {index : Nat} (h : index < t.rows) :
    t.rowsList[index]? = some (t.row index) := by
  rw [rowsList, List.getElem?_map, List.getElem?_range h, Option.map_some]

/-- A cell is read in the row that is listed. -/
theorem get?_eq_bind_rowsList {count : Nat} (h : t.HasRows count) (index : Nat) {slot : Nat}
    (hslot : slot < t.stride) : t.get? index slot = t.rowsList[index]?.bind (·[slot]?) := by
  by_cases hindex : index < t.rows
  · rw [getElem?_rowsList hindex, Option.bind_some, get?_eq_getElem?_row index hslot]
  · rw [List.getElem?_eq_none (by rw [length_rowsList]; omega), Option.bind_none, get?_eq_none_iff,
      ← Bool.not_eq_true, h.holds_iff, ← h.rows_eq]
    exact fun hholds => hindex hholds.2

/-- The cells of some rows laid out one after the other, from the end of `index` rows on. -/
theorem getElem?_flatten {stride : Nat} {rows : List (List α)}
    (hlength : ∀ row ∈ rows, row.length = stride) (index : Nat) {slot : Nat} (hslot : slot < stride) :
    rows.flatten[index * stride + slot]? = rows[index]?.bind (·[slot]?) := by
  induction rows generalizing index with
  | nil => simp
  | cons row rest ih =>
    obtain ⟨hrow, hrest⟩ := List.forall_mem_cons.1 hlength
    rw [List.flatten_cons]
    cases index with
    | zero =>
      rw [Nat.zero_mul, Nat.zero_add, List.getElem?_append_left (by omega)]
      rfl
    | succ index =>
      have hskip : (index + 1) * stride + slot = row.length + (index * stride + slot) := by
        rw [Nat.succ_mul, hrow]
        omega
      rw [hskip, List.getElem?_append_right (Nat.le_add_right ..), Nat.add_sub_cancel_left,
        ih hrest]
      rfl

/-! ## Writing a cell -/

theorem size_set (index slot : Nat) (value : α) :
    (t.set index slot value).cells.size = t.cells.size := by
  rw [set]
  split
  · exact Array.size_modify
  · rfl

theorem HasRows.set {count : Nat} (h : t.HasRows count) (index slot : Nat) (value : α) :
    (t.set index slot value).HasRows count :=
  ⟨(stride_set ..).symm ▸ h.stride_pos, by rw [size_set, stride_set, h.size_eq]⟩

/-- Writing a cell changes no other cell. -/
theorem getElem?_cells_set_ne {index other slot slot' : Nat} (hslot' : slot' < t.stride)
    (h : ¬ (index = other ∧ slot = slot')) (value : α) :
    (t.set index slot value).cells[other * t.stride + slot']? =
      t.cells[other * t.stride + slot']? := by
  rw [Table.set]
  split
  next hplace =>
    rw [Array.getElem?_modify,
      if_neg ((rowMajor_inj (of_decide_eq_true hplace).1 hslot').not.2 h)]
  next => rfl

/-- Another cell reads as before. -/
theorem get?_set_ne {index other slot slot' : Nat} (h : ¬ (index = other ∧ slot = slot'))
    (value : α) : (t.set index slot value).get? other slot' = t.get? other slot' := by
  rw [get?, get?, stride_set]
  split
  next hslot' => exact getElem?_cells_set_ne hslot' h value
  next => rfl

/-- Writing neither adds nor removes a place. -/
theorem holds_set (index slot : Nat) (value : α) (other slot' : Nat) :
    (t.set index slot value).holds other slot' = t.holds other slot' := by
  rw [holds, holds, stride_set, size_set]

/-- **Writes to different cells may change places.** -/
theorem set_comm {index other slot slot' : Nat} (h : ¬ (index = other ∧ slot = slot'))
    (value value' : α) :
    (t.set index slot value).set other slot' value' =
      (t.set other slot' value').set index slot value := by
  rw [set.eq_1 (t.set index slot value), set.eq_1 (t.set other slot' value'), holds_set, holds_set]
  by_cases hplace : t.holds index slot = true
  · by_cases hplace' : t.holds other slot' = true
    · have hne := (rowMajor_inj (of_decide_eq_true hplace).1 (of_decide_eq_true hplace').1).not.2 h
      rw [if_pos hplace, if_pos hplace', set, set, if_pos hplace, if_pos hplace']
      dsimp only
      rw [modify_comm _ hne]
    · rw [if_pos hplace, if_neg hplace', set.eq_1 t other, if_neg hplace', set, if_pos hplace]
  · rw [if_neg hplace, set.eq_1 t index, if_neg hplace, set]

/-- **Writing a cell changes no other row.** -/
theorem row_set_ne {index other : Nat} (h : index ≠ other) (slot : Nat) (value : α) :
    (t.set index slot value).row other = t.row other :=
  row_eq_of_cells t _ (stride_set ..) fun _ hslot' =>
    getElem?_cells_set_ne hslot' (fun hsame => h hsame.1) value

/-! ## Changing the number of rows -/

theorem hasRows_create {stride : Nat} (h : 0 < stride) : (create stride : Table α).HasRows 0 :=
  ⟨h, by rw [Nat.zero_mul]; rfl⟩

theorem hasRows_resize [Zero α] (h : 0 < t.stride) (count : Nat) :
    (t.resize count).HasRows count :=
  ⟨h, size_resize t count⟩

/-- **Resizing keeps rows where they are.** A row that was not there before is all zeros. Cells are
cut off or added at the end, and the length of a row does not change. -/
theorem row_resize [Zero α] {count wanted index : Nat} (h : t.HasRows count)
    (hindex : index < wanted) :
    (t.resize wanted).row index =
      if index < count then t.row index else List.replicate t.stride 0 := by
  have hend : (index + 1) * t.stride = index * t.stride + t.stride := Nat.succ_mul ..
  have hfits : (index + 1) * t.stride ≤ wanted * t.stride := Nat.mul_le_mul_right _ hindex
  -- one cell of the resized table
  have hcell {slot : Nat} (hslot : slot < t.stride) :
      (t.resize wanted).cells[index * t.stride + slot]? =
        if index < count then t.cells[index * t.stride + slot]? else some 0 := by
    have hin : index * t.stride + slot < t.cells.size ↔ index < count := h.place_lt_iff hslot
    rw [resize, resizeTo]
    dsimp only
    split
    · rw [Array.getElem?_extract, if_pos (by omega), Nat.zero_add, if_pos (by omega)]
    · rw [Array.getElem?_append]
      split
      · rw [if_pos (by omega)]
      · rw [if_neg (by omega), Array.getElem?_replicate, if_pos (by omega)]
  split
  next hlt =>
    exact row_eq_of_cells t _ (stride_resize t wanted) fun slot hslot =>
      (hcell hslot).trans (if_pos hlt)
  next hge =>
    refine List.ext_getElem? fun slot => ?_
    by_cases hslot : slot < t.stride
    · rw [getElem?_row index ((stride_resize t wanted).symm ▸ hslot), stride_resize, hcell hslot,
        if_neg hge, List.getElem?_replicate, if_pos hslot]
    · have hle := (t.resize wanted).length_row_le index
      rw [stride_resize] at hle
      rw [List.getElem?_eq_none (by omega),
        List.getElem?_eq_none (by rw [List.length_replicate]; omega)]

/-- Resizing, cell by cell. -/
theorem HasRows.get?_resize [Zero α] {count index slot : Nat} (h : t.HasRows count)
    (hslot : slot < t.stride) (wanted : Nat) :
    (t.resize wanted).get? index slot =
      if index < wanted then (if index < count then t.get? index slot else some 0) else none := by
  split
  next hindex =>
    rw [get?_eq_getElem?_row index (t := t.resize wanted) hslot, row_resize h hindex,
      get?_eq_getElem?_row index hslot]
    split
    next => rfl
    next => rw [List.getElem?_replicate, if_pos hslot]
  next hindex =>
    rw [get?_eq_none_iff, ← Bool.not_eq_true, (hasRows_resize h.stride_pos wanted).holds_iff]
    exact fun hholds => hindex hholds.2

/-! ## Copying a row -/

/-- Writing some values over the cells from a place on changes these cells and no others. -/
theorem getElem?_overwrite (cells : Array α) (place : Nat) (values : List α) (other : Nat) :
    (overwrite cells place values)[other]? =
      if place ≤ other ∧ other < place + values.length ∧ other < cells.size then
        values[other - place]?
      else cells[other]? := by
  induction values generalizing cells place with
  | nil => rw [overwrite, if_neg (by simp only [List.length_nil]; omega)]
  | cons value rest ih =>
    rw [overwrite, ih, Array.size_setIfInBounds, Array.getElem?_setIfInBounds, List.length_cons]
    by_cases hfirst : place = other
    · subst hfirst
      by_cases hin : place < cells.size
      · rw [if_neg (by omega), if_pos rfl, if_pos hin, if_pos (by omega), Nat.sub_self]
        rfl
      · rw [if_neg (by omega), if_pos rfl, if_neg hin, if_neg (by omega),
          Array.getElem?_eq_none (by omega)]
    · rw [if_neg hfirst]
      by_cases hrest : place + 1 ≤ other ∧ other < place + 1 + rest.length ∧ other < cells.size
      · have hskip : other - place = other - (place + 1) + 1 := by omega
        rw [if_pos hrest, if_pos (by omega), hskip, List.getElem?_cons_succ]
      · rw [if_neg hrest, if_neg (by omega)]

theorem size_overwrite (cells : Array α) (place : Nat) (values : List α) :
    (overwrite cells place values).size = cells.size := by
  induction values generalizing cells place with
  | nil => rfl
  | cons value rest ih => rw [overwrite, ih, Array.size_setIfInBounds]

theorem HasRows.copyRow {count : Nat} (h : t.HasRows count) (source target : Nat) :
    (t.copyRow source target).HasRows count :=
  ⟨h.stride_pos, (size_overwrite ..).trans h.size_eq⟩

/-- **Copying a row over another one changes no other row.** -/
theorem HasRows.row_copyRow {count source target : Nat} (h : t.HasRows count)
    (hsource : source < count) (htarget : target < count) (other : Nat) :
    (t.copyRow source target).row other = t.row (if other = target then source else other) := by
  have hlength := h.length_row hsource
  -- one cell of the row in question
  have hcell {slot : Nat} (hslot : slot < t.stride) :
      (t.copyRow source target).cells[other * t.stride + slot]? =
        t.cells[(if other = target then source else other) * t.stride + slot]? := by
    have hplace := (h.place_lt_iff hslot).2 htarget
    rw [Table.copyRow, getElem?_overwrite, hlength]
    by_cases hrow : other = target
    · subst hrow
      rw [if_pos (by omega), if_pos rfl, Nat.add_sub_cancel_left, getElem?_row source hslot]
    · rw [if_neg hrow, if_neg]
      rintro ⟨hle, hlt, -⟩
      -- a cell between the ends of the target row belongs to it
      have hsplit : target * t.stride + (other * t.stride + slot - target * t.stride) =
          other * t.stride + slot := by omega
      exact hrow ((rowMajor_inj (by omega) hslot).1 hsplit).1.symm
  refine List.ext_getElem? fun slot => ?_
  by_cases hslot : slot < t.stride
  · rw [getElem?_row other (t := t.copyRow source target) hslot, getElem?_row _ hslot]
    exact hcell hslot
  · have hle : ((t.copyRow source target).row other).length ≤ t.stride := length_row_le other
    have hle' := t.length_row_le (if other = target then source else other)
    rw [List.getElem?_eq_none (by omega), List.getElem?_eq_none (by omega)]

theorem HasRows.moveRow {count : Nat} (h : t.HasRows count) (source target : Nat) :
    (t.moveRow source target).HasRows count := by
  rw [Table.moveRow]
  split
  · exact h
  · exact h.copyRow source target

/-- A row that is at its place already need not be copied. -/
theorem HasRows.row_moveRow {count source target : Nat} (h : t.HasRows count)
    (hsource : source < count) (htarget : target < count) (other : Nat) :
    (t.moveRow source target).row other = t.row (if other = target then source else other) := by
  rw [Table.moveRow]
  split
  next hsame =>
    subst hsame
    split
    next hother => rw [hother]
    next => rfl
  next => exact h.row_copyRow hsource htarget other

/-! ## Dropping rows -/

/-- The rows of which the flag is set; a row without a flag is not among them. -/
def kept (rows : List (List α)) (keep : List Bool) : List (List α) :=
  ((rows.zip keep).filter Prod.snd).map Prod.fst

/-- Tables with the same rows from one on. -/
theorem drop_rowsList_eq {t' : Table α} {count first : Nat} (h' : t'.HasRows count)
    (h : t.HasRows count) (hrow : ∀ row, first ≤ row → t'.row row = t.row row) :
    t'.rowsList.drop first = t.rowsList.drop first := by
  rw [rowsList, rowsList, h'.rows_eq, h.rows_eq, ← List.map_drop, ← List.map_drop]
  refine List.map_congr_left fun row hmem => hrow row ?_
  rw [List.range_eq_range', List.drop_range', List.mem_range'_1] at hmem
  omega

/-- **Rows move to the front one after the other.** The rows at the front are those that were kept
so far, and as no row moves up, the rows that still have to be looked at are as they were. -/
theorem HasRows.packFrom {count filled index : Nat} (h : t.HasRows count) (hle : filled ≤ index)
    (hfilled : filled ≤ count) (keep : List Bool) :
    (t.packFrom filled index keep).1.HasRows count ∧ (t.packFrom filled index keep).2 ≤ count ∧
      (List.range (t.packFrom filled index keep).2).map (t.packFrom filled index keep).1.row =
        (List.range filled).map t.row ++ kept (t.rowsList.drop index) keep := by
  induction keep generalizing t filled index with
  | nil => exact ⟨h, hfilled, by simp [Table.packFrom, kept]⟩
  | cons flag flags ih =>
    rw [Table.packFrom]
    split
    next hindex =>
      -- the row in question is the first of those that are still where they were
      have hindex' : index < count := h.rows_eq ▸ hindex
      have hdrop : t.rowsList.drop index = t.row index :: t.rowsList.drop (index + 1) := by
        have hlt : index < t.rowsList.length := by rw [length_rowsList]; exact hindex
        rw [List.drop_eq_getElem_cons hlt, List.cons.injEq]
        exact ⟨Option.some.inj ((List.getElem?_eq_getElem hlt).symm.trans (getElem?_rowsList hindex)),
          rfl⟩
      rw [hdrop]
      cases flag with
      | false =>
        -- it is passed over
        rw [if_neg Bool.false_ne_true]
        exact ih h (by omega) hfilled
      | true =>
        -- it is moved behind those at the front; what comes after it is not written
        rw [if_pos rfl]
        have hmoved := h.row_moveRow hindex' (Nat.lt_of_le_of_lt hle hindex')
        have hrows : (t.moveRow index filled).HasRows count := h.moveRow index filled
        have hfront : (List.range (filled + 1)).map (t.moveRow index filled).row =
            (List.range filled).map t.row ++ [t.row index] := by
          rw [List.range_succ, List.map_append, List.map_singleton, hmoved filled, if_pos rfl]
          congr 1
          refine List.map_congr_left fun row hrow => ?_
          rw [hmoved row, if_neg (Nat.ne_of_lt (List.mem_range.1 hrow))]
        have hrest : (t.moveRow index filled).rowsList.drop (index + 1) =
            t.rowsList.drop (index + 1) :=
          drop_rowsList_eq hrows h fun row hrow => (hmoved row).trans (by rw [if_neg (by omega)])
        obtain ⟨hend, hkept, heq⟩ := ih hrows (Nat.succ_le_succ hle) (by omega)
        refine ⟨hend, hkept, heq.trans ?_⟩
        rw [hfront, hrest, List.append_assoc]
        rfl
    next hindex =>
      -- behind the last row no flag counts
      have hnone : t.rowsList.drop index = [] :=
        List.drop_eq_nil_of_le (by rw [length_rowsList]; omega)
      exact ⟨h, hfilled, by simp [hnone, kept]⟩

/-- **Dropping rows leaves the others as they were**, in their order. Rows are moved forward one by
one, over rows that have been moved already or are to be dropped. -/
theorem HasRows.retainRows {count : Nat} (h : t.HasRows count) (keep : List Bool) :
    (t.retainRows keep).HasRows (kept t.rowsList keep).length ∧
      (t.retainRows keep).rowsList = kept t.rowsList keep := by
  obtain ⟨hpacked, hle, hfront⟩ := h.packFrom (Nat.le_refl 0) (Nat.zero_le count) keep
  rw [List.range_zero, List.map_nil, List.nil_append, List.drop_zero] at hfront
  have hlength : (kept t.rowsList keep).length = (t.packFrom 0 0 keep).2 := by
    rw [← hfront, List.length_map, List.length_range]
  have hfits : (t.packFrom 0 0 keep).2 * t.stride ≤ count * t.stride := Nat.mul_le_mul_right _ hle
  have hsize : (t.packFrom 0 0 keep).1.cells.size = count * t.stride := by
    rw [hpacked.size_eq, stride_packFrom]
  have hstride : (t.retainRows keep).stride = t.stride := stride_packFrom t 0 0 keep
  have hrows : (t.retainRows keep).HasRows (t.packFrom 0 0 keep).2 := by
    refine ⟨hstride.symm ▸ h.stride_pos, ?_⟩
    rw [hstride]
    change ((t.packFrom 0 0 keep).1.cells.extract 0 _).size = _
    rw [Array.size_extract, hsize]
    omega
  refine ⟨hlength ▸ hrows, ?_⟩
  rw [rowsList, hrows.rows_eq, ← hfront]
  refine List.map_congr_left fun index hindex => ?_
  -- cutting off the rest leaves the rows at the front alone
  refine row_eq_of_cells _ _ (hstride.trans (stride_packFrom t 0 0 keep).symm) fun slot hslot => ?_
  have hplace : index * t.stride + slot < (t.packFrom 0 0 keep).2 * t.stride := by
    have hlast := Nat.mul_le_mul_right t.stride (Nat.succ_le_of_lt (List.mem_range.1 hindex))
    rw [Nat.succ_mul] at hlast
    rw [stride_packFrom] at hslot
    omega
  change ((t.packFrom 0 0 keep).1.cells.extract 0 _)[_]? = _
  rw [stride_packFrom, Array.getElem?_extract, if_pos (by omega), Nat.zero_add]

theorem length_kept_le (rows : List (List α)) (keep : List Bool) :
    (kept rows keep).length ≤ rows.length := by
  rw [kept, List.length_map]
  refine Nat.le_trans (List.length_filter_le ..) ?_
  rw [List.length_zip]
  exact Nat.min_le_left ..

/-- Dropping rows leaves no more cells than there were. -/
theorem HasRows.size_retainRows_le {count : Nat} (h : t.HasRows count) (keep : List Bool) :
    (t.retainRows keep).cells.size ≤ count * t.stride := by
  rw [(h.retainRows keep).1.size_eq, stride_retainRows]
  have hkept := length_kept_le t.rowsList keep
  rw [length_rowsList, h.rows_eq] at hkept
  exact Nat.mul_le_mul_right _ hkept

end Table

end ParticleDynamics
