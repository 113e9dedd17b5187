import ParticleDynamics.Proofs.Scratch.Rows
import ParticleDynamics.Single

/-!
# The scratch table over a history

What a table is meant to be is said by the same actions on a list of rows (`Table.Action.onRows`):
resizing cuts rows off at the end or appends rows of zeros, writing changes one scalar of one row
and tells whether there is such a place, and dropping rows keeps those with a flag that is set.

A table that lists some rows lists after an action what the action makes of these rows
(`Table.Lists.perform`), so over a whole history a table and a list of rows give the same answers
(`Table.performs_as_rows`). The one thing that a list of rows does not have is the address of a
cell. There are so many addresses and no more, and a row that is not there may be so far out that its
address comes round to a cell of a row that is: then the table finds a place where the list of rows
has none.
-/

namespace ParticleDynamics

namespace Table

variable {α : Type} {t : Table α} {stride : Nat} {rows : List (List α)}

/-! ## Actions -/

/-- What can be done with a table. -/
inductive Action (α : Type) where
  /-- change the number of rows -/
  | resize (count : Nat)
  /-- write a scalar into a slot of a row -/
  | set (index slot : Nat) (value : α)
  /-- drop the rows whose flag is not set -/
  | retain (keep : List Bool)

/-- Beside `rows` rows that are there, no slot of a row that is not there has the address of one of
their cells. -/
def Unaliased (stride rows index slot : Nat) : Prop :=
  slot < stride → rows ≤ index → rows * stride ≤ (index * stride + slot) % addresses

/-- The actions that find the places they are about, on a table of `rows` rows. -/
def Action.Fits (stride rows : Nat) : Action α → Prop
  | resize count => count * stride * cellBytes ≤ mostBytes
  | set index slot _ => Unaliased stride rows index slot
  | retain _ => True

section

variable [Zero α]

/-- The table after an action. Writing tells whether there was such a place. -/
def perform (t : Table α) : Action α → Except Breach (Option Bool × Table α)
  | .resize count => do return (none, ← t.resized count)
  | .set index slot value =>
    let (written, later) := t.write index slot value
    .ok (some written, later)
  | .retain keep => .ok (none, t.retainRows keep)

/-- The table after some actions, with what they told. -/
def performAll (t : Table α) : List (Action α) → Except Breach (List (Option Bool) × Table α)
  | [] => .ok ([], t)
  | action :: rest => do
    let (answer, next) ← t.perform action
    let (answers, last) ← next.performAll rest
    return (answer :: answers, last)

/-- What an action makes of a list of rows of `stride` scalars each, and what it tells. -/
def Action.onRows (stride : Nat) (rows : List (List α)) : Action α → Option Bool × List (List α)
  | resize count =>
    (none, rows.take count ++ List.replicate (count - rows.length) (List.replicate stride 0))
  | set index slot value =>
    (some (decide (index < rows.length ∧ slot < stride)),
      rows.modify index fun row => row.set slot value)
  | retain keep => (none, kept rows keep)

/-- What some actions make of a list of rows, and what they tell. -/
def Action.allOnRows (stride : Nat) (rows : List (List α)) :
    List (Action α) → List (Option Bool) × List (List α)
  | [] => ([], rows)
  | action :: rest =>
    let (answer, next) := action.onRows stride rows
    let (answers, last) := allOnRows stride next rest
    (answer :: answers, last)

/-- The histories whose actions all find the places they are about. -/
def Action.AllFit (stride : Nat) (rows : List (List α)) : List (Action α) → Prop
  | [] => True
  | action :: rest =>
    action.Fits stride rows.length ∧ AllFit stride (action.onRows stride rows).2 rest

end

/-! ## Listing rows -/

/-- A table of which these are the rows. -/
structure Lists (t : Table α) (stride : Nat) (rows : List (List α)) : Prop where
  stride_eq : t.stride = stride
  hasRows : t.HasRows rows.length
  rowsList_eq : t.rowsList = rows
  /-- all its cells can exist -/
  housed : rows.length * stride * cellBytes ≤ mostBytes

theorem Lists.rows_eq (h : t.Lists stride rows) : t.rows = rows.length := h.hasRows.rows_eq

theorem Lists.getElem?_eq (h : t.Lists stride rows) (index : Nat) :
    rows[index]? = if index < rows.length then some (t.row index) else none := by
  rw [← h.rowsList_eq, length_rowsList]
  split
  next hindex => exact getElem?_rowsList hindex
  next hindex => exact List.getElem?_eq_none (by rw [length_rowsList]; omega)

theorem Lists.length_eq (h : t.Lists stride rows) {row : List α} (hrow : row ∈ rows) :
    row.length = stride := by
  obtain ⟨index, hindex, rfl⟩ := List.getElem_of_mem hrow
  have heq := h.getElem?_eq index
  rw [List.getElem?_eq_getElem hindex, if_pos hindex, Option.some.injEq] at heq
  rw [heq, h.hasRows.length_row hindex, h.stride_eq]

/-- Tables list rows if they have as many of them, and the same ones. -/
theorem lists_of_rows (hstride : t.stride = stride) (hrows : t.HasRows rows.length)
    (hhoused : rows.length * stride * cellBytes ≤ mostBytes)
    (h : ∀ index < rows.length, rows[index]? = some (t.row index)) : t.Lists stride rows := by
  refine ⟨hstride, hrows, List.ext_getElem? fun index => ?_, hhoused⟩
  by_cases hindex : index < rows.length
  · rw [h index hindex, getElem?_rowsList (by rw [hrows.rows_eq]; exact hindex)]
  · rw [List.getElem?_eq_none (by rw [length_rowsList, hrows.rows_eq]; omega),
      List.getElem?_eq_none (by omega)]

/-- The cells are those of the rows. -/
theorem Lists.size_eq (h : t.Lists stride rows) : t.cells.size = rows.length * stride :=
  h.stride_eq ▸ h.hasRows.size_eq

theorem Lists.size_lt (h : t.Lists stride rows) : t.cells.size < addresses := by
  have hhoused := h.housed
  rw [h.size_eq, addresses]
  rw [cellBytes, mostBytes] at hhoused
  omega

/-- A place that is there has the address of its cell. -/
theorem Lists.address_eq (h : t.Lists stride rows) {index slot : Nat} (hindex : index < rows.length)
    (hslot : slot < t.stride) : t.address index slot = index * t.stride + slot :=
  Nat.mod_eq_of_lt (Nat.lt_trans ((h.hasRows.place_lt_iff hslot).2 hindex) h.size_lt)

/-- Where nothing has the address of something else, an address is that of a cell exactly if the row
is there. -/
theorem Lists.address_lt_iff (h : t.Lists stride rows) {index slot : Nat} (hslot : slot < t.stride)
    (hunaliased : Unaliased stride rows.length index slot) :
    t.address index slot < t.cells.size ↔ index < rows.length := by
  refine ⟨fun hlt => Nat.lt_of_not_le fun hge => ?_, fun hindex => ?_⟩
  · have hbeyond := hunaliased (h.stride_eq ▸ hslot) hge
    rw [h.size_eq, address, h.stride_eq] at hlt
    omega
  · rw [h.address_eq hindex hslot]
    exact (h.hasRows.place_lt_iff hslot).2 hindex

/-- **A cell is read in its row**, exactly if the place does not have the address of another one. -/
theorem Lists.read_eq_iff (h : t.Lists stride rows) {index slot : Nat} :
    t.read index slot = rows[index]?.bind (·[slot]?) ↔
      Unaliased stride rows.length index slot := by
  have hget : rows[index]?.bind (·[slot]?) = t.get? index slot := by
    by_cases hslot : slot < t.stride
    · rw [get?_eq_bind_rowsList h.hasRows index hslot, h.rowsList_eq]
    · rw [get?, if_neg hslot, h.getElem?_eq]
      split
      next hindex =>
        rw [Option.bind_some, List.getElem?_eq_none (by rw [h.hasRows.length_row hindex]; omega)]
      next => rfl
  rw [hget, read, get?]
  by_cases hslot : slot < t.stride
  · rw [if_pos hslot, if_pos hslot]
    by_cases hindex : index < rows.length
    · rw [h.address_eq hindex hslot]
      exact iff_of_true rfl fun _ hge => absurd hindex (Nat.not_lt.2 hge)
    · -- the row is not there, so nothing is to be read at its address
      have hout : t.cells.size ≤ index * t.stride + slot :=
        Nat.le_of_not_lt (mt (h.hasRows.place_lt_iff hslot).1 hindex)
      rw [Array.getElem?_eq_none hout, Array.getElem?_eq_none_iff, h.size_eq, address, h.stride_eq,
        Unaliased, imp_iff_right (h.stride_eq ▸ hslot), imp_iff_right (Nat.le_of_not_lt hindex)]
  · rw [if_neg hslot, if_neg hslot]
    exact iff_of_true rfl fun hlt => absurd (h.stride_eq ▸ hlt) hslot

/-- **Numbers of rows that are words have no address in common with others**, as long as a word holds
the length of a row. -/
theorem unaliased_of_words {index : Nat} (hindex : index < 2 ^ 32) (hstride : stride < 2 ^ 32)
    (count slot : Nat) : Unaliased stride count index slot := by
  intro hslot hcount
  have hlt : index * stride + slot < addresses :=
    calc index * stride + slot < (index + 1) * stride := by rw [Nat.succ_mul]; omega
      _ ≤ 2 ^ 32 * 2 ^ 32 := Nat.mul_le_mul hindex (Nat.le_of_lt hstride)
      _ = addresses := rfl
  rw [Nat.mod_eq_of_lt hlt]
  exact Nat.le_trans (Nat.mul_le_mul_right _ hcount) (Nat.le_add_right ..)

/-! ## One action -/

theorem lists_create (hstride : 1 ≤ stride) : (create stride : Table α).Lists stride [] where
  stride_eq := rfl
  hasRows := hasRows_create hstride
  rowsList_eq := by rw [rowsList, (hasRows_create hstride).rows_eq]; rfl
  housed := by rw [List.length_nil, Nat.zero_mul, Nat.zero_mul]; exact Nat.zero_le _

/-- Resizing cuts rows off at the end, or appends rows of zeros there. -/
theorem Lists.resize [Zero α] (h : t.Lists stride rows) {count : Nat}
    (hhoused : count * stride * cellBytes ≤ mostBytes) :
    (t.resize count).Lists stride
      (rows.take count ++ List.replicate (count - rows.length) (List.replicate stride 0)) := by
  have hlength : (rows.take count ++
      List.replicate (count - rows.length) (List.replicate stride 0)).length = count := by
    rw [List.length_append, List.length_take, List.length_replicate]
    omega
  refine lists_of_rows h.stride_eq (hlength.symm ▸ hasRows_resize h.hasRows.stride_pos count)
    (hlength.symm ▸ hhoused) fun index hindex => ?_
  rw [hlength] at hindex
  rw [row_resize h.hasRows hindex, List.getElem?_append, List.length_take]
  split
  next hold =>
    rw [List.getElem?_take_of_lt hindex, h.getElem?_eq, if_pos (by omega), if_pos (by omega)]
  next hnew =>
    rw [List.getElem?_replicate, if_pos (by omega), if_neg (by omega), h.stride_eq]

/-- The row in which a scalar is written. -/
theorem row_set_self {index slot : Nat} (h : t.holds index slot = true) (value : α) :
    (t.set index slot value).row index = (t.row index).set slot value := by
  have hstride : (t.set index slot value).stride = t.stride := stride_set ..
  have hhere : (t.set index slot value).get? index slot = some value := get?_set_self h
  refine List.ext_getElem? fun other => ?_
  by_cases hother : other < t.stride
  · rw [← get?_eq_getElem?_row index (hstride.symm ▸ hother), List.getElem?_set]
    split
    next hsame =>
      have hin : slot < (t.row index).length := by
        by_contra hout
        have hnone : t.get? index slot = none := by
          rw [get?_eq_getElem?_row index (hsame ▸ hother), List.getElem?_eq_none (by omega)]
        exact Bool.false_ne_true ((get?_eq_none_iff.1 hnone).symm.trans h)
      rw [if_pos hin, ← hsame, hhere]
    next hne =>
      rw [get?_set_ne (fun hsame => hne hsame.2), get?_eq_getElem?_row index hother]
  · have hle := t.length_row_le index
    have hle' := (t.set index slot value).length_row_le index
    rw [List.getElem?_eq_none (by omega), List.getElem?_eq_none (by rw [List.length_set]; omega)]

/-- Writing changes one scalar of one row, if there is such a place. -/
theorem Lists.set (h : t.Lists stride rows) (index slot : Nat) (value : α) :
    (t.set index slot value).Lists stride (rows.modify index fun row => row.set slot value) := by
  have hlength : (rows.modify index fun row => row.set slot value).length = rows.length :=
    List.length_modify ..
  refine lists_of_rows ((stride_set ..).trans h.stride_eq)
    (hlength.symm ▸ h.hasRows.set index slot value) (hlength.symm ▸ h.housed) fun other hother => ?_
  rw [hlength] at hother
  rw [List.getElem?_modify, h.getElem?_eq, if_pos hother, Option.map_eq_map, Option.map_some,
    Option.some.injEq]
  split
  next hsame =>
    subst hsame
    cases hplace : t.holds index slot with
    | true => exact (row_set_self hplace value).symm
    | false =>
      -- the row is there, so it has no such slot
      have hslot : t.stride ≤ slot := by
        have hnone := mt h.hasRows.holds_iff.2 (Bool.eq_false_iff.1 hplace)
        omega
      rw [Table.set, hplace, if_neg Bool.false_ne_true,
        List.set_eq_of_length_le (by rw [h.hasRows.length_row hother]; exact hslot)]
  next hne => exact (row_set_ne hne slot value).symm

/-- Dropping rows keeps those whose flag is set. -/
theorem Lists.retainRows (h : t.Lists stride rows) (keep : List Bool) :
    (t.retainRows keep).Lists stride (kept rows keep) := by
  obtain ⟨hrows, hlist⟩ := h.hasRows.retainRows keep
  rw [h.rowsList_eq] at hrows hlist
  exact ⟨(stride_retainRows ..).trans h.stride_eq, hrows, hlist,
    Nat.le_trans (Nat.mul_le_mul_right _ (Nat.mul_le_mul_right _ (length_kept_le rows keep)))
      h.housed⟩

/-- The table that is resized to what can exist. -/
theorem Lists.resized [Zero α] (h : t.Lists stride rows) {count : Nat}
    (hfits : count * stride * cellBytes ≤ mostBytes) : t.resized count = .ok (t.resize count) := by
  have hlt : count * t.stride < addresses := by
    rw [h.stride_eq, addresses]
    rw [cellBytes, mostBytes] at hfits
    omega
  rw [Table.resized, Nat.mod_eq_of_lt hlt]
  exact bind_eq_ok_iff.2 ⟨(), reserve_eq_ok_iff.2 (h.stride_eq ▸ hfits), rfl⟩

/-- What writing comes to where nothing has the address of something else. -/
theorem Lists.write_eq (h : t.Lists stride rows) {index slot : Nat}
    (hunaliased : Unaliased stride rows.length index slot) (value : α) :
    t.write index slot value =
      (decide (index < rows.length ∧ slot < stride), t.set index slot value) := by
  have hplace : t.holds index slot = decide (index < rows.length ∧ slot < stride) := by
    rw [Bool.eq_iff_iff, h.hasRows.holds_iff, decide_eq_true_iff, h.stride_eq, and_comm]
  rw [← hplace, Table.set]
  by_cases hslot : slot < t.stride
  · by_cases hindex : index < rows.length
    · rw [write, if_pos ⟨hslot, (h.address_lt_iff hslot hunaliased).2 hindex⟩,
        h.address_eq hindex hslot, if_pos (h.hasRows.holds_iff.2 ⟨hslot, hindex⟩),
        h.hasRows.holds_iff.2 ⟨hslot, hindex⟩]
    · have hnone : t.holds index slot = false :=
        Bool.eq_false_iff.2 fun hholds => hindex (h.hasRows.holds_iff.1 hholds).2
      rw [write, if_neg fun hwritten => hindex ((h.address_lt_iff hslot hunaliased).1 hwritten.2),
        hnone]
      rfl
  · have hnone : t.holds index slot = false :=
      Bool.eq_false_iff.2 fun hholds => hslot (h.hasRows.holds_iff.1 hholds).1
    rw [write, if_neg fun hwritten => hslot hwritten.1, hnone]
    rfl

/-- **One action.** Each action has its own lemma about rows above, and this one puts them side by
side. -/
theorem Lists.perform [Zero α] (h : t.Lists stride rows) {action : Action α}
    (hfits : action.Fits stride rows.length) :
    ∃ later, t.perform action = .ok ((action.onRows stride rows).1, later) ∧
      later.Lists stride (action.onRows stride rows).2 := by
  cases action with
  | resize count =>
    exact ⟨t.resize count, bind_eq_ok_iff.2 ⟨_, h.resized hfits, rfl⟩, h.resize hfits⟩
  | set index slot value =>
    refine ⟨t.set index slot value, ?_, h.set index slot value⟩
    rw [Table.perform, h.write_eq hfits]
    rfl
  | retain keep => exact ⟨t.retainRows keep, rfl, h.retainRows keep⟩

/-- **An action that does what it does to the rows** finds the places that it is about. -/
theorem Lists.fits_of_perform [Zero α] (h : t.Lists stride rows) {action : Action α}
    {later : Table α} (hperform : t.perform action = .ok ((action.onRows stride rows).1, later))
    (hrows : later.rowsList = (action.onRows stride rows).2) : action.Fits stride rows.length := by
  cases action with
  | resize count =>
    obtain ⟨found, hresized, hfound⟩ := bind_eq_ok_iff.1 hperform
    obtain rfl : found = later := (Prod.mk.inj (Except.ok.inj hfound)).2
    obtain ⟨⟨⟩, hreserve, hfound⟩ := bind_eq_ok_iff.1 hresized
    obtain rfl := Except.ok.inj hfound
    -- there are as many rows as were asked for, so no cell has gone round
    have hcount : (t.resizeTo (count * t.stride % addresses)).rows = count := by
      rw [← length_rowsList, hrows, Action.onRows, List.length_append, List.length_take,
        List.length_replicate]
      omega
    have hpos : (t.resizeTo (count * t.stride % addresses)).stride ≠ 0 :=
      Nat.pos_iff_ne_zero.1 h.hasRows.stride_pos
    rw [Table.rows, if_neg hpos, size_resizeTo] at hcount
    have hle : count * t.stride ≤ count * t.stride % addresses :=
      calc count * t.stride
          = count * t.stride % addresses / t.stride * t.stride := congrArg (· * t.stride) hcount.symm
        _ ≤ count * t.stride % addresses := Nat.div_mul_le_self ..
    change count * stride * cellBytes ≤ mostBytes
    rw [← h.stride_eq]
    exact Nat.le_trans (Nat.mul_le_mul_right _ hle) (reserve_eq_ok_iff.1 hreserve)
  | set index slot value =>
    intro hslot hge
    by_contra hlt
    have haddress : t.address index slot < t.cells.size := by
      rw [h.size_eq, address, h.stride_eq]
      exact Nat.lt_of_not_le hlt
    have hwritten : (t.write index slot value).1 = true := by
      rw [write, if_pos ⟨h.stride_eq ▸ hslot, haddress⟩]
    have hanswer : some (t.write index slot value).1 =
        some (decide (index < rows.length ∧ slot < stride)) :=
      (Prod.mk.inj (Except.ok.inj hperform)).1
    rw [hwritten, Option.some.injEq, eq_comm, decide_eq_true_iff] at hanswer
    omega
  | retain keep => trivial

/-! ## Histories -/

section

variable [Zero α] {history : List (Action α)}

theorem performAll_cons_eq_ok_iff {action : Action α} {rest : List (Action α)}
    {answers : List (Option Bool)} {last : Table α} :
    t.performAll (action :: rest) = .ok (answers, last) ↔
      ∃ answer next answers', t.perform action = .ok (answer, next) ∧
        next.performAll rest = .ok (answers', last) ∧ answers = answer :: answers' := by
  rw [performAll, bind_eq_ok_iff]
  constructor
  · rintro ⟨⟨answer, next⟩, hnext, hall⟩
    obtain ⟨⟨answers', last'⟩, hrest, hanswers⟩ := bind_eq_ok_iff.1 hall
    obtain ⟨rfl, rfl⟩ := Prod.mk.inj (Except.ok.inj hanswers)
    exact ⟨answer, next, answers', hnext, hrest, rfl⟩
  · rintro ⟨answer, next, answers', hnext, hrest, rfl⟩
    exact ⟨(answer, next), hnext, bind_eq_ok_iff.2 ⟨(answers', last), hrest, rfl⟩⟩

/-- From a table and its list of rows on, both give the same answers over a history, and end with the
same rows. -/
def Agrees (t : Table α) (stride : Nat) (rows : List (List α)) (history : List (Action α)) : Prop :=
  ∃ last, t.performAll history = .ok ((Action.allOnRows stride rows history).1, last) ∧
    last.rowsList = (Action.allOnRows stride rows history).2

/-- **Some actions, one after the other.** What fits is judged by the rows as they are when it is
the turn of the action. -/
theorem Lists.performAll (h : t.Lists stride rows) (hfits : Action.AllFit stride rows history) :
    ∃ last, t.performAll history = .ok ((Action.allOnRows stride rows history).1, last) ∧
      last.Lists stride (Action.allOnRows stride rows history).2 := by
  induction history generalizing t rows with
  | nil => exact ⟨t, rfl, h⟩
  | cons action rest ih =>
    obtain ⟨next, hnext, hlists⟩ := h.perform hfits.1
    obtain ⟨last, hlast, hend⟩ := ih hlists hfits.2
    exact ⟨last, performAll_cons_eq_ok_iff.2 ⟨_, next, _, hnext, hlast, rfl⟩, hend⟩

/-- The first part of a history whose actions all fit. -/
theorem Action.AllFit.take (h : AllFit stride rows history) (n : Nat) :
    AllFit stride rows (history.take n) := by
  induction history generalizing rows n with
  | nil =>
    rw [List.take_nil]
    trivial
  | cons action rest ih =>
    cases n with
    | zero => trivial
    | succ n => exact ⟨h.1, ih h.2 n⟩

/-- **A table that goes along with its list of rows** all the way finds every place it is asked
about. -/
theorem Lists.allFit_of_agrees (h : t.Lists stride rows)
    (hagrees : ∀ n, t.Agrees stride rows (history.take n)) :
    Action.AllFit stride rows history := by
  induction history generalizing t rows with
  | nil => trivial
  | cons action rest ih =>
    obtain ⟨last, hone, hrows⟩ := hagrees 1
    obtain ⟨answer, next, answers, hnext, hrest, hanswers⟩ := performAll_cons_eq_ok_iff.1 hone
    obtain ⟨rfl, rfl⟩ := Prod.mk.inj (Except.ok.inj hrest)
    obtain rfl := (List.cons.inj hanswers).1
    have hfits := h.fits_of_perform hnext hrows
    obtain ⟨next', hnext', hlists⟩ := h.perform hfits
    obtain rfl := (Prod.mk.inj (Except.ok.inj (hnext.symm.trans hnext'))).2
    refine ⟨hfits, ih hlists fun n => ?_⟩
    obtain ⟨last, hall, hrows⟩ := hagrees (n + 1)
    obtain ⟨answer', next', answers', hnext', hrest, hanswers⟩ := performAll_cons_eq_ok_iff.1 hall
    obtain ⟨-, rfl⟩ := Prod.mk.inj (Except.ok.inj (hnext.symm.trans hnext'))
    obtain rfl := (List.cons.inj hanswers).2
    exact ⟨last, hrest, hrows⟩

/-- An action that goes by words: the number of the row that is written, and the cells of all rows
that are asked for can exist. -/
def Action.InWords (stride : Nat) : Action α → Prop
  | resize count => count * stride * cellBytes ≤ mostBytes
  | set index _ _ => index < 2 ^ 32
  | retain _ => True

theorem Action.allFit_of_words (hstride : stride < 2 ^ 32)
    (h : ∀ action ∈ history, action.InWords stride) (rows : List (List α)) :
    AllFit stride rows history := by
  induction history generalizing rows with
  | nil => trivial
  | cons action rest ih =>
    obtain ⟨haction, hrest⟩ := List.forall_mem_cons.1 h
    refine ⟨?_, ih hrest _⟩
    cases action with
    | resize count => exact haction
    | set index slot value => exact unaliased_of_words haction hstride _ _
    | retain keep => trivial

/-- **A table is a list of rows**, as far as no place has the address of another one. A table with
rows of at least one scalar goes along with a list of rows through a history, after each of its
actions, exactly if every resizing asks for cells that can exist and every writing finds the place it
is about. Then, at the end,

* writing has told each time what it tells of the list of rows: whether there is such a row and it
  has such a slot;
* the rows of the table are those that the same actions make of the empty list of rows, each with as
  many scalars as it should have;
* a slot of a row reads as in the list of rows exactly if its place does not have the address of
  another one.

Where rows are numbered with words, and a word holds the length of a row, no place has the address of
another one. -/
theorem performs_as_rows (hstride : 1 ≤ stride) (history : List (Action α)) :
    ((∀ n, (create stride).Agrees stride [] (history.take n)) ↔ Action.AllFit stride [] history) ∧
    (Action.AllFit stride [] history → ∃ t : Table α,
      (create stride).performAll history = .ok ((Action.allOnRows stride [] history).1, t) ∧
      t.rowsList = (Action.allOnRows stride [] history).2 ∧
      t.rows = (Action.allOnRows stride [] history).2.length ∧
      (∀ row ∈ (Action.allOnRows stride [] history).2, row.length = stride) ∧
      ∀ index slot,
        t.read index slot = (Action.allOnRows stride [] history).2[index]?.bind (·[slot]?) ↔
          Unaliased stride (Action.allOnRows stride [] history).2.length index slot) ∧
    (stride < 2 ^ 32 →
      ((∀ action ∈ history, action.InWords stride) → Action.AllFit stride [] history) ∧
      ∀ rows index slot, index < 2 ^ 32 → Unaliased stride rows index slot) := by
  have hempty : (create stride : Table α).Lists stride [] := lists_create hstride
  refine ⟨⟨hempty.allFit_of_agrees, fun hfits n => ?_⟩, fun hfits => ?_, fun hlong =>
    ⟨fun hwords => Action.allFit_of_words hlong hwords [],
      fun rows index slot hindex => unaliased_of_words hindex hlong rows slot⟩⟩
  · obtain ⟨last, hlast, hlists⟩ := hempty.performAll (hfits.take n)
    exact ⟨last, hlast, hlists.rowsList_eq⟩
  · obtain ⟨last, hlast, hlists⟩ := hempty.performAll hfits
    exact ⟨last, hlast, hlists.rowsList_eq, hlists.rows_eq, fun row hrow => hlists.length_eq hrow,
      fun index slot => hlists.read_eq_iff⟩

end

/-- Three rows, of which the middle one is dropped, and a row that is not there. -/
def packing : List (Action Single) :=
  [.resize 3, .set 0 0 1, .set 2 1 (-1), .retain [true, false, true, true], .set 2 0 1]

/-- The history succeeds, and answers and rows are those of the list of rows. -/
theorem performs_as_rows_packing : 1 ≤ 2 ∧ Action.AllFit 2 [] packing ∧
    ∃ t, (create 2).performAll packing = .ok ([none, some true, some true, none, some false], t) ∧
      t.rowsList = [[1, 0], [0, -1]] := by
  have hwords : ∀ action ∈ packing, action.InWords 2 := by
    simp [packing, Action.InWords, cellBytes, mostBytes]
  obtain ⟨-, hgoes, hfits⟩ := performs_as_rows (by decide : 1 ≤ 2) packing
  have hfits := (hfits (by decide)).1 hwords
  obtain ⟨t, hall, hrows, -⟩ := hgoes hfits
  exact ⟨by decide, hfits, t, hall, hrows⟩

/-- **A row that is too far out** is no row of the list, so writing in it tells that there is no such
place. The table tells that there is one, and writes in its first row: the address of the place has
come round to that of the first cell. -/
theorem overwrites_from_far_out :
    Action.allOnRows 4 [] [.resize 1, .set 4611686018427387904 0 (1 : Single)] =
      ([none, some false], [[0, 0, 0, 0]]) ∧
    ∃ t, (create 4).performAll [.resize 1, .set 4611686018427387904 0 (1 : Single)] =
        .ok ([none, some true], t) ∧
      t.rowsList = [[1, 0, 0, 0]] :=
  ⟨rfl, _, rfl, rfl⟩

end Table

end ParticleDynamics
