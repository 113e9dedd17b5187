/-!
# Breaches

A **breach** is a broken precondition for which an operation has no answer at all: a range with
its ends the wrong way round, an index past the end, a count that no longer fits its width. A
breach is not an error of the domain. Nobody is expected to handle it; the operation stops, and
what it had done so far is given up together with it.

Operations that can stop in this way return `Except Breach _`, so that a statement such as "this
query never stops" is an equation `query … = .ok …` and needs no second reading of the code.
-/

namespace ParticleDynamics

/-- The preconditions that can break. -/
inductive Breach where
  /-- all identities of a store have been issued -/
  | idsExhausted
  /-- an integer was to be limited to a range whose lower end lies above its upper end -/
  | emptyRange
  /-- a scalar was to be limited to a range that is empty or has an end that is not a number -/
  | unorderedRange
  /-- the named integer operation has a result that does not fit its width -/
  | overflow (operation : String)
  /-- an index lies at or past the end of what it addresses -/
  | outOfBounds (length index : Nat)
  /-- a container has more bytes than an address space -/
  | oversized
  /-- the device takes neither the program nor a buffer of the size that is asked for -/
  | rejected
deriving DecidableEq, Repr

namespace Breach

/-- The text under which a breach is reported when it stopped a module. -/
def message : Breach → String
  | idsExhausted => "attempt to add with overflow"
  | emptyRange => "assertion failed: min <= max"
  | unorderedRange => "min > max, or either was NaN"
  | overflow operation => "attempt to " ++ operation ++ " with overflow"
  | outOfBounds length index =>
    "index out of bounds: the len is " ++ toString length ++ " but the index is " ++ toString index
  | oversized => "capacity overflow"
  | rejected => "the device rejects what it is given"

end Breach

/-- A sequence succeeds exactly when its first part does, and its second part on what came of it. -/
theorem bind_eq_ok_iff {ε β γ : Type} {x : Except ε β} {f : β → Except ε γ} {c : γ} :
    (x >>= f) = .ok c ↔ ∃ b, x = .ok b ∧ f b = .ok c := by
  cases x <;> simp [bind, Except.bind]

/-- **A loop keeps what one round keeps**, and succeeds if every round does. The loop goes through
the items behind `front`, counting them; what holds before a round may depend on the count. -/
theorem exists_loop {ε β γ : Type} (loop : γ → Nat → List β → Except ε γ)
    (round : γ → Nat → β → Except ε γ) (holds : γ → Nat → Prop)
    (hnil : ∀ state count, loop state count [] = .ok state)
    (hcons : ∀ state count item rest, loop state count (item :: rest) =
      round state count item >>= fun next => loop next (count + 1) rest)
    {items : Array β}
    (hround : ∀ {state count item}, items[count]? = some item → holds state count →
      ∃ next, round state count item = .ok next ∧ holds next (count + 1))
    {rest front : List β} {state : γ} (hsplit : items.toList = front ++ rest)
    (h : holds state front.length) :
    ∃ final, loop state front.length rest = .ok final ∧ holds final items.size := by
  induction rest generalizing front state with
  | nil =>
    have hall : front.length = items.size := by
      rw [← Array.length_toList, hsplit, List.append_nil]
    exact ⟨state, hnil _ _, hall ▸ h⟩
  | cons item rest ih =>
    have hitem : items[front.length]? = some item := by
      rw [← Array.getElem?_toList, hsplit, List.getElem?_append_right (Nat.le_refl _),
        Nat.sub_self, List.getElem?_cons_zero]
    obtain ⟨next, hnext, hholds⟩ := hround hitem h
    have hlength : (front ++ [item]).length = front.length + 1 := List.length_append
    obtain ⟨final, hfinal, hend⟩ := ih (hsplit.trans (List.append_cons front item rest))
      (hlength ▸ hholds)
    exact ⟨final, (hcons ..).trans (bind_eq_ok_iff.2 ⟨next, hnext, hlength ▸ hfinal⟩), hend⟩

/-! ### Integers of a fixed width -/

/-- An integer that a signed 32-bit word can hold, as the result of an operation. -/
def fitSigned (operation : String) (n : Int) : Except Breach Int :=
  if -2147483648 ≤ n ∧ n < 2147483648 then .ok n else .error (.overflow operation)

/-- A count that a 32-bit word can hold, as the result of an operation. -/
def fitWord (operation : String) (n : Nat) : Except Breach Nat :=
  if n < 4294967296 then .ok n else .error (.overflow operation)

/-- A fitting result is the number itself. -/
theorem fitSigned_eq_ok_iff {operation : String} {n m : Int} :
    fitSigned operation n = .ok m ↔ (-2147483648 ≤ n ∧ n < 2147483648) ∧ n = m := by
  unfold fitSigned
  by_cases h : -2147483648 ≤ n ∧ n < 2147483648 <;> simp [h]

/-- A fitting count is the count itself. -/
theorem fitWord_eq_ok_iff {operation : String} {n m : Nat} :
    fitWord operation n = .ok m ↔ n < 4294967296 ∧ n = m := by
  unfold fitWord
  by_cases h : n < 4294967296 <;> simp [h]

theorem fitWord_eq_ok {operation : String} {n : Nat} (h : n < 4294967296) :
    fitWord operation n = .ok n :=
  fitWord_eq_ok_iff.2 ⟨h, rfl⟩

theorem fitWord_eq_error {operation : String} {n : Nat} (h : 4294967296 ≤ n) :
    fitWord operation n = .error (.overflow operation) :=
  if_neg (Nat.not_lt.2 h)

theorem fitSigned_eq_ok {operation : String} {n : Int} (hlo : -2147483648 ≤ n)
    (hhi : n < 2147483648) : fitSigned operation n = .ok n :=
  fitSigned_eq_ok_iff.2 ⟨⟨hlo, hhi⟩, rfl⟩

/-! ### Containers -/

/-- The greatest number of bytes of one container. -/
def mostBytes : Nat := 9223372036854775807

/-- Room for a number of items of a size in bytes. -/
def reserve (items bytes : Nat) : Except Breach Unit :=
  if items * bytes ≤ mostBytes then .ok () else .error .oversized

/-- There is room for what fits. -/
theorem reserve_eq_ok_iff {items bytes : Nat} :
    reserve items bytes = .ok () ↔ items * bytes ≤ mostBytes := by
  unfold reserve
  by_cases h : items * bytes ≤ mostBytes <;> simp [h]

/-- The element at `index`, or a breach when there is none. -/
@[inline] def fetch {β : Type} (items : Array β) (index : Nat) : Except Breach β :=
  match items[index]? with
  | some item => .ok item
  | none => .error (.outOfBounds items.size index)

/-- Fetching succeeds exactly below the size. -/
theorem fetch_eq_ok_iff {β : Type} {items : Array β} {index : Nat} {item : β} :
    fetch items index = .ok item ↔ items[index]? = some item := by
  unfold fetch
  split <;> simp_all

end ParticleDynamics
