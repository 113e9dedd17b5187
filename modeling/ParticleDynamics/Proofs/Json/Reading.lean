import ParticleDynamics.Proofs.Json.Literals

/-!
# Values survive writing and reading

A value that is written with one item or member per line is read back (`Json.read?_pretty`), if it
is proper: its literals are strict and its strings are text. What comes after a value never
continues a literal, and the length of its text bounds the recursion of the reader.
-/

namespace ParticleDynamics

namespace Json

/-! ## Strings -/

theorem hexValue?_hexDigit {n : Nat} (h : n < 16) : hexValue? (hexDigit n) = some n := by
  revert n
  decide

/-- A piece stands for a character: it is the character, or the number of a control character. -/
def Stands (p : Piece) (c : Char) : Prop := p = .char c ∨ p = .unit c.toNat ∧ c.toNat < 32

/-- A piece that stands for a character is joined to what follows. -/
theorem joinPieces_cons {p : Piece} {c : Char} (h : Stands p c) (pieces : List Piece) :
    joinPieces (p :: pieces) = (joinPieces pieces).map (c :: ·) := by
  obtain rfl | ⟨rfl, hcontrol⟩ := h
  · rw [joinPieces]
  · have hsurrogate (bound : Nat) : ¬(0xd800 ≤ c.toNat ∧ c.toNat < bound) := by omega
    have hlow : ¬(0xdc00 ≤ c.toNat ∧ c.toNat < 0xe000) := by omega
    rcases pieces with _ | ⟨c' | low, pieces⟩
    · simp only [joinPieces, if_neg (hsurrogate _), Char.ofNat_toNat]
    · simp only [joinPieces, if_neg (hsurrogate _), Char.ofNat_toNat]
    · simp only [joinPieces, if_neg (hsurrogate _), if_neg hlow, Char.ofNat_toNat]

/-- An escape with one letter is read as the character that it stands for. -/
theorem readPieces_letter {letter c : Char} (hletter : letter ≠ 'u')
    (h : unescape? letter = some c) (rest : List Char) :
    readPieces ('\\' :: letter :: rest) =
      (readPieces rest).map fun (pieces, rest') => (.char c :: pieces, rest') := by
  rw [readPieces]
  · rw [h]
    cases readPieces rest <;> rfl
  · intro a b c d rest' heq
    exact absurd heq hletter

/-- A character that is not escaped is read as itself. -/
theorem readPieces_char {c : Char} (hquote : c ≠ '"') (hslash : c ≠ '\\') (hcontrol : ¬c.toNat < 32)
    (rest : List Char) :
    readPieces (c :: rest) =
      (readPieces rest).map fun (pieces, rest') => (.char c :: pieces, rest') := by
  rw [readPieces]
  · rw [if_neg hcontrol]
    cases readPieces rest <;> rfl
  all_goals
    intros
    simp_all

/-- A control character is escaped by its number. -/
theorem readPieces_unit {c : Char} (hcontrol : c.toNat < 32) (rest : List Char) :
    readPieces ('\\' :: 'u' :: '0' :: '0' :: hexDigit (c.toNat / 16) :: hexDigit (c.toNat % 16) ::
        rest) =
      (readPieces rest).map fun (pieces, rest') => (.unit c.toNat :: pieces, rest') := by
  have hunit : unit? '0' '0' (hexDigit (c.toNat / 16)) (hexDigit (c.toNat % 16)) =
      some c.toNat := by
    have hzero : hexValue? '0' = some 0 := rfl
    simp only [unit?, hzero, hexValue?_hexDigit (by omega : c.toNat / 16 < 16),
      hexValue?_hexDigit (by omega : c.toNat % 16 < 16), Option.bind_eq_bind, Option.bind_some,
      Option.pure_def]
    congr 1
    omega
  rw [readPieces, hunit]
  cases readPieces rest <;> rfl

/-- A written character is read as a piece that stands for it. -/
theorem exists_readPieces (c : Char) :
    ∃ p, Stands p c ∧ ∀ rest, readPieces (escape c ++ rest) =
      (readPieces rest).map fun (pieces, rest') => (p :: pieces, rest') := by
  unfold escape
  split
  next => exact ⟨_, .inl rfl, readPieces_letter (by decide) rfl⟩
  next => exact ⟨_, .inl rfl, readPieces_letter (by decide) rfl⟩
  next => exact ⟨_, .inl rfl, readPieces_letter (by decide) rfl⟩
  next => exact ⟨_, .inl rfl, readPieces_letter (by decide) rfl⟩
  next => exact ⟨_, .inl rfl, readPieces_letter (by decide) rfl⟩
  next => exact ⟨_, .inl rfl, readPieces_letter (by decide) rfl⟩
  next => exact ⟨_, .inl rfl, readPieces_letter (by decide) rfl⟩
  next hquote hslash _ _ _ _ _ =>
    split
    next hcontrol => exact ⟨_, .inr ⟨rfl, hcontrol⟩, readPieces_unit hcontrol⟩
    next hcontrol => exact ⟨_, .inl rfl, readPieces_char hquote hslash hcontrol⟩

/-- **A string is read back** up to its closing mark. Each character is read back from its escape,
and no escape begins with the closing mark. -/
theorem readString_eq (s : String) (rest : List Char) :
    readString (s.toList.flatMap escape ++ '"' :: rest) = some (some s, rest) := by
  have hpieces (cs : List Char) : ∃ pieces, joinPieces pieces = some cs ∧
      readPieces (cs.flatMap escape ++ '"' :: rest) = some (pieces, rest) := by
    induction cs with
    | nil => exact ⟨[], rfl, by rw [List.flatMap_nil, List.nil_append, readPieces]⟩
    | cons c cs ih =>
      obtain ⟨pieces, hjoin, hread⟩ := ih
      obtain ⟨p, hstands, hescape⟩ := exists_readPieces c
      refine ⟨p :: pieces, ?_, ?_⟩
      · rw [joinPieces_cons hstands, hjoin, Option.map_some]
      · rw [List.flatMap_cons, List.append_assoc, hescape, hread, Option.map_some]
  obtain ⟨pieces, hjoin, hread⟩ := hpieces s.toList
  simp only [readString, hread, hjoin, Option.bind_eq_bind, Option.bind_some, Option.pure_def,
    Option.map_some, String.ofList_toList]

/-! ## Blanks -/

theorem skipBlanks_indent (depth : Nat) (rest : List Char) :
    skipBlanks (Value.indent depth ++ rest) = skipBlanks rest := by
  refine List.dropWhile_append_of_pos fun c hc => ?_
  rcases List.mem_cons.1 hc with rfl | hc
  · rfl
  · rw [List.eq_of_mem_replicate hc]
    rfl

theorem skipBlanks_cons {c : Char} (h : isBlank c = false) (rest : List Char) :
    skipBlanks (c :: rest) = c :: rest :=
  List.dropWhile_cons_of_neg (by rw [h]; nofun)

theorem stops_comma (rest : List Char) : Literal.Stops (',' :: rest) := by
  rintro c hc
  obtain rfl : ',' = c := Option.some.inj hc
  decide

theorem stops_indent (depth : Nat) (rest : List Char) :
    Literal.Stops (Value.indent depth ++ rest) := by
  rintro c hc
  obtain rfl : '\n' = c := Option.some.inj hc
  decide

/-! ## Values -/

namespace Value

mutual

/-- The literals of a value are strict and its strings are text. -/
def Proper : Value → Prop
  | number literal => literal.Strict
  | text content => content ≠ none
  | array items => ProperItems items
  | object members => ProperMembers members
  | _ => True

/-- All items are proper. -/
def ProperItems : List Value → Prop
  | [] => True
  | item :: rest => item.Proper ∧ ProperItems rest

/-- All names are text, and all members are proper. -/
def ProperMembers : List (Option String × Value) → Prop
  | [] => True
  | (name, value) :: rest => name ≠ none ∧ value.Proper ∧ ProperMembers rest

end

/-- A strict literal starts with a minus sign or a digit. -/
theorem head_chars {l : Literal} (h : l.Strict) :
    ∃ c rest, l.chars true = c :: rest ∧ (c = '-' ∨ ∃ d : Digit, c = d.char) := by
  have hne := h.whole_ne_nil
  unfold Literal.chars
  cases l.negative with
  | true => exact ⟨_, _, rfl, .inl rfl⟩
  | false =>
    generalize l.whole = whole at *
    rcases whole with _ | ⟨d, digits⟩
    · exact absurd rfl hne
    · exact ⟨_, _, rfl, .inr ⟨d, rfl⟩⟩

/-- No other value starts as a number does, and no blank or bracket. -/
theorem ne_of_head {c : Char} (h : c = '-' ∨ ∃ d : Digit, c = d.char) :
    (c ≠ 'n' ∧ c ≠ 't' ∧ c ≠ 'f' ∧ c ≠ '"' ∧ c ≠ '[' ∧ c ≠ '\x7b') ∧
      isBlank c = false ∧ c ≠ ']' := by
  rcases h with rfl | ⟨d, rfl⟩
  · decide
  · revert d
    decide

/-- The text of a proper value starts with a character that is no blank and no closing bracket. -/
theorem head_pretty (depth : Nat) {v : Value} (h : v.Proper) :
    ∃ c rest, v.prettyChars depth = c :: rest ∧ isBlank c = false ∧ c ≠ ']' := by
  cases v with
  | null => exact ⟨'n', _, rfl, by decide⟩
  | bool value => cases value with
    | true => exact ⟨'t', _, rfl, by decide⟩
    | false => exact ⟨'f', _, rfl, by decide⟩
  | number literal =>
    obtain ⟨c, rest, heq, hc⟩ := head_chars h
    exact ⟨c, rest, heq, (ne_of_head hc).2⟩
  | text content => exact ⟨'"', _, rfl, by decide⟩
  | array items => cases items with
    | nil => exact ⟨'[', _, rfl, by decide⟩
    | cons item items => exact ⟨'[', _, rfl, by decide⟩
  | object members => cases members with
    | nil => exact ⟨'\x7b', _, rfl, by decide⟩
    | cons member members => exact ⟨'\x7b', _, rfl, by decide⟩

theorem skipBlanks_pretty (depth : Nat) {v : Value} (h : v.Proper) (rest : List Char) :
    skipBlanks (v.prettyChars depth ++ rest) = v.prettyChars depth ++ rest := by
  obtain ⟨c, rest', heq, hc, -⟩ := head_pretty depth h
  rw [heq, List.cons_append, skipBlanks_cons hc]

end Value

/-- A text that starts as a number is read as one. -/
theorem readValue_number {input rest : List Char} {c : Char} (fuel : Nat)
    (h : skipBlanks input = c :: rest) (hc : c = '-' ∨ ∃ d : Digit, c = d.char) :
    readValue (fuel + 1) input =
      (Literal.read (c :: rest)).map fun (literal, rest') => (.number literal, rest') := by
  obtain ⟨⟨hn, ht, hf, hquote, hbracket, hbrace⟩, -⟩ := Value.ne_of_head hc
  rw [readValue, h]
  split
  next heq => exact absurd (List.cons.inj heq).1 hn
  next heq => exact absurd (List.cons.inj heq).1 ht
  next heq => exact absurd (List.cons.inj heq).1 hf
  next heq => exact absurd (List.cons.inj heq).1 hquote
  next heq => exact absurd (List.cons.inj heq).1 hbracket
  next heq => exact absurd (List.cons.inj heq).1 hbrace
  next => rfl

/-- A list with items is read by its items. -/
theorem readValue_array {input rest : List Char} (fuel : Nat) (h : skipBlanks input = '[' :: rest)
    (hitem : ∀ rest', skipBlanks rest ≠ ']' :: rest') :
    readValue (fuel + 1) input =
      (readItems fuel rest).map fun (items, rest') => (.array items, rest') := by
  simp only [readValue, h]

/-- An object with members is read by its members. -/
theorem readValue_object {input rest : List Char} (fuel : Nat)
    (h : skipBlanks input = '\x7b' :: rest) (hmember : ∀ rest', skipBlanks rest ≠ '\x7d' :: rest') :
    readValue (fuel + 1) input =
      (readMembers fuel rest).map fun (members, rest') => (.object members, rest') := by
  simp only [readValue, h]

theorem readItems_cons {fuel : Nat} {input rest rest' : List Char} {item : Value}
    {items : List Value} (h : readValue fuel input = some (item, ',' :: rest))
    (hitems : readItems fuel rest = some (items, rest')) :
    readItems (fuel + 1) input = some (item :: items, rest') := by
  simp only [readItems, h, Option.bind_eq_bind, Option.bind_some, hitems, Option.pure_def,
    skipBlanks_cons (by decide : isBlank ',' = false)]

theorem readItems_last {fuel : Nat} {input rest rest' : List Char} {item : Value}
    (h : readValue fuel input = some (item, rest)) (hclose : skipBlanks rest = ']' :: rest') :
    readItems (fuel + 1) input = some ([item], rest') := by
  simp only [readItems, h, Option.bind_eq_bind, Option.bind_some, Option.pure_def, hclose]

theorem readMembers_cons {fuel : Nat} {input rest rest' rest'' : List Char} {name : String}
    {value : Value} {members : List (Option String × Value)}
    (h : skipBlanks input = quote name ++ ':' :: rest)
    (hvalue : readValue fuel rest = some (value, ',' :: rest'))
    (hmembers : readMembers fuel rest' = some (members, rest'')) :
    readMembers (fuel + 1) input = some ((some name, value) :: members, rest'') := by
  have hname := readString_eq name (':' :: rest)
  simp only [quote, List.cons_append, List.append_assoc, List.nil_append] at h
  simp only [readMembers, h, hname, hvalue, hmembers, Option.bind_eq_bind, Option.bind_some,
    Option.pure_def, skipBlanks_cons (by decide : isBlank ':' = false),
    skipBlanks_cons (by decide : isBlank ',' = false)]

theorem readMembers_last {fuel : Nat} {input rest rest' rest'' : List Char} {name : String}
    {value : Value} (h : skipBlanks input = quote name ++ ':' :: rest)
    (hvalue : readValue fuel rest = some (value, rest'))
    (hclose : skipBlanks rest' = '\x7d' :: rest'') :
    readMembers (fuel + 1) input = some ([(some name, value)], rest'') := by
  have hname := readString_eq name (':' :: rest)
  simp only [quote, List.cons_append, List.append_assoc, List.nil_append] at h
  simp only [readMembers, h, hname, hvalue, hclose, Option.bind_eq_bind, Option.bind_some,
    Option.pure_def, skipBlanks_cons (by decide : isBlank ':' = false)]

/-! ## Reading what was written -/

theorem skipBlanks_items (depth outer : Nat) {item : Value} {items : List Value}
    (h : Value.ProperItems (item :: items)) (rest : List Char) :
    ∀ rest', skipBlanks (Value.prettyItems depth (item :: items) ++
      (Value.indent outer ++ ']' :: rest)) ≠ ']' :: rest' := by
  obtain ⟨c, tail, hhead, hblank, hbracket⟩ := Value.head_pretty depth h.1
  intro rest' heq
  obtain ⟨more, hmore⟩ : ∃ more, Value.prettyItems depth (item :: items) ++
      (Value.indent outer ++ ']' :: rest) = Value.indent depth ++ (c :: more) := by
    cases items <;> simp [Value.prettyItems, hhead]
  rw [hmore, skipBlanks_indent, skipBlanks_cons hblank] at heq
  exact hbracket (List.cons.inj heq).1

theorem skipBlanks_members (depth outer : Nat) {member : Option String × Value}
    {members : List (Option String × Value)} (h : Value.ProperMembers (member :: members))
    (rest : List Char) :
    ∀ rest', skipBlanks (Value.prettyMembers depth (member :: members) ++
      (Value.indent outer ++ '\x7d' :: rest)) ≠ '\x7d' :: rest' := by
  intro rest' heq
  obtain ⟨more, hmore⟩ : ∃ more, Value.prettyMembers depth (member :: members) ++
      (Value.indent outer ++ '\x7d' :: rest) = Value.indent depth ++ ('"' :: more) := by
    cases members <;> simp [Value.prettyMembers, Value.quoted, quote]
  rw [hmore, skipBlanks_indent, skipBlanks_cons (by decide)] at heq
  exact absurd (List.cons.inj heq).1 (by decide)

mutual

/-- A written value is read back; the length of its text is enough of a bound. -/
theorem readValue_pretty (v : Value) (depth : Nat) {fuel : Nat} {input rest : List Char}
    (h : v.Proper) (hrest : Literal.Stops rest)
    (hinput : skipBlanks input = v.prettyChars depth ++ rest)
    (hfuel : (v.prettyChars depth).length ≤ fuel) : readValue fuel input = some (v, rest) := by
  obtain ⟨fuel, rfl⟩ : ∃ fuel', fuel = fuel' + 1 := by
    obtain ⟨c, tail, hhead, -⟩ := Value.head_pretty depth h
    -- every value has a first sign, so there is fuel for one more
    rw [hhead, List.length_cons] at hfuel
    exact ⟨fuel - 1, by omega⟩
  match v with
  -- words that are fixed are read by their first sign
  | .null =>
    simp only [readValue, hinput, Value.prettyChars, List.cons_append, List.nil_append]
  | .bool true =>
    simp only [readValue, hinput, Value.prettyChars, List.cons_append, List.nil_append]
  | .bool false =>
    simp only [readValue, hinput, Value.prettyChars, List.cons_append, List.nil_append]
  -- a number ends where what follows cannot continue it
  | .number literal =>
    obtain ⟨c, tail, hchars, hc⟩ := Value.head_chars h
    have hread := Literal.read_chars h hrest
    simp only [Value.prettyChars, hchars, List.cons_append] at hinput
    rw [readValue_number fuel hinput hc, ← List.cons_append, ← hchars, hread]
    rfl
  | .text none => exact absurd rfl h
  | .text (some content) =>
    have hread := readString_eq content rest
    simp only [Value.prettyChars, Value.quoted, quote, Option.getD_some, List.cons_append,
      List.append_assoc, List.nil_append] at hinput
    simp only [readValue, hinput, hread, Option.map_some]
  -- an empty list closes at once, any other is read item by item with less fuel
  | .array [] =>
    simp only [readValue, hinput, Value.prettyChars, List.cons_append, List.nil_append,
      skipBlanks_cons (by decide : isBlank ']' = false)]
  | .array (item :: items) =>
    simp only [Value.prettyChars, List.cons_append, List.append_assoc, List.nil_append] at hinput
    simp only [Value.prettyChars, List.cons_append, List.length_cons, List.length_append] at hfuel
    rw [readValue_array fuel hinput (skipBlanks_items _ _ h _),
      readItems_pretty item items _ _ h (by omega)]
    rfl
  | .object [] =>
    simp only [readValue, hinput, Value.prettyChars, List.cons_append, List.nil_append,
      skipBlanks_cons (by decide : isBlank '\x7d' = false)]
  | .object (member :: members) =>
    simp only [Value.prettyChars, List.cons_append, List.append_assoc, List.nil_append] at hinput
    simp only [Value.prettyChars, List.cons_append, List.length_cons, List.length_append] at hfuel
    rw [readValue_object fuel hinput (skipBlanks_members _ _ h _),
      readMembers_pretty member members _ _ h (by omega)]
    rfl
termination_by fuel

/-- Written items are read back up to the closing bracket. -/
theorem readItems_pretty (item : Value) (items : List Value) (depth outer : Nat) {fuel : Nat}
    {rest : List Char} (h : Value.ProperItems (item :: items))
    (hfuel : (Value.prettyItems depth (item :: items)).length ≤ fuel) :
    readItems fuel
        (Value.prettyItems depth (item :: items) ++ (Value.indent outer ++ ']' :: rest)) =
      some (item :: items, rest) := by
  match items with
  | [] =>
    simp only [Value.prettyItems, Value.indent, List.cons_append, List.length_cons,
      List.length_append] at hfuel
    obtain ⟨fuel, rfl⟩ : ∃ fuel', fuel = fuel' + 1 := ⟨fuel - 1, by omega⟩
    simp only [Value.prettyItems, List.append_assoc]
    refine readItems_last (readValue_pretty item depth h.1 (stops_indent outer (']' :: rest)) ?_
      (by omega)) ?_
    · rw [skipBlanks_indent, Value.skipBlanks_pretty depth h.1]
    · rw [skipBlanks_indent, skipBlanks_cons (by decide)]
  | next :: items =>
    simp only [Value.prettyItems, Value.indent, List.cons_append, List.length_cons,
      List.length_append] at hfuel
    obtain ⟨fuel, rfl⟩ : ∃ fuel', fuel = fuel' + 1 := ⟨fuel - 1, by omega⟩
    simp only [Value.prettyItems, List.append_assoc, List.cons_append]
    refine readItems_cons (readValue_pretty item depth h.1 (stops_comma _) ?_ (by omega))
      (readItems_pretty next items depth outer h.2 (by omega))
    rw [skipBlanks_indent, Value.skipBlanks_pretty depth h.1]
termination_by fuel

/-- Written members are read back up to the closing bracket. -/
theorem readMembers_pretty (member : Option String × Value) (members : List (Option String × Value))
    (depth outer : Nat) {fuel : Nat} {rest : List Char}
    (h : Value.ProperMembers (member :: members))
    (hfuel : (Value.prettyMembers depth (member :: members)).length ≤ fuel) :
    readMembers fuel
        (Value.prettyMembers depth (member :: members) ++ (Value.indent outer ++ '\x7d' :: rest)) =
      some (member :: members, rest) := by
  match member, members with
  | (none, value), _ => exact absurd rfl h.1
  -- the last member is followed by the closing sign
  | (some name, value), [] =>
    simp only [Value.prettyMembers, Value.indent, List.cons_append, List.length_cons,
      List.length_append] at hfuel
    obtain ⟨fuel, rfl⟩ : ∃ fuel', fuel = fuel' + 1 := ⟨fuel - 1, by omega⟩
    simp only [Value.prettyMembers, List.append_assoc, List.cons_append]
    refine readMembers_last ((skipBlanks_indent _ _).trans (skipBlanks_cons (by decide) _))
      (readValue_pretty value depth h.2.1 (stops_indent outer ('\x7d' :: rest)) ?_
        (by omega)) ?_
    · exact Value.skipBlanks_pretty depth h.2.1 _
    · rw [skipBlanks_indent, skipBlanks_cons (by decide)]
  -- any other is followed by a comma and the rest of the members
  | (some name, value), next :: members =>
    simp only [Value.prettyMembers, Value.indent, List.cons_append, List.length_cons,
      List.length_append] at hfuel
    obtain ⟨fuel, rfl⟩ : ∃ fuel', fuel = fuel' + 1 := ⟨fuel - 1, by omega⟩
    simp only [Value.prettyMembers, List.append_assoc, List.cons_append]
    refine readMembers_cons ((skipBlanks_indent _ _).trans (skipBlanks_cons (by decide) _))
      (readValue_pretty value depth h.2.1 (stops_comma _) ?_ (by omega))
      (readMembers_pretty next members depth outer h.2.2 (by omega))
    exact Value.skipBlanks_pretty depth h.2.1 _
termination_by fuel

end

/-- **A proper value is read back from its text.** The induction is on the value, and the text that
follows a part of it is carried along, because a reader stops only where it has to. -/
theorem read?_pretty {v : Value} (h : v.Proper) : read? v.pretty = some v := by
  have hinput := Value.skipBlanks_pretty 0 h []
  rw [List.append_nil] at hinput
  have hstops : Literal.Stops [] := fun c hc => by cases hc
  have hread : readValue ((v.prettyChars 0).length + 1) (v.prettyChars 0) = some (v, []) :=
    readValue_pretty v 0 h hstops (by rw [hinput, List.append_nil]) (Nat.le_succ _)
  simp only [read?, Value.pretty, String.toList_ofList, hread]
  rfl

end Json

end ParticleDynamics
