import ParticleDynamics.Proofs.Json.Reading
import ParticleDynamics.Settings.Stored

/-!
# Saved settings are loaded again

Settings are written as an object with a member for each field, from which each field is read back
(`Json.Value.fields?_record`). Words and levels of quality always survive that. A number survives
exactly when it is finite: the text has null for an infinite one, and null is not a number.

Nothing keeps an infinite number out of settings, not even that they were read from a text: the
literal `1e39` is one. So settings can be accepted and saved that cannot be loaded
(`Settings.accepted_not_reloaded`); which settings can be is said by `Settings.reload`.
-/

namespace ParticleDynamics

namespace Literal

/-- A whole number in range is read as a word. -/
theorem toWord?_of_lt {l : Literal} {n : Nat} (hwhole : l.isWhole = true)
    (hnegative : l.negative = false) (hsignificand : l.significand = n) (hlt : n < 4294967296) :
    l.toWord? = some n.toUInt32 := by
  rw [Literal.toWord?, hsignificand, if_pos ⟨hwhole, hnegative, hlt⟩]

end Literal

namespace Json

namespace Value

/-! ## Records -/

/-- Under different names, a member is the only one with its name. -/
theorem memberOnce_of_mem {members : List (String × Value)}
    (hnames : (members.map Prod.fst).Nodup) {member : String × Value} (h : member ∈ members) :
    memberOnce (members.map fun member => (some member.1, member.2)) member.1 =
      some (some member.2) := by
  have hfilter : (members.map fun member => ((some member.1 : Option String), member.2)).filter
      (fun other => other.1 = some member.1) = [(some member.1, member.2)] := by
    induction members with
    | nil => cases h
    | cons first members ih =>
      rw [List.map_cons, List.nodup_cons] at hnames
      rw [List.map_cons, List.filter_cons]
      rcases List.mem_cons.1 h with rfl | h
      · rw [if_pos (by simp), List.filter_eq_nil_iff.2]
        intro other hother hname
        obtain ⟨source, hsource, rfl⟩ := List.mem_map.1 hother
        have hsame : source.1 = member.1 := Option.some.inj (of_decide_eq_true hname)
        exact hnames.1 (hsame ▸ List.mem_map_of_mem hsource)
      · have hne : first.1 ≠ member.1 := fun heq =>
          hnames.1 (heq ▸ List.mem_map_of_mem h)
        rw [if_neg (by simpa using hne), ih hnames.2 h]
  rw [memberOnce, hfilter]

/-- **A record has its fields**, if their names are different. A name that came twice would be an
error of reading, and not a matter of which value counts. -/
theorem fields?_record {members : List (String × Value)}
    (hnames : (members.map Prod.fst).Nodup) :
    (record members).fields? (members.map Prod.fst) =
      some (members.map fun member => some member.2) := by
  have hall : (members.map fun member => ((some member.1 : Option String), member.2)).all
      (fun member => member.1.isSome) = true := by simp
  have hlookup (present : List (String × Value)) (hsubset : present ⊆ members) :
      (present.map Prod.fst).mapM
          (memberOnce (members.map fun member => (some member.1, member.2))) =
        some (present.map fun member => some member.2) := by
    induction present with
    | nil => rfl
    | cons member present ih =>
      rw [List.cons_subset] at hsubset
      simp only [List.map_cons, List.mapM_cons, memberOnce_of_mem hnames hsubset.1,
        ih hsubset.2, Option.bind_eq_bind, Option.bind_some, Option.pure_def]
  rw [record, fields?, if_pos hall]
  exact hlookup members (List.Subset.refl _)

/-! ## Fields -/

/-- A word is read back. -/
@[simp] theorem word?_ofWord (n : UInt32) : (ofWord n).word? = some n := by
  have hsignificand : Literal.significand ⟨false, Digit.ofNat n.toNat, [], none⟩ = n.toNat := by
    rw [Literal.significand, List.append_nil, Digit.toNat_ofNat]
  refine (Literal.toWord?_of_lt rfl rfl hsignificand n.toNat_lt).trans ?_
  rw [Nat.toUInt32_eq, UInt32.ofNat_toNat]

/-- A number is read back when it is finite. -/
theorem single?_ofSingle (x : Single) :
    (ofSingle x).single? = if x.isFinite then some x else none := by
  have hfinite := style.exists_literal?_iff x
  rw [ofSingle]
  generalize hliteral : style.literal? x = literal at *
  cases literal with
  | some l =>
    rw [if_pos (hfinite.1 ⟨l, rfl⟩)]
    exact Literal.toSingle?_of_literal? hliteral
  | none =>
    have hinfinite : ¬x.isFinite = true := fun h => by
      obtain ⟨l, hl⟩ := hfinite.2 h
      cases hl
    rw [if_neg hinfinite]
    rfl

/-- The literals of a number and of a word are strict. -/
theorem proper_ofSingle (x : Single) : (ofSingle x).Proper := by
  rw [ofSingle]
  split
  next hliteral => exact Literal.strict_of_literal? hliteral
  next => trivial

theorem proper_ofWord (n : UInt32) : (ofWord n).Proper := Literal.strict_nat n.toNat

end Value

end Json

namespace Settings

open Json

/-! ## Settings -/

/-- All numbers of the settings are finite. -/
def isFinite (s : Settings Single) : Bool := s.cellSize.isFinite && s.boundsPadding.isFinite

theorem proper_toValue (s : Settings Single) : s.toValue.Proper := by
  have hsingle := Value.proper_ofSingle
  have hword := Value.proper_ofWord
  simp only [toValue, Value.record, List.map_cons, List.map_nil, Value.Proper, Value.ProperMembers,
    Quality.toValue, Value.str, hsingle, hword, ne_eq, reduceCtorEq, not_false_eq_true, and_self]

/-- Settings are read back from their written form when their numbers are finite. -/
theorem ofValue?_toValue (s : Settings Single) :
    ofValue? s.toValue = if s.isFinite then some s else none := by
  have hfields : s.toValue.fields? fieldNames = some [
      some s.quality.toValue, some (.ofSingle s.cellSize), some (.ofSingle s.boundsPadding),
      some (.ofWord s.maxPerCell), some (.ofWord s.deviceGridCells), some (.ofWord s.hostGridCells),
      some (.ofWord s.constrainIterations), some (.ofWord s.workgroupSize),
      some (.ofWord s.maxParticles)] :=
    Value.fields?_record (show fieldNames.Nodup by decide)
  simp only [ofValue?, hfields, fieldOr, Quality.ofValue?_toValue, Value.single?_ofSingle,
    Value.word?_ofWord, isFinite, Option.bind_eq_bind, Option.bind_some, Option.pure_def]
  rcases Bool.eq_false_or_eq_true s.cellSize.isFinite with hcell | hcell <;>
    rcases Bool.eq_false_or_eq_true s.boundsPadding.isFinite with hpadding | hpadding <;>
      simp only [hcell, hpadding] <;> rfl

/-- **Settings that were saved are loaded again exactly when their numbers are finite**; otherwise
the saved text is refused. -/
theorem reload (s : Settings Single) :
    ofText? s.toText = (if s.isFinite then some s else none) ∧
      load (save s) = if s.isFinite then .ok s else .error .settings := by
  have htext : ofText? s.toText = if s.isFinite then some s else none := by
    rw [ofText?, toText, read?_pretty s.proper_toValue, Option.bind_some, ofValue?_toValue]
  refine ⟨htext, ?_⟩
  simp only [save, load, htext]
  cases s.isFinite <;> rfl

/-- A text is accepted whose settings are refused after they were saved. -/
theorem accepted_not_reloaded : ∃ s, ofText? "\x7b\"cell_size\": 1e39\x7d" = some s ∧
    ofText? s.toText = none := by
  have hread : (ofText? "\x7b\"cell_size\": 1e39\x7d").map (fun s => s.cellSize.isFinite) =
      some false := by decide +kernel
  obtain ⟨s, hs, hcell⟩ := Option.map_eq_some_iff.1 hread
  refine ⟨s, hs, ?_⟩
  have hfinite : s.isFinite = false := by rw [isFinite, hcell, Bool.false_and]
  rw [ofText?, toText, read?_pretty s.proper_toValue, Option.bind_some, ofValue?_toValue, hfinite]
  rfl

end Settings

end ParticleDynamics
