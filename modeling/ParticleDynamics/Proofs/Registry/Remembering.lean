import ParticleDynamics.Proofs.Registry.Values
import ParticleDynamics.Proofs.Single.Finite

/-!
# What the parameters of a registry remember

A write is **successful** if it is not refused (`Registry.Writes`). After any sequence of actions,
what a parameter reads is the value of the last successful write to it, limited to the declared
range, or the initial value as long as there was none (`Registry.remembered`). Nothing else that is
done to the registry has a part in it: not the parameters next to it, not other modules, not the
flag, and not what is refused.
-/

namespace ParticleDynamics

open Registry (Action Watched)

variable {α : Type} [Scalar α]

/-! ## All actions -/

namespace Registry

variable {actions : List (Action α)} {action : Action α} {m : Module α} {index time : Nat}
  {value : ParamValue α}

/-- **A write that is successful**: to a parameter of a registered module, by an action that is not
refused. -/
def Writes (r : Registry α) (action : Action α) (m : Module α) (index : Nat)
    (value : ParamValue α) : Prop :=
  m ∈ r.modules ∧ (∃ change, r.act action = .ok change) ∧ m.Stores action index value

/-- One of a sequence of actions is a write that is successful when its time comes. -/
def WrittenAt (actions : List (Action α)) (time : Nat) (m : Module α) (index : Nat)
    (value : ParamValue α) : Prop :=
  ∃ action ∈ actions[time]?, (Watched.run (actions.take time)).registry.Writes action m index value

/-- The last write to a parameter that is successful. -/
def LastWritten (actions : List (Action α)) (m : Module α) (index : Nat) (value : ParamValue α) :
    Prop :=
  ∃ time, WrittenAt actions time m index value ∧
    ∀ later other, WrittenAt actions later m index other → later ≤ time

/-- No write to a parameter is successful. -/
def NeverWritten (actions : List (Action α)) (m : Module α) (index : Nat) : Prop :=
  ∀ time value, ¬WrittenAt actions time m index value

/-- What is written by one action more is written by it or before. -/
theorem writtenAt_concat_iff : WrittenAt (actions ++ [action]) time m index value ↔
    WrittenAt actions time m index value ∨ time = actions.length ∧
      (Watched.run actions).registry.Writes action m index value := by
  rcases Nat.lt_trichotomy time actions.length with hlt | rfl | hgt
  · simp [WrittenAt, List.getElem?_append_left hlt, List.take_append_of_le_length hlt.le,
      Nat.ne_of_lt hlt]
  · simp [WrittenAt]
  · simp [WrittenAt, List.getElem?_eq_none, hgt.le, Nat.ne_of_gt hgt, Nat.succ_le_of_lt hgt]

/-- What is written is written by one of the actions. -/
theorem WrittenAt.lt (h : WrittenAt actions time m index value) : time < actions.length := by
  obtain ⟨action, haction, -⟩ := h
  exact (List.getElem?_eq_some_iff.1 haction).1

section Concat

variable (hnone : ∀ other, ¬(Watched.run actions).registry.Writes action m index other)

include hnone

theorem LastWritten.concat (h : LastWritten actions m index value) :
    LastWritten (actions ++ [action]) m index value := by
  obtain ⟨time, hwritten, hlast⟩ := h
  refine ⟨time, writtenAt_concat_iff.2 (.inl hwritten), fun later other hlater => ?_⟩
  rcases writtenAt_concat_iff.1 hlater with hbefore | ⟨-, hwrites⟩
  · exact hlast later other hbefore
  · exact absurd hwrites (hnone other)

theorem NeverWritten.concat (h : NeverWritten actions m index) :
    NeverWritten (actions ++ [action]) m index := by
  intro time other hwritten
  rcases writtenAt_concat_iff.1 hwritten with hbefore | ⟨-, hwrites⟩
  · exact h time other hbefore
  · exact hnone other hwrites

end Concat

/-- A write that is successful is the last one so far. -/
theorem lastWritten_concat (h : (Watched.run actions).registry.Writes action m index value) :
    LastWritten (actions ++ [action]) m index value := by
  refine ⟨actions.length, writtenAt_concat_iff.2 (.inr ⟨rfl, h⟩), fun later other hlater => ?_⟩
  rcases writtenAt_concat_iff.1 hlater with hbefore | ⟨rfl, -⟩
  · exact hbefore.lt.le
  · exact Nat.le_refl _

theorem run_concat (actions : List (Action α)) (action : Action α) :
    Watched.run (actions ++ [action]) = (Watched.run actions).perform action := by
  rw [Watched.run, List.foldl_append]
  rfl

/-- An action is refused and changes nothing, or it comes to a change. -/
theorem perform_cases (w : Watched α) (action : Action α) :
    (∃ refusal, w.registry.act action = .error refusal ∧ w.perform action = w) ∨
      ∃ change, w.registry.act action = .ok change ∧
        (w.perform action).registry = change.registry := by
  rw [Watched.perform]
  cases w.registry.act action with
  | error refusal => exact .inl ⟨refusal, rfl, rfl⟩
  | ok change => exact .inr ⟨change, rfl, rfl⟩

/-- **A run of actions leads to values of the parameters.** On every way of writing a value it is
limited to its range or checked for its kind. -/
theorem sound_run (actions : List (Action α)) : (Watched.run actions).registry.Sound := by
  induction actions using List.reverseRecOn with
  | nil => exact ⟨.nil, fun entry hentry => absurd hentry (Array.not_mem_empty entry)⟩
  | append_singleton actions action ih =>
    rw [run_concat]
    rcases perform_cases (Watched.run actions) action with
      ⟨refusal, -, hsame⟩ | ⟨change, hact, hnext⟩
    · rwa [hsame]
    · rw [hnext]
      exact ih.act hact

/-- What is written belongs to a module that is there. -/
theorem WrittenAt.mem_modules (h : WrittenAt actions time m index value) :
    m ∈ (Watched.run actions).registry.modules := by
  induction actions using List.reverseRecOn with
  | nil => cases h.lt
  | append_singleton actions action ih =>
    have hbefore : m ∈ (Watched.run actions).registry.modules := by
      rcases writtenAt_concat_iff.1 h with hbefore | ⟨-, hmem, -⟩
      · exact ih hbefore
      · exact hmem
    rw [run_concat]
    rcases perform_cases (Watched.run actions) action with
      ⟨refusal, -, hsame⟩ | ⟨change, hact, hnext⟩
    · rwa [hsame]
    · rw [hnext]
      exact mem_modules_of_act hact hbefore

/-- What a parameter holds: the value of the last successful write to it, or its initial value as
long as there was none. -/
def Holds (actions : List (Action α)) (m : Module α) (index : Nat) (value : ParamValue α) : Prop :=
  LastWritten actions m index value ∨ NeverWritten actions m index ∧
    ∃ decl ∈ m.params[index]?, ParamBag.initial decl = .ok value

/-- **After a run of actions every parameter holds what was written last.** By induction on the run
from its end: the last action writes the parameter, or leaves it alone, or registers its module. -/
theorem holds_run {entry : Entry α} (hentry : entry ∈ (Watched.run actions).registry.entries)
    (hvalue : entry.params.values[index]? = some value) :
    Holds actions entry.module index value := by
  induction actions using List.reverseRecOn generalizing entry value with
  | nil => exact absurd hentry (Array.not_mem_empty entry)
  | append_singleton actions action ih =>
    rw [run_concat] at hentry
    -- an action that does not write the parameter leaves both alternatives as they are
    have hstays
        (hnone : ∀ other,
          ¬(Watched.run actions).registry.Writes action entry.module index other)
        (h : Holds actions entry.module index value) :
        Holds (actions ++ [action]) entry.module index value := by
      rcases h with hlast | ⟨hnever, hinitial⟩
      · exact .inl (hlast.concat hnone)
      · exact .inr ⟨hnever.concat hnone, hinitial⟩
    rcases perform_cases (Watched.run actions) action with
      ⟨refusal, hact, hsame⟩ | ⟨change, hact, hnext⟩
    · -- a refused action writes nothing
      rw [hsame] at hentry
      refine hstays (fun other hwrites => ?_) (ih hentry hvalue)
      obtain ⟨-, ⟨change, hchange⟩, -⟩ := hwrites
      cases hact.symm.trans hchange
    · rw [hnext] at hentry
      obtain ⟨place, hplace⟩ := Array.mem_iff_getElem?.1 hentry
      rcases entry_of_act (sound_run actions) hact hplace with
        ⟨old, hold, hmodule, hover⟩ | ⟨hnew, hparams⟩
      · -- the module was there before: either the action has stored the value, or it stayed
        rw [hmodule] at hstays ⊢
        have holdmem := Array.mem_of_getElem? hold
        rcases (hover index value).1 hvalue with hstored | ⟨hbefore, hnone⟩
        · exact .inl (lastWritten_concat
            ⟨List.mem_map_of_mem (Array.mem_toList_iff.2 holdmem), ⟨change, hact⟩, hstored⟩)
        · exact hstays (fun other hwrites => hnone other hwrites.2.2) (ih holdmem hbefore)
      · -- the module is new, so no earlier write can have been one of its own
        refine .inr ⟨fun time other hwritten => ?_, exists_initial hparams hvalue⟩
        have hmem : entry.module ∈ (Watched.run actions).registry.modules := by
          rcases writtenAt_concat_iff.1 hwritten with hbefore | ⟨-, hmem, -⟩
          · exact hbefore.mem_modules
          · exact hmem
        exact hnew (List.mem_map_of_mem hmem)

/-! ## Reading and writing -/

section Reading

variable {r : Registry α} {place : Nat} {entry : Entry α} {decl : ParamDecl α}

/-- What reading a parameter gives: through its key, and by its name where it is the first one of
that name. -/
def Reads (r : Registry α) (m : Module α) (index : Nat) (decl : ParamDecl α) : ParamValue α → Prop
  | .scalar value => decl.kind = .scalar ∧
    (∃ handle, r.handle m.name = .ok handle ∧ handle.get r ⟨index, decl⟩ = .ok value) ∧
    (ParamDecl.FirstIn m.params index decl → r.get m.name decl.name = .ok value)
  | .array elements => decl.kind = .array ∧
    (∃ handle, r.handle m.name = .ok handle ∧ handle.getArray r ⟨index, decl⟩ = .ok elements) ∧
    (ParamDecl.FirstIn m.params index decl → r.getArray m.name decl.name = .ok elements)

/-- **What reading a parameter gives is its value.** -/
theorem reads_value (hnames : r.names.Nodup) (hentry : r.entries[place]? = some entry)
    (hvalue : entry.params.values[index]? = some value) (hallows : decl.Allows value) :
    r.Reads entry.module index decl value := by
  have hfound := entry_eq_ok hnames hentry
  have hhandle : r.handle entry.module.name = .ok ⟨place⟩ :=
    bind_eq_ok_iff.2 ⟨_, hfound, rfl⟩
  have hfetch := lift_eq_ok_iff.2 (fetch_eq_ok_iff.2 hentry)
  cases value with
  | scalar value =>
    have hread : entry.params.scalarAt index = value := by rw [ParamBag.scalarAt, hvalue]
    have hkey : Registry.Handle.get ⟨place⟩ r ⟨index, decl⟩ = .ok value :=
      bind_eq_ok_iff.2 ⟨_, hfetch, congrArg _ hread⟩
    refine ⟨hallows.1, ⟨_, hhandle, hkey⟩, fun hfirst => ?_⟩
    exact bind_eq_ok_iff.2 ⟨_, hfound, bind_eq_ok_iff.2 ⟨index,
      Entry.paramIndex_eq_ok_iff.2 ⟨decl, hfirst, rfl, hallows.1⟩, congrArg _ hread⟩⟩
  | array elements =>
    have hread : entry.params.arrayAt index = elements := by rw [ParamBag.arrayAt, hvalue]
    have hkey : Registry.Handle.getArray ⟨place⟩ r ⟨index, decl⟩ = .ok elements :=
      bind_eq_ok_iff.2 ⟨_, hfetch, congrArg _ hread⟩
    refine ⟨hallows, ⟨_, hhandle, hkey⟩, fun hfirst => ?_⟩
    exact bind_eq_ok_iff.2 ⟨_, hfound, bind_eq_ok_iff.2 ⟨index,
      Entry.paramIndex_eq_ok_iff.2 ⟨decl, hfirst, rfl, hallows⟩, congrArg _ hread⟩⟩

/-- **What stores something in a registered module is not refused.** To store something includes
that name, kind and value are as they have to be. -/
theorem exists_act_of_stores (hnames : r.names.Nodup) (hentry : r.entries[place]? = some entry)
    (hstores : entry.module.Stores action index value) : ∃ change, r.act action = .ok change := by
  have hfound := entry_eq_ok hnames hentry
  have hhandle : r.handle entry.module.name = .ok ⟨place⟩ :=
    bind_eq_ok_iff.2 ⟨_, hfound, rfl⟩
  cases hstores with
  | @set _ decl written _ hfirst hkind hclamp =>
    have hindex := Entry.paramIndex_eq_ok_iff.2 ⟨decl, hfirst, rfl, hkind⟩
    have hwrite := (writeScalarAt_eq_ok_iff hentry).2 ⟨decl, _, hfirst.1, hclamp, rfl⟩
    have hset : r.set entry.module.name decl.name written = .ok _ :=
      bind_eq_ok_iff.2 ⟨_, hfound, bind_eq_ok_iff.2 ⟨index, hindex, hwrite⟩⟩
    exact ⟨_, bind_eq_ok_iff.2 ⟨_, hset, rfl⟩⟩
  | setArray elements hfirst hkind =>
    have hindex := Entry.paramIndex_eq_ok_iff.2 ⟨_, hfirst, rfl, hkind⟩
    exact ⟨_, bind_eq_ok_iff.2 ⟨_, hfound, bind_eq_ok_iff.2 ⟨index, hindex, rfl⟩⟩⟩
  | setKey hdecl hkind hclamp =>
    have hwrite := (writeScalarAt_eq_ok_iff hentry).2 ⟨_, _, hdecl, hclamp, rfl⟩
    exact ⟨_, bind_eq_ok_iff.2 ⟨_, hhandle, bind_eq_ok_iff.2 ⟨_, hwrite, rfl⟩⟩⟩
  | setArrayKey elements hdecl hkind => exact ⟨_, bind_eq_ok_iff.2 ⟨_, hhandle, rfl⟩⟩

/-- A scalar that is written by name is stored with the result. -/
theorem writes_of_set {name param : String} {value : α} {change : Change α α}
    (h : r.set name param value = .ok change) :
    ∃ m index, r.Writes (.set name param value) m index (.scalar change.result) := by
  obtain ⟨⟨place, entry⟩, hfound, hrest⟩ := bind_eq_ok_iff.1 h
  obtain ⟨index, hindex, hwrite⟩ := bind_eq_ok_iff.1 hrest
  obtain ⟨hentry, rfl⟩ := of_entry_eq_ok hfound
  obtain ⟨decl, hfirst, rfl, hkind⟩ := Entry.paramIndex_eq_ok_iff.1 hindex
  obtain ⟨decl', stored, hdecl, hclamp, rfl⟩ := (writeScalarAt_eq_ok_iff hentry).1 hwrite
  obtain rfl := Option.some.inj (hfirst.1.symm.trans hdecl)
  exact ⟨entry.module, index, mem_modules_of_entry hentry,
    ⟨_, bind_eq_ok_iff.2 ⟨_, h, rfl⟩⟩, .set hfirst hkind hclamp⟩

/-- An array that is written by name is stored. -/
theorem writes_of_setArray {name param : String} {elements : Array α} {change : Change α Unit}
    (h : r.setArray name param elements = .ok change) :
    ∃ m index, r.Writes (.setArray name param elements) m index (.array elements) := by
  obtain ⟨⟨place, entry⟩, hfound, hrest⟩ := bind_eq_ok_iff.1 h
  obtain ⟨index, hindex, -⟩ := bind_eq_ok_iff.1 hrest
  obtain ⟨hentry, rfl⟩ := of_entry_eq_ok hfound
  obtain ⟨decl, hfirst, rfl, hkind⟩ := Entry.paramIndex_eq_ok_iff.1 hindex
  exact ⟨entry.module, index, mem_modules_of_entry hentry, ⟨_, h⟩,
    .setArray elements hfirst hkind⟩

/-- No value of a scalar parameter breaks off on the range. -/
theorem exists_clamp (hsound : entry.Sound) (hdecl : entry.module.params[index]? = some decl)
    (hkind : decl.kind = .scalar) (value : α) : ∃ stored, decl.clamp value = .ok stored := by
  obtain ⟨current, hcurrent, hallows⟩ := hsound.exists_value hdecl
  cases current with
  | array elements => cases hkind.symm.trans hallows
  | scalar current =>
    obtain ⟨-, raw, hraw⟩ := hallows
    cases hrange : decl.range with
    | none => exact ⟨value, by rw [ParamDecl.clamp, hrange]⟩
    | some range =>
      obtain ⟨lo, hi⟩ := range
      rw [ParamDecl.clamp, hrange] at hraw ⊢
      cases hclamp : Scalar.clamp value lo hi with
      | ok stored => exact ⟨stored, hclamp⟩
      | error cause =>
        -- the range is not empty, because it has been used before
        obtain ⟨hempty, -⟩ := Scalar.clamp_eq_error_iff.1 hclamp
        cases hraw.symm.trans (Scalar.clamp_eq_error_iff.2 ⟨hempty, rfl⟩)

end Reading

/-! ## What is remembered -/

/-- **What the parameters of a registry remember** of the actions that led to it. -/
structure Remembers (actions : List (Action Single)) : Prop where
  /-- every parameter reads the value of the last successful write to it, or its initial value as
  long as there was none -/
  value : ∀ entry ∈ (Watched.run actions).registry.entries, ∀ index decl,
    entry.module.params[index]? = some decl → ∃ value,
      (Watched.run actions).registry.Reads entry.module index decl value ∧
      Holds actions entry.module index value
  /-- a number with a range is in its range, unless it is not a number -/
  range : ∀ entry ∈ (Watched.run actions).registry.entries, ∀ (index : Nat)
    (decl : ParamDecl Single) (value lo hi : Single),
    entry.module.params[index]? = some decl → decl.range = some (lo, hi) →
    entry.params.values[index]? = some (.scalar value) →
      lo ≤ value ∧ value ≤ hi ∨ value.isNumber = false
  /-- a write by name that is not refused is a successful one, with the result that is stored -/
  set : ∀ {name param value change},
    (Watched.run actions).registry.set name param value = .ok change →
    ∃ m index, (Watched.run actions).registry.Writes (.set name param value) m index
      (.scalar change.result)
  /-- and so is a write of an array -/
  setArray : ∀ {name param elements change},
    (Watched.run actions).registry.setArray name param elements = .ok change →
    ∃ m index, (Watched.run actions).registry.Writes (.setArray name param elements) m index
      (.array elements)
  /-- what stores something in a registered module is not refused, -/
  accepted : ∀ entry ∈ (Watched.run actions).registry.entries, ∀ {action index value},
    entry.module.Stores action index value →
    (Watched.run actions).registry.Writes action entry.module index value
  /-- and no value breaks off on the range of a scalar parameter -/
  clamped : ∀ entry ∈ (Watched.run actions).registry.entries, ∀ (index : Nat)
    (decl : ParamDecl Single), entry.module.params[index]? = some decl → decl.kind = .scalar →
    ∀ value, ∃ stored, decl.clamp value = .ok stored
  /-- each action can be done in place, statement by statement, -/
  inPlace : ∀ action, InPlace.exec (InPlace.act action) (Watched.run actions) =
    (((Watched.run actions).registry.act action).map fun _ => (), Watched.run (actions ++ [action]))
  /-- and what is refused then leaves the registry and what the sink has received as they are -/
  refused : ∀ {action refusal left},
    InPlace.exec (InPlace.act action) (Watched.run actions) = (.error refusal, left) →
    left = Watched.run actions

/-- **Parameters remember what was written last**, whatever is done to the registry. -/
theorem remembered (actions : List (Action Single)) : Remembers actions where
  value entry hentry index decl hdecl := by
    have hsound := sound_run actions
    obtain ⟨place, hplace⟩ := Array.mem_iff_getElem?.1 hentry
    obtain ⟨value, hvalue, hallows⟩ := (hsound.entries entry hentry).exists_value hdecl
    exact ⟨value, reads_value hsound.names hplace hvalue hallows, holds_run hentry hvalue⟩
  range entry hentry index decl value lo hi hdecl hrange hvalue := by
    obtain ⟨decl', hdecl', -, raw, hclamp⟩ :=
      ((sound_run actions).entries entry hentry).decl index _ hvalue
    obtain rfl := Option.some.inj (hdecl.symm.trans hdecl')
    rw [ParamDecl.clamp, hrange] at hclamp
    exact Single.mem_of_clamp hclamp
  set := writes_of_set
  setArray := writes_of_setArray
  accepted entry hentry {action index value} hstores := by
    obtain ⟨place, hplace⟩ := Array.mem_iff_getElem?.1 hentry
    exact ⟨mem_modules_of_entry hplace,
      exists_act_of_stores (sound_run actions).names hplace hstores, hstores⟩
  clamped entry hentry index decl hdecl hkind :=
    exists_clamp ((sound_run actions).entries entry hentry) hdecl hkind
  inPlace action := by
    rw [run_concat]
    exact InPlace.exec_act action _
  refused := InPlace.eq_of_refused

end Registry

end ParticleDynamics
