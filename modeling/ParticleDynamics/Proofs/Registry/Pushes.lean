import ParticleDynamics.Proofs.Block.Bindings

/-!
# What is pushed to a sink

A registry with a sink determines what the sink has to know: the block of each module, and the
elements of each array parameter (`Registry.mem_pushAll_iff`). A binding determines what is to be
pushed to it (`Registry.eq_of_mem_pushAll`), so what was pushed there last (`Push.latest`) is all
that counts.

A change is followed by pushes of whatever became different by it (`Registry.Follows`), and then
the last pushes stay those of the registry (`Registry.Follows.fresh`).
-/

namespace ParticleDynamics

variable {α : Type}

/-! ## What was pushed last -/

namespace Push

/-- The last push to a binding. -/
def latest (binding : Nat) (pushes : List (Push α)) : Option (Push α) :=
  (pushes.filter fun push => push.binding = binding).getLast?

/-- Pushes to other bindings do not matter. -/
theorem latest_append_of_ne {binding : Nat} {pushes : List (Push α)} (before : List (Push α))
    (h : ∀ push ∈ pushes, push.binding ≠ binding) :
    latest binding (before ++ pushes) = latest binding before := by
  have hnone : pushes.filter (fun push => push.binding = binding) = [] :=
    List.filter_eq_nil_iff.2 fun push hpush => by simpa using h push hpush
  rw [latest, List.filter_append, hnone, List.append_nil, latest]

/-- The only push to its binding among the last ones is the last one to it. -/
theorem latest_append_of_mem {push : Push α} {pushes : List (Push α)} (before : List (Push α))
    (hmem : push ∈ pushes) (honly : ∀ other ∈ pushes, other.binding = push.binding → other = push) :
    latest push.binding (before ++ pushes) = some push := by
  have hfiltered : push ∈ pushes.filter fun other => other.binding = push.binding :=
    List.mem_filter.2 ⟨hmem, by simp⟩
  obtain ⟨last, hlast⟩ := Option.isSome_iff_exists.1
    (List.getLast?_isSome.2 (List.ne_nil_of_mem hfiltered))
  obtain ⟨hother, hbinding⟩ := List.mem_filter.1 (List.mem_of_getLast? hlast)
  rw [latest, List.filter_append, List.getLast?_append, hlast,
    honly last hother (by simpa using hbinding)]
  rfl

end Push

namespace Registry

variable [Scalar α] {r : Registry α}

/-! ## What a sink has to know -/

/-- What an attached sink has to know about a place: its block and its entry. -/
structure At (r : Registry α) (place : Nat) (sink : Sink) (block : Block) (entry : Entry α) :
    Prop where
  sink_eq : r.sink = some sink
  block_eq : r.bindings.blocks[place]? = some block
  entry_eq : r.entries[place]? = some entry

/-- The push of the block of an entry. -/
def blockPush (sink : Sink) (block : Block) (entry : Entry α) : Push α :=
  .uniform block.binding (block.clampLengths sink.capacity (block.serialize entry.params))

/-- The push of the elements of an array parameter of an entry. -/
def arrayPush (entry : Entry α) (array : ArrayEntry) : Push α :=
  .array array.binding (entry.params.arrayAt array.param)

section At

variable {place : Nat} {sink : Sink} {block : Block} {entry : Entry α} {push : Push α}

omit [Scalar α] in
/-- Everything at a place that has an entry is there. -/
theorem exists_at (hsink : r.sink = some sink) (hentry : r.entries[place]? = some entry) :
    ∃ block, r.At place sink block entry := by
  obtain ⟨start, hblock⟩ := exists_block hentry
  exact ⟨_, hsink, hblock, hentry⟩

theorem At.pushBlock_eq (h : r.At place sink block entry) :
    r.pushBlock place = [blockPush sink block entry] := by
  rw [pushBlock, h.sink_eq, h.block_eq, h.entry_eq]
  rfl

omit [Scalar α] in
theorem At.pushArray_eq (h : r.At place sink block entry) {array : ArrayEntry}
    (harray : array ∈ block.arrays) : r.pushArray place array.param = [arrayPush entry array] := by
  rw [pushArray, h.sink_eq, h.block_eq, h.entry_eq]
  simp only [(orderly_block h.block_eq).array?_eq harray]
  rfl

theorem At.mem_pushModule_iff (h : r.At place sink block entry) :
    push ∈ r.pushModule place ↔
      push = blockPush sink block entry ∨ ∃ array ∈ block.arrays, push = arrayPush entry array := by
  simp only [pushModule, h.block_eq, h.pushBlock_eq, List.mem_append, List.mem_singleton,
    List.mem_flatMap, List.mem_map]
  refine or_congr_right ⟨?_, ?_⟩
  · rintro ⟨-, ⟨array, harray, rfl⟩, hpush⟩
    rw [h.pushArray_eq harray, List.mem_singleton] at hpush
    exact ⟨array, harray, hpush⟩
  · rintro ⟨array, harray, rfl⟩
    exact ⟨_, ⟨array, harray, rfl⟩, by rw [h.pushArray_eq harray]; exact List.mem_singleton_self _⟩

/-- **All pushes together** are those of the blocks and of the arrays of all modules. -/
theorem mem_pushAll_iff : push ∈ r.pushAll ↔ ∃ place sink block entry, r.At place sink block entry ∧
    (push = blockPush sink block entry ∨ ∃ array ∈ block.arrays, push = arrayPush entry array) := by
  rw [pushAll, List.mem_flatMap]
  constructor
  · rintro ⟨place, hplace, hpush⟩
    have hentry := Array.getElem?_eq_getElem (List.mem_range.1 hplace)
    cases hsink : r.sink with
    | none =>
      simp [pushModule, pushBlock, pushArray, hsink] at hpush
    | some sink =>
      obtain ⟨block, hat⟩ := exists_at hsink hentry
      exact ⟨place, sink, block, _, hat, hat.mem_pushModule_iff.1 hpush⟩
  · rintro ⟨place, sink, block, entry, hat, hpush⟩
    have hlt := (Array.getElem?_eq_some_iff.1 hat.entry_eq).1
    exact ⟨place, List.mem_range.2 hlt, hat.mem_pushModule_iff.2 hpush⟩

/-- The elements of an array are among what is pushed of everything. -/
theorem mem_pushAll_of_mem_pushArray {param : Nat} (h : push ∈ r.pushArray place param) :
    push ∈ r.pushAll := by
  unfold pushArray at h
  split at h
  next sink block entry hsink hblock hentry =>
    split at h
    next array harray =>
      have hparam : array.param = param := by simpa using List.find?_some harray
      obtain rfl := hparam
      exact mem_pushAll_iff.2 ⟨place, sink, block, entry, ⟨hsink, hblock, hentry⟩,
        .inr ⟨array, List.mem_of_find?_eq_some harray, List.mem_singleton.1 h⟩⟩
    next => cases h
  next => cases h

/-- The block of a module is among what is pushed of everything. -/
theorem mem_pushAll_of_mem_pushBlock (h : push ∈ r.pushBlock place) : push ∈ r.pushAll := by
  unfold pushBlock at h
  split at h
  next sink block entry hsink hblock hentry =>
    exact mem_pushAll_iff.2 ⟨place, sink, block, entry, ⟨hsink, hblock, hentry⟩,
      .inl (List.mem_singleton.1 h)⟩
  next => cases h

/-- The binding of a push is one of the block's. -/
theorem binding_mem (h : push = blockPush sink block entry ∨
    ∃ array ∈ block.arrays, push = arrayPush entry array) : push.binding ∈ block.bindings := by
  rcases h with rfl | ⟨array, harray, rfl⟩
  · exact List.mem_cons_self
  · exact List.mem_cons_of_mem _ (List.mem_map_of_mem harray)

/-- **A binding determines what is to be pushed there.** Hence the latest push to a binding is all
that counts, and earlier ones may be forgotten. -/
theorem eq_of_mem_pushAll {push other : Push α} (h : push ∈ r.pushAll) (h' : other ∈ r.pushAll)
    (hbinding : push.binding = other.binding) : push = other := by
  obtain ⟨place, sink, block, entry, hat, hpush⟩ := mem_pushAll_iff.1 h
  obtain ⟨place', sink', block', entry', hat', hother⟩ := mem_pushAll_iff.1 h'
  obtain rfl : place = place' := place_eq_of_binding hat.block_eq hat'.block_eq (binding_mem hpush)
    (hbinding ▸ binding_mem hother)
  obtain rfl := Option.some.inj (hat.sink_eq.symm.trans hat'.sink_eq)
  obtain rfl := Option.some.inj (hat.block_eq.symm.trans hat'.block_eq)
  obtain rfl := Option.some.inj (hat.entry_eq.symm.trans hat'.entry_eq)
  have hnodup : block.bindings.Nodup := by
    rw [(orderly_block hat.block_eq).bindings_eq]
    exact List.nodup_range'
  obtain ⟨hblock, harrays⟩ := List.nodup_cons.1 hnodup
  rcases hpush with rfl | ⟨array, harray, rfl⟩ <;> rcases hother with rfl | ⟨array', harray', rfl⟩
  · rfl
  · exact absurd (List.mem_map.2 ⟨array', harray', hbinding.symm⟩) hblock
  · exact absurd (List.mem_map.2 ⟨array, harray, hbinding⟩) hblock
  · rw [List.inj_on_of_nodup_map harrays harray harray' hbinding]

end At

/-! ## Changes push what they change -/

/-- A change is **followed** if it pushes only what is so afterwards, and everything that was not so
before. -/
structure Follows (r : Registry α) (change : Change α Unit) : Prop where
  /-- the sink stays -/
  sink_eq : change.registry.sink = r.sink
  /-- blocks stay where they are -/
  blocks : ∀ block ∈ r.bindings.blocks, block ∈ change.registry.bindings.blocks
  /-- what is pushed is so -/
  pushes : ∀ push ∈ change.pushes, push ∈ change.registry.pushAll
  /-- what is so is pushed, or was so before -/
  pushAll : ∀ push ∈ change.registry.pushAll, push ∈ change.pushes ∨ push ∈ r.pushAll

/-- The last push to each binding is the one that is due there. -/
def Fresh (r : Registry α) (received : List (Push α)) : Prop :=
  ∀ push ∈ r.pushAll, Push.latest push.binding received = some push

/-- Pushes to everything leave nothing to be pushed. -/
theorem fresh_pushAll (r : Registry α) : r.Fresh r.pushAll := fun push hpush => by
  rw [← List.nil_append r.pushAll]
  exact Push.latest_append_of_mem [] hpush fun other hother hbinding =>
    eq_of_mem_pushAll hother hpush hbinding

/-- **A change that is followed leaves the last pushes up to date.** A binding whose data has
changed is pushed again, and all others were fresh before. -/
theorem Follows.fresh {change : Change α Unit} {received : List (Push α)} (h : r.Follows change)
    (hfresh : r.Fresh received) : change.registry.Fresh (received ++ change.pushes) := by
  intro push hpush
  by_cases hpushed : push ∈ change.pushes
  · exact Push.latest_append_of_mem _ hpushed fun other hother hbinding =>
      eq_of_mem_pushAll (h.pushes other hother) hpush hbinding
  · -- nothing else is pushed to its binding, where the last push has been the same before
    have hothers : ∀ other ∈ change.pushes, other.binding ≠ push.binding :=
      fun other hother hbinding =>
        hpushed (eq_of_mem_pushAll (h.pushes other hother) hpush hbinding ▸ hother)
    rw [Push.latest_append_of_ne _ hothers]
    exact hfresh push ((h.pushAll push hpush).resolve_left hpushed)

section Write

variable (place : Nat) (write : ParamBag α → ParamBag α)

/-- The registry with the values of the parameters at a place changed. -/
abbrev rewrite (r : Registry α) (place : Nat) (write : ParamBag α → ParamBag α) : Registry α :=
  r.modifyEntry place fun e => { e with params := write e.params }

omit [Scalar α] in
theorem bindings_rewrite : (r.rewrite place write).bindings = r.bindings :=
  bindings_modifyEntry r place fun _ => rfl

omit [Scalar α] in
theorem getElem?_rewrite (other : Nat) :
    (r.rewrite place write).entries[other]? =
      if place = other then r.entries[other]?.map fun e => { e with params := write e.params }
      else r.entries[other]? := by
  rw [rewrite, modifyEntry, Array.getElem?_modify]

/-- A change of the values at one place is followed if the block is pushed, and the elements of each
array that becomes different. -/
theorem follows_rewrite {arrays : List (Push α)}
    (harrays : ∀ push ∈ arrays, push ∈ (r.rewrite place write).pushAll)
    (hwrite : ∀ (bag : ParamBag α) (param : Nat), (write bag).arrayAt param = bag.arrayAt param ∨
      ∀ push ∈ (r.rewrite place write).pushArray place param, push ∈ arrays) :
    r.Follows ⟨(), r.rewrite place write, (r.rewrite place write).pushBlock place ++ arrays⟩ where
  sink_eq := rfl
  blocks block hblock := by rwa [bindings_rewrite]
  pushes push hpush := by
    rcases List.mem_append.1 hpush with hpush | hpush
    · exact mem_pushAll_of_mem_pushBlock hpush
    · exact harrays push hpush
  pushAll push hpush := by
    obtain ⟨other, sink, block, entry, hat, hpush⟩ := mem_pushAll_iff.1 hpush
    have hblock : r.bindings.blocks[other]? = some block := by
      rw [← hat.block_eq, bindings_rewrite]
    have hentry := (getElem?_rewrite place write other).symm.trans hat.entry_eq
    by_cases hplace : place = other
    · -- what is rewritten is pushed: the block always, an array unless it has stayed as it was
      subst hplace
      rw [if_pos rfl] at hentry
      obtain ⟨old, hold, rfl⟩ := Option.map_eq_some_iff.1 hentry
      rcases hpush with rfl | ⟨array, harray, rfl⟩
      · exact .inl (List.mem_append_left _ (hat.pushBlock_eq ▸ List.mem_singleton_self _))
      · rcases hwrite old.params array.param with hsame | hpushed
        · refine .inr (mem_pushAll_iff.2
            ⟨place, sink, block, old, ⟨hat.sink_eq, hblock, hold⟩, .inr ⟨array, harray, ?_⟩⟩)
          rw [arrayPush, hsame, arrayPush]
        · refine .inl (List.mem_append_right _ (hpushed _ ?_))
          rw [hat.pushArray_eq harray]
          exact List.mem_singleton_self _
    · -- another module has the block and the arrays that it had
      rw [if_neg hplace] at hentry
      exact .inr (mem_pushAll_iff.2 ⟨other, sink, block, entry, ⟨hat.sink_eq, hblock, hentry⟩, hpush⟩)

end Write

/-- One more module: everything is pushed, because blocks may have moved. -/
theorem follows_push {grown : Registry α} {entry : Entry α} (hsink : grown.sink = r.sink)
    (hgrown : grown.entries = r.entries.push entry) : r.Follows ⟨(), grown, grown.pushAll⟩ where
  sink_eq := hsink
  blocks block hblock := by
    obtain ⟨place, hplace⟩ := List.mem_iff_getElem?.1 hblock
    exact List.mem_iff_getElem?.2 ⟨place, block_of_push hgrown hplace⟩
  pushes _ hpush := hpush
  pushAll _ hpush := .inl hpush

end Registry

end ParticleDynamics
