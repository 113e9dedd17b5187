import ParticleDynamics.Proofs.Registry.Actions
import ParticleDynamics.Proofs.Single.Counts

/-!
# The copy in the sink

A sink that is attached to a registry keeps for each binding what was pushed there last. Whatever
happens to the registry (`Registry.Action`), this copy stays complete and up to date
(`Registry.mirrored`): the block of each module is the one that would be serialized now, with the
length of each array limited to what its binding holds (`Block.mirrored`), and the elements of each
array parameter are the current ones. No push ever goes to a binding that does not belong to a
module.

Every action that is not refused either attaches a sink, or is followed by pushes of what it changes
(`Registry.Outcome.follows`). So the copy is up to date after each action because it was before.
-/

namespace ParticleDynamics

variable {α : Type} [Scalar α]

/-! ## Blocks with limited lengths -/

namespace Block

/-- The number of elements of an array parameter that its binding holds. -/
def heldLength (capacity : Nat → Option Nat) (bag : ParamBag α) (array : ArrayEntry) : Nat :=
  match capacity array.binding with
  | some most => min (bag.arrayAt array.param).size most
  | none => (bag.arrayAt array.param).size

/-- The block for the given values, the length of each array being what its binding holds. -/
def mirrored (b : Block) (capacity : Nat → Option Nat) (bag : ParamBag α) : Array α :=
  (b.serialize bag).mapIdx fun index word =>
    match b.arrays.find? fun array => array.lengthSlot.linear = index with
    | some array => Scalar.ofCount (heldLength capacity bag array)
    | none => word

/-- **Limiting the words of the lengths is limiting the lengths**, as long as the numbers of
elements are numbers of single precision. -/
theorem Orderly.clampLengths_serialize {b : Block} (h : b.Orderly) {capacity : Nat → Option Nat}
    {bag : ParamBag Single} (hlengths : ∀ param, (bag.arrayAt param).size ≤ Single.exactCounts)
    (hcapacity : ∀ binding most, capacity binding = some most → most ≤ Single.exactCounts) :
    b.clampLengths capacity (b.serialize bag) = b.mirrored capacity bag := by
  refine Array.ext_getElem? fun index => ?_
  rw [mirrored, Array.getElem?_mapIdx]
  cases hfound : b.arrays.find? fun array => array.lengthSlot.linear = index with
  | none =>
    have hnone : ∀ array ∈ b.arrays, array.lengthSlot.linear ≠ index := fun array harray => by
      simpa using List.find?_eq_none.1 hfound array harray
    rw [getElem?_clampLengths_of_ne _ _ hnone]
    exact Option.map_id'.symm
  | some array =>
    have harray : array ∈ b.arrays := List.mem_of_find?_eq_some hfound
    obtain rfl : array.lengthSlot.linear = index := by simpa using List.find?_some hfound
    rw [h.getElem?_clampLengths _ _ harray, h.length_word bag harray]
    refine congrArg some ?_
    simp only [limitLength, heldLength]
    cases hmost : capacity array.binding with
    | none => rfl
    | some most => exact Single.minimum_ofCount (hlengths _) (hcapacity _ _ hmost)

end Block

namespace Registry

/-! ## What one action keeps -/

/-- A push to a binding of a module: its block to the binding of the block, the elements of an array
parameter to the binding of the array. -/
def Addressed (r : Registry α) (push : Push α) : Prop :=
  ∃ block ∈ r.bindings.blocks, (∃ words, push = .uniform block.binding words) ∨
    ∃ array ∈ block.arrays, ∃ values, push = .array array.binding values

/-- What is to be pushed goes to bindings of modules. -/
theorem addressed_of_mem_pushAll {r : Registry α} {push : Push α} (h : push ∈ r.pushAll) :
    r.Addressed push := by
  obtain ⟨place, sink, block, entry, hat, hpush⟩ := mem_pushAll_iff.1 h
  refine ⟨block, List.mem_iff_getElem?.2 ⟨place, hat.block_eq⟩, ?_⟩
  rcases hpush with rfl | ⟨array, harray, rfl⟩
  · exact .inl ⟨_, rfl⟩
  · exact .inr ⟨array, harray, _, rfl⟩

/-- **An action that attaches no sink is followed by pushes of what it changes.** A change to one
module is followed by the data of this module, and a new module by the data of all. -/
theorem Outcome.follows {r : Registry α} {action : Action α} {change : Change α Unit}
    (h : r.Outcome action change) (hstays : action.attaches = false) : r.Follows change := by
  cases h with
  | attached sink => cases hstays
  | registered _ _ hsink hgrown => exact follows_push hsink hgrown
  | scalars _ place write hwrite =>
    have hnone : ∀ push ∈ ([] : List (Push α)), push ∈ (r.rewrite place write).pushAll :=
      List.forall_mem_nil _
    have hfollows := follows_rewrite place write hnone fun bag param => .inl (hwrite bag param)
    rwa [List.append_nil] at hfollows
  | array _ place param elements =>
    refine follows_rewrite (r := r) place (·.writeArray param elements) ?_ fun bag other => ?_
    · exact fun push hpush => mem_pushAll_of_mem_pushArray hpush
    · by_cases hparam : param = other
      · exact .inr fun push hpush => hparam ▸ hpush
      · exact .inl (bag.arrayAt_writeArray_ne elements hparam)

/-- A registry with a sink, and what the sink has received since it was attached. -/
structure Watched (α : Type) where
  /-- the registry -/
  registry : Registry α := .empty
  /-- the pushes to the sink, the earliest first -/
  received : List (Push α) := []

/-- An action on a registry that is watched. What is refused changes nothing. -/
def Watched.perform (w : Watched α) (action : Action α) : Watched α :=
  match w.registry.act action with
  | .ok change =>
    ⟨change.registry, (if action.attaches then [] else w.received) ++ change.pushes⟩
  | .error _ => w

/-- What comes of a sequence of actions on a registry without modules. -/
def Watched.run (actions : List (Action α)) : Watched α := actions.foldl perform {}

/-- **A copy that is up to date**, with everything in it of limited length. -/
structure Watched.UpToDate (most : Nat) (w : Watched α) : Prop where
  /-- what was pushed last is what is to be pushed -/
  fresh : w.registry.Fresh w.received
  /-- what was pushed went to modules -/
  addressed : ∀ push ∈ w.received, w.registry.Addressed push
  /-- the arrays are of limited length -/
  lengths : ∀ (place : Nat) (entry : Entry α), w.registry.entries[place]? = some entry →
    ∀ param, (entry.params.arrayAt param).size ≤ most
  /-- the sink is of limited capacity -/
  capacities : ∀ sink : Sink, w.registry.sink = some sink → sink.Within most

/-- The lengths stay limited. -/
theorem Outcome.lengths {r : Registry α} {action : Action α} {change : Change α Unit} {most : Nat}
    (h : r.Outcome action change) (hwithin : action.Within most)
    (hlengths : ∀ (place : Nat) (entry : Entry α), r.entries[place]? = some entry →
      ∀ param, (entry.params.arrayAt param).size ≤ most)
    (place : Nat) (entry : Entry α) (hentry : change.registry.entries[place]? = some entry)
    (param : Nat) : (entry.params.arrayAt param).size ≤ most := by
  cases h with
  | attached sink => exact hlengths place entry hentry param
  -- a new module begins with empty arrays
  | registered _ hparams hsink hgrown =>
    rw [hgrown, Array.getElem?_push] at hentry
    split at hentry
    next =>
      cases hentry
      rw [ParamBag.arrayAt_ofDecls hparams]
      exact Nat.zero_le _
    next => exact hlengths place entry hentry param
  -- writing a scalar leaves the arrays as they are
  | scalars _ changed write hwrite =>
    rw [getElem?_rewrite] at hentry
    split at hentry
    next =>
      obtain ⟨old, hold, rfl⟩ := Option.map_eq_some_iff.1 hentry
      rw [hwrite]
      exact hlengths place old hold param
    next => exact hlengths place entry hentry param
  -- an array is the one written, which is short enough, or one from before
  | array _ changed written elements hsize =>
    have hentry' :=
      (getElem?_rewrite (r := r) changed (·.writeArray written elements) place).symm.trans hentry
    split at hentry'
    next =>
      obtain ⟨old, hold, rfl⟩ := Option.map_eq_some_iff.1 hentry'
      rcases old.params.arrayAt_writeArray_or written param elements with heq | heq
      · exact Nat.le_trans (Nat.le_of_eq (congrArg Array.size heq)) (hsize most hwithin)
      · exact Nat.le_trans (Nat.le_of_eq (congrArg Array.size heq)) (hlengths place old hold param)
    next => exact hlengths place entry hentry' param

/-- **Every action leaves an up-to-date copy up to date.** With a new sink everything is pushed to
begin with, so that what the one before it received does not matter. -/
theorem Watched.UpToDate.perform {most : Nat} {w : Watched α} (h : w.UpToDate most)
    {action : Action α} (hwithin : action.Within most) : (w.perform action).UpToDate most := by
  unfold Watched.perform
  cases hact : w.registry.act action with
  | error refusal => exact h
  | ok change =>
    have houtcome := outcome_of_act hact
    have hlengths := houtcome.lengths hwithin h.lengths
    cases hattaches : action.attaches with
    | false =>
      -- the sink stays: what was pushed before is still up to date, with what is pushed now
      have hfollows := houtcome.follows hattaches
      refine ⟨hfollows.fresh h.fresh, fun push hpush => ?_, hlengths, fun sink hsink => ?_⟩
      · rcases List.mem_append.1 hpush with hbefore | hnew
        · obtain ⟨block, hblock, hcases⟩ := h.addressed push hbefore
          exact ⟨block, hfollows.blocks block hblock, hcases⟩
        · exact addressed_of_mem_pushAll (hfollows.pushes push hnew)
      · exact h.capacities sink (hfollows.sink_eq ▸ hsink)
    | true =>
      -- a new sink is told everything
      cases houtcome with
      | attached sink =>
        refine ⟨fresh_pushAll _, fun push => addressed_of_mem_pushAll, hlengths, ?_⟩
        rintro _ ⟨⟩
        exact hwithin
      | registered => cases hattaches
      | scalars hstays => exact absurd hattaches (by simp [hstays])
      | array hstays => exact absurd hattaches (by simp [hstays])

/-- A registry without modules has nothing to push. -/
theorem upToDate_empty (most : Nat) : ({} : Watched α).UpToDate most where
  fresh _ hpush := absurd hpush List.not_mem_nil
  addressed _ hpush := absurd hpush List.not_mem_nil
  lengths _ _ hentry := by cases hentry
  capacities _ hsink := by cases hsink

/-- What a run of actions keeps. -/
theorem upToDate_run {most : Nat} {actions : List (Action α)}
    (hwithin : ∀ action ∈ actions, action.Within most) : (Watched.run actions).UpToDate most := by
  suffices ∀ w : Watched α, w.UpToDate most → (actions.foldl Watched.perform w).UpToDate most from
    this {} (upToDate_empty most)
  intro w hw
  induction actions generalizing w with
  | nil => exact hw
  | cons action rest ih =>
    exact ih (fun later hlater => hwithin later (List.mem_cons_of_mem _ hlater)) _
      (hw.perform (hwithin action List.mem_cons_self))

/-! ## The copy -/

/-- **A complete copy of the current values.** -/
structure Mirrored (r : Registry α) (sink : Sink) (received : List (Push α)) : Prop where
  /-- the last block of each module is its current one with limited lengths, and the last elements
  of each of its arrays are the current ones -/
  current : ∀ (place : Nat) (entry : Entry α), r.entries[place]? = some entry →
    ∃ block, r.bindings.blocks[place]? = some block ∧
      Push.latest block.binding received =
        some (.uniform block.binding (block.mirrored sink.capacity entry.params)) ∧
      ∀ array ∈ block.arrays, Push.latest array.binding received =
        some (.array array.binding (entry.params.arrayAt array.param))
  /-- nothing was pushed to any other binding -/
  addressed : ∀ push ∈ received, r.Addressed push

/-- **The sink mirrors the registry**, whatever was done to the registry before and after the sink
was attached, as long as no array is longer than a number of single precision can tell exactly. -/
theorem mirrored {actions : List (Action Single)}
    (hwithin : ∀ action ∈ actions, action.Within Single.exactCounts) {sink : Sink}
    (hsink : (Watched.run actions).registry.sink = some sink) :
    (Watched.run actions).registry.Mirrored sink (Watched.run actions).received := by
  have hrun := upToDate_run hwithin
  refine ⟨fun place entry hentry => ?_, hrun.addressed⟩
  obtain ⟨block, hat⟩ := exists_at hsink hentry
  have hblock := (orderly_block hat.block_eq).clampLengths_serialize (hrun.lengths _ _ hentry)
    (hrun.capacities _ hsink)
  refine ⟨block, hat.block_eq, ?_, fun array harray => ?_⟩
  · rw [← hblock]
    exact hrun.fresh _ (mem_pushAll_iff.2 ⟨place, sink, block, entry, hat, .inl rfl⟩)
  · exact hrun.fresh _
      (mem_pushAll_iff.2 ⟨place, sink, block, entry, hat, .inr ⟨array, harray, rfl⟩⟩)

/-! ### A run -/

/-- A module with a scalar parameter and an array parameter. -/
def gauge : Module Single where
  name := "gauge"
  role := .render
  params := [.scalar "gain" 1, .array "spots"]
  run := fun _ _ => .done ()
  fragment := fun _ => .done none

/-- A sink whose bindings hold two elements each. -/
def tight : Sink := ⟨fun _ => some 2⟩

/-- The module is registered, the sink attached, and a longer array written. The last action is
refused. -/
def gauging : List (Action Single) :=
  [.register gauge, .attach tight, .setArray "gauge" "spots" #[1, 1, 1], .set "gauge" "spots" 1]

theorem mirrored_gauging :
    (∀ action ∈ gauging, action.Within Single.exactCounts) ∧
      (Watched.run gauging).registry.sink = some tight ∧
      (Watched.run gauging).registry.Mirrored tight (Watched.run gauging).received := by
  have hwithin : ∀ action ∈ gauging, action.Within Single.exactCounts := by
    simp only [gauging, List.forall_mem_cons]
    refine ⟨trivial, fun binding held hheld => ?_, ?_, trivial, nofun⟩
    · cases hheld
      decide
    · exact (by decide : 3 ≤ Single.exactCounts)
  have hsink : (Watched.run gauging).registry.sink = some tight := by with_unfolding_all rfl
  exact ⟨hwithin, hsink, mirrored hwithin hsink⟩

/-- The three elements are there, and the block tells of the two that fit. -/
example : (Push.latest 8 (Watched.run gauging).received).map Push.values = some #[1, 1, 1] ∧
    (Push.latest 7 (Watched.run gauging).received).map Push.values =
      some #[1, 1, Single.ofCount 2, 0] := by
  decide +kernel

end Registry

end ParticleDynamics
