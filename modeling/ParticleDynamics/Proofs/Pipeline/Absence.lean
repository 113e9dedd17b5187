import Mathlib.Data.List.Forall2
import ParticleDynamics.Proofs.Module.Sight
import ParticleDynamics.Proofs.Pipeline.Memory
import ParticleDynamics.Proofs.Pipeline.Runs

/-!
# Disabled modules might as well be absent

A module that is switched off is never called, but its fields still have slots, so that the fields
of later modules are kept elsewhere and rows are longer. Nobody can tell, except by reading the
fields of the module: if the other modules do not, a run comes to the same particles, reports and
journals without the module, and every value that is still kept is the same
(`Pipeline.disabled_as_absent`).

Two runs are compared scene by scene: scenes are **alike** when all but their tables are the same,
and the tables have the same values (`Scene.Alike`). Every action of a step keeps scenes alike.
-/

namespace ParticleDynamics

/-- Two computations break in the same way, or come to related results. -/
inductive Corresponds {β γ : Type} (R : β → γ → Prop) : Except Breach β → Except Breach γ → Prop where
  /-- both come to a result -/
  | ok {result : β} {result' : γ} (h : R result result') : Corresponds R (.ok result) (.ok result')
  /-- both break -/
  | error (breach : Breach) : Corresponds R (.error breach) (.error breach)

/-- Computations that go on from related results in corresponding ways. -/
theorem Corresponds.bind {β β' γ γ' : Type} {R : β → γ → Prop} {S : β' → γ' → Prop}
    {x : Except Breach β} {y : Except Breach γ} {f : β → Except Breach β'} {g : γ → Except Breach γ'}
    (h : Corresponds R x y) (hfg : ∀ result result', R result result' →
      Corresponds S (f result) (g result')) : Corresponds S (x >>= f) (y >>= g) := by
  cases h with
  | ok hresult => exact hfg _ _ hresult
  | error breach => exact .error breach

/-- Results that are related in one way may be related in another. -/
theorem Corresponds.imp {β γ : Type} {R S : β → γ → Prop} {x : Except Breach β} {y : Except Breach γ}
    (h : Corresponds R x y) (hRS : ∀ result result', R result result' → S result result') :
    Corresponds S x y := by
  cases h with
  | ok hresult => exact .ok (hRS _ _ hresult)
  | error breach => exact .error breach

variable {α : Type} {r r' : Registry α} {dropped : List String}

/-! ## What remains -/

/-- The second registry is what remains of the first without the modules of the given names. These
are switched off, and the others do not read their fields. -/
structure Registry.Remains (r : Registry α) (dropped : List String) (r' : Registry α) : Prop where
  /-- the other modules are there with the same values and in the same order -/
  entries_eq : r'.entries = r.entries.filter fun entry => entry.module.name ∉ dropped
  /-- the modules that are missing are switched off -/
  disabled : ∀ entry ∈ r.entries, entry.module.name ∈ dropped → entry.params.enabled = false
  /-- the other modules do not read their fields -/
  unread : ∀ entry ∈ r'.entries, entry.module.LooksPast r.scratch fun field =>
    field.owner ∈ dropped ∧ field ∈ r.scratch.fields

namespace Registry.Remains

theorem mem_entries_iff (h : r.Remains dropped r') {entry : Entry α} :
    entry ∈ r'.entries ↔ entry ∈ r.entries ∧ entry.module.name ∉ dropped := by
  rw [h.entries_eq, Array.mem_filter, decide_eq_true_iff]

/-- The remaining modules have their fields in both layouts, and in the second there are no
others. -/
theorem mem_fields_iff (h : r.Remains dropped r') {field : ScratchField} :
    field ∈ r'.scratch.fields ↔ field ∈ r.scratch.fields ∧ field.owner ∉ dropped := by
  rw [mem_fields_scratch_iff, mem_fields_scratch_iff]
  constructor
  · rintro ⟨entry, hentry, howner, hname⟩
    obtain ⟨hmem, hkept⟩ := h.mem_entries_iff.1 hentry
    exact ⟨⟨entry, hmem, howner, hname⟩, howner ▸ hkept⟩
  · rintro ⟨⟨entry, hentry, howner, hname⟩, hkept⟩
    exact ⟨entry, h.mem_entries_iff.2 ⟨hentry, howner ▸ hkept⟩, howner, hname⟩

/-- A field that is not hidden is declared by a remaining module, or not at all. -/
theorem mem_fields_iff_of_visible (h : r.Remains dropped r') {field : ScratchField}
    (hvisible : ¬ (field.owner ∈ dropped ∧ field ∈ r.scratch.fields)) :
    field ∈ r'.scratch.fields ↔ field ∈ r.scratch.fields := by
  rw [h.mem_fields_iff]
  exact ⟨And.left, fun hfield => ⟨hfield, fun hdropped => hvisible ⟨hdropped, hfield⟩⟩⟩

/-- **The same modules take part in a phase**, since those that are missing are switched off. So
both runs have the same turns in the same order, and can be compared turn by turn. -/
theorem filter_takesPart (h : r.Remains dropped r') (phase : Phase) :
    r'.entries.toList.filter (Scene.takesPart phase) =
      r.entries.toList.filter (Scene.takesPart phase) := by
  rw [h.entries_eq, Array.toList_filter, List.filter_filter]
  refine List.filter_congr fun entry hentry => ?_
  by_cases hdropped : entry.module.name ∈ dropped
  · rw [Scene.takesPart, h.disabled entry (Array.mem_toList_iff.1 hentry) hdropped, Bool.and_false,
      Bool.false_and]
  · rw [decide_eq_true hdropped, Bool.and_true]

end Registry.Remains

/-! ## Scenes that are alike -/

/-- The second scene is the first one with another table, in which the same values are kept. -/
inductive Scene.Alike (layout layout' : ScratchLayout) (scene : Scene α) : Scene α → Prop where
  /-- with a table of the other layout -/
  | intro {table' : Table α}
    (h : Table.Alike layout layout' scene.particles.size scene.table table') :
    Alike layout layout' scene { scene with table := table' }

variable [Scalar α]

namespace Pass

variable {entry : Entry α}

/-- A call of a remaining module comes to the same in both scenes. -/
theorem call_alike (h : r.Remains dropped r') (hentry : entry ∈ r'.entries) (began : Scene α)
    (phase : Phase) (dt : α) (index : Nat) (p : Particle α) {count : Nat} {table table' : Table α}
    (halike : Table.Alike r.scratch r'.scratch count table table') :
    let reply := (began.passOf r.scratch phase dt entry).call index p table
    ∃ table'', (began.passOf r'.scratch phase dt entry).call index p table' =
        (reply.1, reply.2.on table'') ∧
      Table.Alike r.scratch r'.scratch count reply.2.table table'' := by
  let pass := began.passOf r.scratch phase dt entry
  have hkept := (h.mem_entries_iff.1 hentry).2
  have hlooks : (entry.module.run phase (pass.view index)).LooksPast
      (fun field => field.owner ∈ dropped ∧ field ∈ r.scratch.fields) pass.site
      { particle := p, table := table } :=
    h.unread entry hentry phase (pass.view index) count _ halike.fits
  have hshared : ∀ field, ¬ (field.owner ∈ dropped ∧ field ∈ r.scratch.fields) →
      pass.site.SameField r'.scratch field :=
    fun field hvisible => h.mem_fields_iff_of_visible hvisible
  have hown : ∀ name, pass.site.SameField r'.scratch ⟨entry.module.name, name⟩ :=
    fun name => h.mem_fields_iff_of_visible fun hhidden => hkept hhidden.1
  exact Procedure.run_alike hshared hown (entry.module.run phase (pass.view index))
    { particle := p, table := table } halike hlooks

/-- **A visit keeps scenes alike**, and fails in both or in neither. The module sees the same values
in both, at slots that may differ. -/
theorem visit_alike (h : r.Remains dropped r') (hentry : entry ∈ r'.entries) (began : Scene α)
    (phase : Phase) (dt : α) (failed : Bool) {scene scene' : Scene α}
    (halike : scene.Alike r.scratch r'.scratch scene') (index : Nat) :
    let state := (began.passOf r.scratch phase dt entry).visit (failed, scene) index
    let state' := (began.passOf r'.scratch phase dt entry).visit (failed, scene') index
    state'.1 = state.1 ∧ state.2.Alike r.scratch r'.scratch state'.2 := by
  obtain ⟨halike⟩ := halike
  cases hp : scene.particles[index]? with
  | none =>
    simp only [visit, hp, true_and]
    exact .intro halike
  | some p =>
    cases halive : p.isAlive with
    | false =>
      simp only [visit, hp, halive, Bool.false_eq_true, if_false, true_and]
      exact .intro halike
    | true =>
      obtain ⟨table'', hcall, halike'⟩ := call_alike h hentry began phase dt index p halike
      simp only [visit, hp, halive, if_true, hcall]
      refine ⟨rfl, .intro ?_⟩
      rw [Array.size_modify]
      exact halike'

/-- **A turn keeps scenes alike.** -/
theorem turn_alike (h : r.Remains dropped r') (hentry : entry ∈ r'.entries) (began : Scene α)
    (phase : Phase) (dt : α) {scene scene' : Scene α}
    (halike : scene.Alike r.scratch r'.scratch scene') :
    ((began.passOf r.scratch phase dt entry).turn scene).Alike r.scratch r'.scratch
      ((began.passOf r'.scratch phase dt entry).turn scene') := by
  have hall (order : List Nat) (failed : Bool) {scene scene' : Scene α}
      (halike : scene.Alike r.scratch r'.scratch scene') :
      (order.foldl (began.passOf r.scratch phase dt entry).visit (failed, scene)).2.Alike r.scratch
        r'.scratch (order.foldl (began.passOf r'.scratch phase dt entry).visit (failed, scene')).2 := by
    induction order generalizing failed scene scene' with
    | nil => exact halike
    | cons index rest ih =>
      obtain ⟨hfailed, hnext⟩ := visit_alike h hentry began phase dt failed halike index
      rw [List.foldl_cons, List.foldl_cons,
        ← Prod.mk.eta (p := (began.passOf r'.scratch phase dt entry).visit (failed, scene') index),
        hfailed]
      exact ih _ hnext
  have hsize : scene'.particles.size = scene.particles.size := by
    obtain ⟨-⟩ := halike
    rfl
  rw [turn, turn, visitAll, visitAll, hsize]
  exact hall _ _ halike

end Pass

namespace Scene

variable {scene scene' : Scene α} {dt : α}

/-- **A pass keeps scenes alike.** This is the fold of the turns, and being alike is its
invariant. -/
theorem Alike.runPhase (h : r.Remains dropped r') (halike : scene.Alike r.scratch r'.scratch scene')
    (phase : Phase) (dt : α) :
    (scene.runPhase r r.scratch phase dt).Alike r.scratch r'.scratch
      (scene'.runPhase r' r'.scratch phase dt) := by
  have hentries : ∀ entry ∈ r'.entries.toList.filter (takesPart phase), entry ∈ r'.entries :=
    fun entry hentry => Array.mem_toList_iff.1 (List.mem_filter.1 hentry).1
  rw [Scene.runPhase, Scene.runPhase, ← h.filter_takesPart]
  have hpass (entry : Entry α) : scene'.passOf r'.scratch phase dt entry =
      scene.passOf r'.scratch phase dt entry := by
    obtain ⟨-⟩ := halike
    rfl
  simp only [hpass]
  have hall (entries : List (Entry α)) (hentries : ∀ entry ∈ entries, entry ∈ r'.entries)
      {current current' : Scene α} (halike : current.Alike r.scratch r'.scratch current') :
      (entries.foldl (fun current entry => (scene.passOf r.scratch phase dt entry).turn current)
        current).Alike r.scratch r'.scratch (entries.foldl (fun current entry =>
          (scene.passOf r'.scratch phase dt entry).turn current) current') := by
    induction entries generalizing current current' with
    | nil => exact halike
    | cons entry rest ih =>
      obtain ⟨hentry, hrest⟩ := List.forall_mem_cons.1 hentries
      exact ih hrest (Pass.turn_alike h hentry scene phase dt halike)
  exact hall _ hentries halike

variable {layout layout' : ScratchLayout}

/-- Integrating one particle keeps scenes alike. -/
theorem Alike.integrateAt (halike : scene.Alike layout layout' scene') (dt : α) (index : Nat) :
    (scene.integrateAt dt index).Alike layout layout' (scene'.integrateAt dt index) := by
  obtain ⟨halike⟩ := halike
  cases hp : scene.particles[index]? with
  | none =>
    simp only [Scene.integrateAt, hp]
    exact .intro halike
  | some p =>
    cases halive : p.isAlive with
    | false =>
      simp only [Scene.integrateAt, hp, halive, Bool.false_eq_true, if_false]
      exact .intro halike
    | true =>
      have hset {count : Nat} {t t' : Table α} (h : Table.Alike layout layout' count t t')
          (slot : Reserved) (value : α) :
          Table.Alike layout layout' count (t.set index slot.slot value)
            (t'.set index slot.slot value) :=
        h.set (ScratchLayout.slotAt?_reserved slot) (ScratchLayout.slotAt?_reserved slot) index value
      simp only [Scene.integrateAt, hp, halive, if_true]
      refine .intro ?_
      rw [Array.size_modify]
      exact hset (hset (hset (hset halike .preX _) .preY _) .postX _) .postY _

/-- **The integration keeps scenes alike.** -/
theorem Alike.integrate (halike : scene.Alike layout layout' scene') (dt : α) :
    (scene.integrate dt).Alike layout layout' (scene'.integrate dt) := by
  have hall (order : List Nat) {scene scene' : Scene α}
      (halike : scene.Alike layout layout' scene') :
      (order.foldl (Scene.integrateAt dt) scene).Alike layout layout'
        (order.foldl (Scene.integrateAt dt) scene') := by
    induction order generalizing scene scene' with
    | nil => exact halike
    | cons index rest ih => exact ih (halike.integrateAt dt index)
  have hsize : scene'.particles.size = scene.particles.size := by
    obtain ⟨-⟩ := halike
    rfl
  have hlast := hall (List.range scene.particles.size) halike
  rw [Scene.integrate, Scene.integrate, hsize]
  generalize (List.range scene.particles.size).foldl (Scene.integrateAt dt) scene = last at hlast ⊢
  generalize (List.range scene.particles.size).foldl (Scene.integrateAt dt) scene' = last' at hlast ⊢
  obtain ⟨hlast⟩ := hlast
  exact .intro hlast

/-- The neighbour index is rebuilt in the same way. -/
theorem Alike.rebuild (halike : scene.Alike layout layout' scene') :
    Corresponds (Scene.Alike layout layout') scene.rebuild scene'.rebuild := by
  obtain ⟨halike⟩ := halike
  rw [Scene.rebuild, Scene.rebuild]
  cases scene.grid.build scene.particles with
  | error breach => exact .error breach
  | ok grid => exact .ok (.intro halike)

/-- The passes of constraints correspond. -/
theorem Alike.constrain (h : r.Remains dropped r') (iterations : Nat)
    (halike : scene.Alike r.scratch r'.scratch scene') :
    Corresponds (Scene.Alike r.scratch r'.scratch) (scene.constrain r r.scratch dt iterations)
      (scene'.constrain r' r'.scratch dt iterations) := by
  induction iterations generalizing scene scene' with
  | zero => exact .ok halike
  | succ iterations ih =>
    rw [Scene.constrain, Scene.constrain]
    exact halike.rebuild.bind fun _ _ hbegan => ih (hbegan.runPhase h .constrain dt)

/-- **All phases of a step correspond.** -/
theorem Alike.runPhases (h : r.Remains dropped r') (iterations : Nat)
    (halike : scene.Alike r.scratch r'.scratch scene') :
    Corresponds (Scene.Alike r.scratch r'.scratch) (scene.runPhases r r.scratch iterations dt)
      (scene'.runPhases r' r'.scratch iterations dt) := by
  rw [Scene.runPhases, Scene.runPhases]
  refine halike.rebuild.bind fun state state' hstate => ?_
  have hintegrated := ((hstate.runPhase h .state dt).runPhase h .apply dt).integrate dt
  refine (hintegrated.constrain h iterations).bind fun relaxed relaxed' hrelaxed => ?_
  exact hrelaxed.rebuild.bind fun correct correct' hcorrect => .ok (hcorrect.runPhase h .correct dt)

/-- **Removing the dead keeps tables alike**: the rows of the same particles are left. Which rows
these are is decided by the particles, and those are the same. -/
theorem Alike.retainRows (halike : scene.Alike layout layout' scene') :
    Table.Alike layout layout' (scene.particles.filter Particle.isAlive).size
      (scene.table.retainRows (scene.particles.toList.map Particle.isAlive))
      (scene'.table.retainRows (scene'.particles.toList.map Particle.isAlive)) := by
  cases halike with
  | @intro table' halike =>
  have htabled : scene.Tabled layout := halike.fits
  have htabled' : ({ scene with table := table' } : Scene α).Tabled layout' := halike.fits'
  refine ⟨htabled.fits_retainRows, htabled'.fits_retainRows,
    fun {_ slot slot'} hslot hslot' place => ?_⟩
  rw [htabled.get?_retainRows place (ScratchLayout.slotAt?_lt hslot),
    htabled'.get?_retainRows place (ScratchLayout.slotAt?_lt hslot')]
  exact Option.bind_congr fun index _ => halike.get?_eq hslot hslot' index

end Scene

/-! ## Runs that are alike -/

namespace Pipeline

variable {p p' : Pipeline α} {layout layout' : ScratchLayout}

/-- The second pipeline is the first one with another table, and they begin a step with tables that
are alike, however many particles there are. -/
inductive Alike (layout layout' : ScratchLayout) (p : Pipeline α) : Pipeline α → Prop where
  /-- with a table of the other layout -/
  | intro {table' : Table α}
    (h : ∀ count, Table.Alike layout layout' count (p.tableFor layout count)
      (({ p with table := table' } : Pipeline α).tableFor layout' count)) :
    Alike layout layout' p { p with table := table' }

/-- A table of the right layout is taken over. -/
theorem tableFor_of_fits {count : Nat} (h : p.table.Fits layout count) (wanted : Nat) :
    p.tableFor layout wanted = p.table.resize wanted := by
  rw [tableFor, if_pos h.stride_eq]

/-- Tables that are alike make pipelines alike. -/
theorem alike_of_tables {count : Nat} {table' : Table α}
    (h : Table.Alike layout layout' count p.table table') :
    p.Alike layout layout' { p with table := table' } := by
  refine .intro fun wanted => ?_
  rw [tableFor_of_fits h.fits, tableFor_of_fits (p := { p with table := table' }) h.fits']
  exact h.resize wanted

/-- A pipeline that has made no step yet (`table_of_create`) is alike to itself, whatever the layouts
are. -/
theorem alike_of_new (hnew : p.table = .create 0) (layout layout' : ScratchLayout) :
    p.Alike layout layout' p := by
  have hfor (layout : ScratchLayout) (count : Nat) :
      p.tableFor layout count = (Table.create layout.stride).resize count := by
    have hne : (Table.create 0 : Table α).stride ≠ layout.stride :=
      Nat.ne_of_lt (Nat.add_pos_left (by decide) _)
    rw [tableFor, hnew, if_neg hne]
  change p.Alike layout layout' { p with table := p.table }
  refine .intro fun count => ?_
  rw [hfor, hfor]
  exact (Table.alike_create layout layout').resize count

/-- Steps that leave the same behind, apart from where values are kept. -/
structure AlikeSteps (layout layout' : ScratchLayout) (stepped stepped' : Stepped α) : Prop where
  pipeline : stepped.pipeline.Alike layout layout' stepped'.pipeline
  store_eq : stepped'.store = stepped.store
  report_eq : stepped'.report = stepped.report
  journal_eq : stepped'.journal = stepped.journal
  table : Table.Alike layout layout' stepped.store.size stepped.pipeline.table
    stepped'.pipeline.table

/-- **A step corresponds to the step without the missing modules.** To correspond is to succeed in
both and be alike, or to fail in both for the same reason. -/
theorem Alike.step (h : r.Remains dropped r') (halike : p.Alike r.scratch r'.scratch p')
    (store : Store α) (dt : α) :
    Corresponds (AlikeSteps r.scratch r'.scratch) (p.step store r dt) (p'.step store r' dt) := by
  cases halike with
  | @intro table' htables =>
  rw [Pipeline.step, Pipeline.step]
  cases p.grid.track p.camera with
  | error breach => exact .error breach
  | ok tracked =>
    obtain ⟨changed, grid⟩ := tracked
    have hstart : (p.start store r.scratch grid).Alike r.scratch r'.scratch
        (({ p with table := table' } : Pipeline α).start store r'.scratch grid) :=
      .intro (htables store.size)
    refine (hstart.runPhases h p.iterations.toNat).bind fun last last' hlast => .ok ?_
    have htable := hlast.retainRows
    obtain ⟨-⟩ := hlast
    exact ⟨alike_of_tables htable, rfl, rfl, rfl, htable⟩

/-- **A run corresponds to the run without the missing modules.** -/
theorem Alike.play (h : r.Remains dropped r') (halike : p.Alike r.scratch r'.scratch p')
    (store : Store α) (frames : List (Frame α)) :
    Corresponds (List.Forall₂ (AlikeSteps r.scratch r'.scratch)) (play r frames p store)
      (play r' frames p' store) := by
  induction frames generalizing p p' store with
  | nil => exact .ok .nil
  | cons frame rest ih =>
    rw [Pipeline.play, Pipeline.play]
    have hset : ((p.setCamera frame.camera).setIterations frame.iterations).Alike r.scratch r'.scratch
        ((p'.setCamera frame.camera).setIterations frame.iterations) := by
      obtain ⟨htables⟩ := halike
      exact .intro htables
    refine (hset.step h store frame.dt).bind fun stepped stepped' hstepped => ?_
    rw [hstepped.store_eq]
    exact (ih hstepped.pipeline stepped.store).bind fun later later' hlater =>
      .ok (.cons hstepped hlater)

/-! ## What an observer can see -/

/-- Two steps of registries of which one remains of the other leave the same particles, the same
report and the same journal, and for every particle the same reserved values and the same values of
the fields of the remaining modules. -/
structure SameSteps (r r' : Registry α) (stepped stepped' : Stepped α) : Prop where
  store_eq : stepped'.store = stepped.store
  report_eq : stepped'.report = stepped.report
  journal_eq : stepped'.journal = stepped.journal
  reserved : ∀ place < stepped.store.size, ∀ reserved : Reserved, ∃ value,
    stepped.pipeline.table.get? place reserved.slot = some value ∧
      stepped'.pipeline.table.get? place reserved.slot = some value
  field : ∀ place < stepped.store.size, ∀ entry ∈ r'.entries, ∀ name ∈ entry.module.fields,
    ∃ slot slot' value, r.scratch.slot? entry.module.name name = some slot ∧
      r'.scratch.slot? entry.module.name name = some slot' ∧
      stepped.pipeline.table.get? place slot = some value ∧
      stepped'.pipeline.table.get? place slot' = some value

theorem AlikeSteps.same (h : r.Remains dropped r') {stepped stepped' : Stepped α}
    (halike : AlikeSteps r.scratch r'.scratch stepped stepped') : SameSteps r r' stepped stepped' := by
  refine ⟨halike.store_eq, halike.report_eq, halike.journal_eq,
    fun place hplace reserved => halike.table.exists_get? (ScratchLayout.slotAt?_reserved reserved)
      (ScratchLayout.slotAt?_reserved reserved) hplace,
    fun place hplace entry hentry name hname => ?_⟩
  have hfield' : ⟨entry.module.name, name⟩ ∈ r'.scratch.fields :=
    Registry.mem_fields_scratch_iff.2 ⟨entry, hentry, rfl, hname⟩
  obtain ⟨slot, hslot, -⟩ := ScratchLayout.exists_slot (h.mem_fields_iff.1 hfield').1
  obtain ⟨slot', hslot', -⟩ := ScratchLayout.exists_slot hfield'
  have hfound : r.scratch.slotAt? (.field ⟨entry.module.name, name⟩) = some slot := hslot
  obtain ⟨value, hvalue, hvalue'⟩ := halike.table.exists_get? hfound hslot' hplace
  exact ⟨slot, slot', value, hslot, hslot', hvalue, hvalue'⟩

/-- **A disabled module is as good as absent.** Take away modules that are switched off and whose
fields the other modules do not read. Then every run of a new pipeline, on whatever store, breaks
with and without them in the same way or not at all, and step by step it leaves the same particles,
reports and journals, and for every particle the same reserved values and the same values of the
fields that are still declared. -/
theorem disabled_as_absent (h : r.Remains dropped r') (hnew : p.table = .create 0)
    (store : Store α) (frames : List (Frame α)) :
    Corresponds (List.Forall₂ (SameSteps r r')) (play r frames p store)
      (play r' frames p store) :=
  ((alike_of_new hnew r.scratch r'.scratch).play h store frames).imp fun _ _ hsteps =>
    hsteps.imp fun _ _ hstepped => hstepped.same h

/-! ### A run behind a disabled module -/

/-- A module that writes a one into the row of each particle. -/
def tally : Module Single where
  name := "tally"
  role := .force { state := true }
  fields := ["count"]
  run := fun _ view => .setFieldOf "count" view.index 1
  fragment := fun _ => .done none

/-- This module behind the marker, which is switched off. -/
def shadowed : Registry Single := { entries := #[⟨marker, ⟨false, #[]⟩⟩, ⟨tally, ⟨true, #[]⟩⟩] }

/-- This module alone. -/
def tallying : Registry Single := { entries := #[⟨tally, ⟨true, #[]⟩⟩] }

theorem remains_shadowed : shadowed.Remains ["marker"] tallying := by
  refine ⟨by with_unfolding_all rfl, fun entry hentry hname => ?_, fun entry hentry => ?_⟩
  · have hmem : entry ∈ [⟨marker, ⟨false, #[]⟩⟩, ⟨tally, ⟨true, #[]⟩⟩] :=
      Array.mem_toList_iff.2 hentry
    rcases List.mem_cons.1 hmem with rfl | htally
    · rfl
    · obtain rfl := List.mem_singleton.1 htally
      exact absurd hname (by decide)
  · obtain rfl := Array.mem_singleton.1 hentry
    exact fun phase view count reach _ => Procedure.looksPast_setFieldOf ..

/-- The field of the module is in the sixth slot behind the marker and in the fifth one without it,
and the same value is found there after a step. -/
theorem disabled_as_absent_shadowed :
    shadowed.scratch.slot? "tally" "count" = some 5 ∧
      tallying.scratch.slot? "tally" "count" = some 4 ∧
      ∃ stepped stepped', play shadowed [⟨.standard, 2, 0⟩] still couple = .ok [stepped] ∧
        play tallying [⟨.standard, 2, 0⟩] still couple = .ok [stepped'] ∧
        stepped.pipeline.table.get? 0 5 = some 1 ∧ SameSteps shadowed tallying stepped stepped' := by
  have hrun : (play shadowed [⟨.standard, 2, 0⟩] still couple >>= fun steps =>
      .ok (steps.map fun stepped => stepped.pipeline.table.get? 0 5)) = .ok [some 1] := by
    decide +kernel
  obtain ⟨steps, hsteps, hvalues⟩ := bind_eq_ok_iff.1 hrun
  obtain ⟨stepped, rfl, hvalue⟩ := List.map_eq_singleton_iff.1 (Except.ok.inj hvalues)
  have hsame := disabled_as_absent remains_shadowed (p := still) rfl couple [⟨.standard, 2, 0⟩]
  rw [hsteps] at hsame
  generalize hother : play tallying [⟨.standard, 2, 0⟩] still couple = other at hsame
  cases hsame with
  | ok hall =>
    obtain ⟨stepped', later, hstepped, hlater, rfl⟩ := List.forall₂_cons_left_iff.1 hall
    obtain rfl := List.forall₂_nil_left_iff.1 hlater
    exact ⟨by decide +kernel, by decide +kernel, stepped, stepped', hsteps, rfl, hvalue, hstepped⟩

end Pipeline

end ParticleDynamics
