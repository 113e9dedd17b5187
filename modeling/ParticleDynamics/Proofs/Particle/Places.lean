import ParticleDynamics.Proofs.Particle.Identity

/-!
# Where identities stand

What is kept beside a store, one row for each place, belongs to a particle only as long as the
particle stays in its place. Two lists of identities **agree in places** when what they share stands
at the same place in both, and when nothing else stands where the other has something
(`KeepsPlaces`).

Births put particles at the end, and deaths leave them standing until they are removed. So these two
keep places (`Store.Extends.keepsPlaces`); removing the dead and taking in a set need not.
-/

namespace ParticleDynamics

/-- From one list of identities to another, the places that both have are those of the same
identities. -/
def KeepsPlaces (old new : List ParticleId) : Prop :=
  ∀ (place other : Nat) (id id' : ParticleId), old[place]? = some id → new[other]? = some id' →
    (id = id' ↔ place = other)

namespace Store

variable {α : Type} {s t : Store α}

/-- The identities of the particles, place by place. -/
def ids (s : Store α) : List ParticleId := s.particles.toList.map Particle.id

theorem length_ids (s : Store α) : s.ids.length = s.size := by
  rw [ids, List.length_map, Array.length_toList]
  rfl

theorem mem_ids_iff {id : ParticleId} : id ∈ s.ids ↔ ∃ p ∈ s.particles, p.id = id := by
  simp only [ids, List.mem_map, Array.mem_toList_iff]

/-- Whether a store is in order can be told from its identities. -/
theorem orderly_iff : s.Orderly ↔ s.ids.Pairwise (· < ·) ∧ ∀ id ∈ s.ids, id < s.issued := by
  constructor
  · rintro ⟨hincreasing, hissued⟩
    refine ⟨hincreasing, fun id hid => ?_⟩
    obtain ⟨p, hp, rfl⟩ := mem_ids_iff.1 hid
    exact hissued p hp
  · rintro ⟨hincreasing, hissued⟩
    exact ⟨hincreasing, fun p hp => hissued p.id (mem_ids_iff.2 ⟨p, hp, rfl⟩)⟩

/-- An orderly store holds no more particles than it has issued identities. -/
theorem Orderly.size_le (hs : s.Orderly) : s.size ≤ s.issued.toNat := by
  obtain ⟨hincreasing, hissued⟩ := orderly_iff.1 hs
  have hnodup : (s.ids.map UInt32.toNat).Nodup :=
    List.pairwise_map.2 <| hincreasing.imp fun hlt heq =>
      UInt32.ne_of_lt hlt (UInt32.toNat_inj.1 heq)
  have hsubset : s.ids.map UInt32.toNat ⊆ List.range s.issued.toNat := by
    intro number hnumber
    obtain ⟨id, hid, rfl⟩ := List.mem_map.1 hnumber
    exact List.mem_range.2 (UInt32.lt_iff_toNat_lt.1 (hissued id hid))
  have hlength := (List.subperm_of_subset hnodup hsubset).length_le
  rwa [List.length_map, length_ids, List.length_range] at hlength

/-- A store that has kept some of its identities is in order as before. -/
theorem Orderly.of_sublist (hs : s.Orderly) (hids : t.ids.Sublist s.ids)
    (hissued : t.issued = s.issued) : t.Orderly := by
  obtain ⟨hincreasing, hlt⟩ := orderly_iff.1 hs
  exact orderly_iff.2 ⟨hincreasing.sublist hids, fun id hid => hissued ▸ hlt id (hids.subset hid)⟩

/-! ## Births and deaths -/

/-- A store that has come of another by births and deaths: the identities are where they were, and
those behind them are new. -/
structure Extends (old new : Store α) : Prop where
  issued_le : old.issued ≤ new.issued
  ids_eq : ∃ fresh, new.ids = old.ids ++ fresh ∧ ∀ id ∈ fresh, old.issued ≤ id

theorem Extends.refl (s : Store α) : Extends s s :=
  ⟨UInt32.le_refl _, [], (List.append_nil _).symm, List.forall_mem_nil _⟩

theorem Extends.trans {u : Store α} (h : Extends s t) (h' : Extends t u) : Extends s u := by
  obtain ⟨hle, fresh, hids, hfresh⟩ := h
  obtain ⟨hle', fresh', hids', hfresh'⟩ := h'
  refine ⟨UInt32.le_trans hle hle', fresh ++ fresh', ?_, List.forall_mem_append.2 ⟨hfresh, ?_⟩⟩
  · rw [hids', hids, List.append_assoc]
  · exact fun id hid => UInt32.le_trans hle (hfresh' id hid)

/-- **Births and deaths keep places.** -/
theorem Extends.keepsPlaces (h : Extends s t) (hs : s.Orderly) : KeepsPlaces s.ids t.ids := by
  obtain ⟨-, fresh, hids, hfresh⟩ := h
  obtain ⟨hincreasing, hissued⟩ := orderly_iff.1 hs
  intro place other id id' hid hid'
  have hplace : place < s.ids.length := (List.getElem?_eq_some_iff.1 hid).1
  rw [hids] at hid'
  by_cases hother : other < s.ids.length
  · rw [List.getElem?_append_left hother] at hid'
    constructor
    · rintro rfl
      have hnodup : s.ids.Nodup := hincreasing.imp fun hlt => UInt32.ne_of_lt hlt
      exact (List.getElem?_inj hplace hnodup).1 (hid.trans hid'.symm)
    · rintro rfl
      exact Option.some.inj (hid.symm.trans hid')
  · -- what stands behind the old identities is none of them
    rw [List.getElem?_append_right (by omega)] at hid'
    have hlt := hissued id (List.mem_of_getElem? hid)
    have hge := hfresh id' (List.mem_of_getElem? hid')
    refine iff_of_false ?_ (by omega)
    rintro rfl
    exact UInt32.lt_irrefl _ (UInt32.lt_of_lt_of_le hlt hge)

variable [Scalar α]

theorem extends_spawn {birth : Birth α} {id : ParticleId} (h : s.spawn birth = .ok (id, t)) :
    Extends s t := by
  obtain ⟨next, hnext, h⟩ := bind_eq_ok_iff.1 h
  cases h
  have hafter := toNat_after hnext
  refine ⟨?_, [s.issued], ?_, List.forall_mem_singleton.2 (UInt32.le_refl _)⟩
  · rw [UInt32.le_iff_toNat_le]
    exact hafter ▸ Nat.le_succ _
  · simp only [ids, Array.toList_push, List.map_append]
    rfl

theorem ids_kill (s : Store α) (id : ParticleId) : (s.kill id).2.ids = s.ids := by
  have hmodify (index : Nat) : (s.modifyAt index Particle.kill).ids = s.ids := by
    have hids := congrArg Array.toList (s.map_id_modifyAt index Particle.kill_id)
    rwa [Array.toList_map, Array.toList_map] at hids
  rw [kill]
  split
  · split
    · split
      · exact hmodify _
      · rfl
    · rfl
  · rfl

theorem issued_kill (s : Store α) (id : ParticleId) : (s.kill id).2.issued = s.issued := by
  rw [kill]
  split
  · split
    · split
      · rfl
      · rfl
    · rfl
  · rfl

omit [Scalar α] in
/-- Whether a command is a birth or a death, which leave all particles where they stand. -/
def Command.Vital : Command α → Prop
  | .spawn _ | .kill _ => True
  | .compact | .replaceAll _ => False

/-- **However many births and deaths**, the identities stay where they were. New identities come at
the end and are greater than all others, and the dead keep their places until they are removed. -/
theorem extends_performAll {commands : List (Command α)}
    (hvital : ∀ command ∈ commands, command.Vital) (h : s.performAll commands = .ok t) :
    Extends s t := by
  induction commands generalizing s with
  | nil =>
    obtain rfl := Except.ok.inj h
    exact .refl s
  | cons command rest ih =>
    obtain ⟨between, hcommand, hrest⟩ := bind_eq_ok_iff.1 h
    obtain ⟨hfirst, hlater⟩ := List.forall_mem_cons.1 hvital
    refine Extends.trans ?_ (ih hlater hrest)
    cases command with
    | spawn birth =>
      obtain ⟨⟨id, store⟩, hspawn, hcommand⟩ := bind_eq_ok_iff.1 hcommand
      obtain rfl := Except.ok.inj hcommand
      exact extends_spawn hspawn
    | kill id =>
      obtain rfl := Except.ok.inj hcommand
      refine ⟨by rw [issued_kill]; exact UInt32.le_refl _, [], ?_,
        List.forall_mem_nil _⟩
      rw [ids_kill, List.append_nil]
    | compact => exact hfirst.elim
    | replaceAll particles => exact hfirst.elim

end Store

end ParticleDynamics
