import Mathlib.Order.Interval.Finset.Nat
import ParticleDynamics.Proofs.Particle.Lookup
import ParticleDynamics.Proofs.Pipeline.Memory

/-!
# Identities over the history of a store

In its lifetime a store undergoes **deeds**: commands and steps. As long as no set that is taken in
repeats an identity, and no module writes one, the store stays in order, because such a set is
admitted by every store (`Store.admits_of_nodup`).

What an identity comes to over the history is read off one relation between an earlier and a later
store (`Store.Succeeds`): the later store has issued no fewer identities, and each of its identities
was in the earlier store, has been issued since, or was taken in. Identities that have been issued
are thus never given out again, and one that has left the store stays away until it is taken in
(`Store.identities_over_history`).
-/

namespace ParticleDynamics

namespace Store

variable {α : Type}

/-! ## Sets without repetition -/

/-- The identities of a set without repetition that lie between two bounds are no more than the
numbers between them. -/
theorem card_between_le (ids : Finset ParticleId) (lo hi : ParticleId) :
    (ids.filter fun id => lo ≤ id ∧ id < hi).card ≤ hi.toNat - lo.toNat := by
  rw [← Nat.card_Ico]
  refine Finset.card_le_card_of_injOn UInt32.toNat (fun id hid => ?_)
    (fun id _ id' _ hsame => UInt32.toNat_inj.1 hsame)
  obtain ⟨-, hlo, hhi⟩ := Finset.mem_filter.1 hid
  exact Finset.mem_Ico.2 ⟨UInt32.le_iff_toNat_le.1 hlo, UInt32.lt_iff_toNat_lt.1 hhi⟩

/-- **A set without repetition is admitted** by every store. This covers the sets that come from
another store, whatever their identities are. -/
theorem admits_of_nodup (s : Store α) {particles : List (Particle α)}
    (hnodup : (particles.map Particle.id).Nodup) : s.Admits particles := by
  intro p _ hforeign
  let ids := (particles.map Particle.id).toFinset
  have hbelow : below particles p.id = (ids.filter fun id => id < p.id).card := by
    have hcount : below particles p.id =
        ((particles.map Particle.id).filter fun id => id < p.id).length := by
      rw [← List.countP_eq_length_filter, List.countP_map]
      rfl
    rw [hcount, ← List.toFinset_card_of_nodup (hnodup.filter _)]
    congr 1
    ext id
    simp only [ids, List.mem_toFinset, List.mem_filter, Finset.mem_filter, decide_eq_true_eq]
  -- whatever stands below `p` has been issued, or lies between the issued identities and `p`
  have hsplit : (ids.filter fun id => id < p.id) ⊆
      unclaimed s.issued none particles ∪ ids.filter fun id => s.issued ≤ id ∧ id < p.id := by
    intro id hid
    obtain ⟨hmem, hlt⟩ := Finset.mem_filter.1 hid
    rcases UInt32.lt_or_le id s.issued with hissued | hissued
    · exact Finset.mem_union_left _ (Finset.mem_filter.2 ⟨hmem, hissued, nofun⟩)
    · exact Finset.mem_union_right _ (Finset.mem_filter.2 ⟨hmem, hissued, hlt⟩)
  have hcard := (Finset.card_le_card hsplit).trans (Finset.card_union_le _ _)
  have hbetween := card_between_le ids s.issued p.id
  have hle := UInt32.le_iff_toNat_le.1 hforeign
  omega

/-! ## What becomes of a store -/

/-- What may have become of a store when the given identities were taken in: it has issued no fewer
identities, and each one in it was there before, has been issued since, or was taken in. -/
structure Succeeds (old new : Store α) (taken : List ParticleId) : Prop where
  issued_le : old.issued ≤ new.issued
  known : ∀ id ∈ new.ids, id ∈ old.ids ∨ old.issued ≤ id ∨ id ∈ taken

theorem Succeeds.refl (s : Store α) : Succeeds s s [] := ⟨UInt32.le_refl _, fun _ hid => .inl hid⟩

theorem Succeeds.trans {s t u : Store α} {taken taken' : List ParticleId}
    (h : Succeeds s t taken) (h' : Succeeds t u taken') : Succeeds s u (taken ++ taken') := by
  refine ⟨UInt32.le_trans h.issued_le h'.issued_le, fun id hid => ?_⟩
  rcases h'.known id hid with hold | hfresh | htaken
  · rcases h.known id hold with hold | hfresh | htaken
    · exact .inl hold
    · exact .inr (.inl hfresh)
    · exact .inr (.inr (List.mem_append_left _ htaken))
  · exact .inr (.inl (UInt32.le_trans h.issued_le hfresh))
  · exact .inr (.inr (List.mem_append_right _ htaken))

/-- A store that has kept some of its identities and issued none. -/
theorem Succeeds.of_sublist {s t : Store α} (hids : t.ids.Sublist s.ids)
    (hissued : t.issued = s.issued) : Succeeds s t [] :=
  ⟨hissued ▸ UInt32.le_refl _, fun _ hid => .inl (hids.subset hid)⟩

theorem Extends.succeeds {s t : Store α} (h : Extends s t) : Succeeds s t [] := by
  obtain ⟨hle, fresh, hids, hfresh⟩ := h
  refine ⟨hle, fun id hid => ?_⟩
  rw [hids] at hid
  rcases List.mem_append.1 hid with hold | hnew
  · exact .inl hold
  · exact .inr (.inl (hfresh id hnew))

/-- A relabelled particle has kept its identity or carries a fresh one. -/
theorem mem_relabel {previous : Option ParticleId} {next last : ParticleId}
    {particles relabeled : List (Particle α)}
    (h : relabel previous next particles = .ok (last, relabeled)) {q : Particle α}
    (hq : q ∈ relabeled) : next ≤ q.id ∨ q.id ∈ particles.map Particle.id := by
  induction particles generalizing previous next relabeled with
  | nil =>
    cases h
    exact absurd hq List.not_mem_nil
  | cons p rest ih =>
    rcases relabel_cons h with ⟨-, after, relabeled', hafter, hrest, rfl⟩ |
      ⟨-, relabeled', hrest, rfl⟩
    · rcases List.mem_cons.1 hq with rfl | hq
      · exact .inl (UInt32.le_refl _)
      · refine (ih hrest hq).imp (fun hle => ?_) (List.mem_cons_of_mem _)
        rw [UInt32.le_iff_toNat_le] at hle ⊢
        omega
    · rcases List.mem_cons.1 hq with rfl | hq
      · exact .inr List.mem_cons_self
      · exact (ih hrest hq).imp_right (List.mem_cons_of_mem _)

theorem succeeds_replaceAll {s t : Store α} {particles : List (Particle α)}
    (h : s.replaceAll particles = .ok t) : Succeeds s t (particles.map Particle.id) := by
  obtain ⟨⟨last, relabeled⟩, hrelabel, h⟩ := bind_eq_ok_iff.1 h
  obtain rfl := Except.ok.inj h
  refine ⟨(relabel_lt hrelabel).1, fun id hid => .inr ?_⟩
  obtain ⟨q, hq, rfl⟩ := mem_ids_iff.1 hid
  have hmem : q ∈ relabeled := (List.mergeSort_perm _ _).mem_iff.1 (List.mem_toArray.1 hq)
  have hsorted : (sortById particles).Perm particles := List.mergeSort_perm _ _
  exact (mem_relabel hrelabel hmem).imp_right (hsorted.map Particle.id).mem_iff.1

variable [Scalar α]

/-! ## Deeds -/

/-- What a store undergoes. -/
inductive Deed (α : Type) where
  /-- a command -/
  | command (command : Command α)
  /-- a step of a pipeline with the modules of a registry -/
  | step (p : Pipeline α) (registry : Registry α) (dt : α)

/-- The store after a deed. -/
def undergo (s : Store α) : Deed α → Except Breach (Store α)
  | .command command => s.perform command
  | .step p registry dt => do return (← p.step s registry dt).store

/-- The store after a list of deeds. -/
def undergoAll (s : Store α) (deeds : List (Deed α)) : Except Breach (Store α) :=
  deeds.foldlM undergo s

omit [Scalar α] in
/-- The identities that a deed takes in. -/
def Deed.taken : Deed α → List ParticleId
  | .command (.replaceAll particles) => particles.map Particle.id
  | _ => []

/-- A set that is taken in repeats no identity, and the modules of a step write none. -/
def Deed.Proper : Deed α → Prop
  | .command (.replaceAll particles) => (particles.map Particle.id).Nodup
  | .command _ => True
  | .step _ registry _ => ∀ entry ∈ registry.entries, entry.module.KeepsIdentity

variable {s t : Store α} {deed : Deed α} {deeds : List (Deed α)}

/-- The last deed comes last. -/
theorem undergoAll_append {earlier later : List (Deed α)} :
    s.undergoAll (earlier ++ later) = .ok t ↔
      ∃ between, s.undergoAll earlier = .ok between ∧ between.undergoAll later = .ok t := by
  rw [undergoAll, List.foldlM_append]
  exact bind_eq_ok_iff

theorem undergoAll_cons :
    s.undergoAll (deed :: deeds) = .ok t ↔
      ∃ between, s.undergo deed = .ok between ∧ between.undergoAll deeds = .ok t := by
  rw [undergoAll, List.foldlM_cons]
  exact bind_eq_ok_iff

/-- **A deed leaves the store in order.** Being in order is what bisection relies on, so it has to
survive deaths, steps and replacements alike. -/
theorem Orderly.undergo (hs : s.Orderly) (hproper : deed.Proper) (h : s.undergo deed = .ok t) :
    t.Orderly := by
  cases deed with
  | command command =>
    refine (hs.perform_iff h).2 ?_
    cases command with
    | replaceAll particles => exact s.admits_of_nodup hproper
    | spawn _ | kill _ | compact => trivial
  | step p registry dt =>
    obtain ⟨stepped, hstep, h⟩ := bind_eq_ok_iff.1 h
    obtain rfl := Except.ok.inj h
    obtain ⟨course, rfl⟩ := Pipeline.exists_course_finish hstep
    exact Pipeline.orderly_finish course hproper hs

/-- **What becomes of a store by a deed.** -/
theorem succeeds_undergo (hproper : deed.Proper) (h : s.undergo deed = .ok t) :
    Succeeds s t deed.taken := by
  cases deed with
  | command command =>
    cases command with
    | spawn birth =>
      obtain ⟨⟨id, store⟩, hspawn, h⟩ := bind_eq_ok_iff.1 h
      obtain rfl := Except.ok.inj h
      exact (extends_spawn hspawn).succeeds
    | kill id =>
      obtain rfl := Except.ok.inj h
      exact .of_sublist (ids_kill s id ▸ List.Sublist.refl _) (issued_kill s id)
    | compact =>
      obtain rfl := Except.ok.inj h
      refine .of_sublist ?_ rfl
      rw [ids, compact, Array.toList_filter]
      exact List.filter_sublist.map _
    | replaceAll particles => exact succeeds_replaceAll h
  | step p registry dt =>
    obtain ⟨stepped, hstep, h⟩ := bind_eq_ok_iff.1 h
    obtain rfl := Except.ok.inj h
    obtain ⟨course, rfl⟩ := Pipeline.exists_course_finish hstep
    exact .of_sublist (Pipeline.ids_finish_sublist course hproper) rfl

/-- **The store is in order all the way.** -/
theorem Orderly.undergoAll (hs : s.Orderly) (hproper : ∀ deed ∈ deeds, deed.Proper)
    (h : s.undergoAll deeds = .ok t) : t.Orderly := by
  induction deeds generalizing s with
  | nil =>
    obtain rfl := Except.ok.inj h
    exact hs
  | cons deed rest ih =>
    obtain ⟨hfirst, hlater⟩ := List.forall_mem_cons.1 hproper
    obtain ⟨between, hdeed, hrest⟩ := undergoAll_cons.1 h
    exact ih (hs.undergo hfirst hdeed) hlater hrest

/-- **What becomes of a store by a list of deeds.** Fresh identities are compared with all that were
ever there, and not only with those that are left. -/
theorem succeeds_undergoAll (hproper : ∀ deed ∈ deeds, deed.Proper)
    (h : s.undergoAll deeds = .ok t) : Succeeds s t (deeds.flatMap Deed.taken) := by
  induction deeds generalizing s with
  | nil =>
    obtain rfl := Except.ok.inj h
    exact .refl s
  | cons deed rest ih =>
    obtain ⟨hfirst, hlater⟩ := List.forall_mem_cons.1 hproper
    obtain ⟨between, hdeed, hrest⟩ := undergoAll_cons.1 h
    rw [List.flatMap_cons]
    exact (succeeds_undergo hfirst hdeed).trans (ih hlater hrest)

/-! ## The history of a store -/

/-- A birth is given the next identity, unless all are spent. -/
theorem exists_spawn (s : Store α) (birth : Birth α) (hissued : s.issued ≠ 4294967295) :
    ∃ s', s.spawn birth = .ok (s.issued, s') := by
  refine ⟨_, bind_eq_ok_iff.2 ⟨s.issued + 1, ?_, rfl⟩⟩
  rw [ParticleId.after, if_neg hissued]

/-- A particle carries the identity that its birth was given. -/
theorem mem_ids_spawn {birth : Birth α} {id : ParticleId} (h : s.spawn birth = .ok (id, t)) :
    id ∈ t.ids := by
  obtain ⟨next, -, h⟩ := bind_eq_ok_iff.1 h
  cases h
  exact mem_ids_iff.2 ⟨birth.withId s.issued, Array.mem_push_self, rfl⟩

/-- **Identities over the history of a store** that begins without particles, takes in sets without
repetition, and is stepped by modules that write no identity:

* bisection finds what looking through all particles finds;
* as long as an identity is left, a birth is given one that no birth was given before and that no
  particle of the store ever carried;
* an identity that a deed has removed can be neither read nor killed, until a set is taken in that
  carries it. -/
theorem identities_over_history (hproper : ∀ deed ∈ deeds, deed.Proper)
    (h : (empty : Store α).undergoAll deeds = .ok s) :
    (∀ id, s.indexOf id = s.scan id) ∧
    (∀ birth, s.issued ≠ 4294967295 → ∃ id s', s.spawn birth = .ok (id, s') ∧
      (∀ earlier t, earlier <+: deeds → empty.undergoAll earlier = .ok t → id ∉ t.ids) ∧
      (∀ earlier birth' t id' t', earlier ++ [.command (.spawn birth')] <+: deeds →
        empty.undergoAll earlier = .ok t → t.spawn birth' = .ok (id', t') → id ≠ id')) ∧
    (∀ earlier removal later t t', deeds = earlier ++ removal :: later →
      empty.undergoAll earlier = .ok t → t.undergo removal = .ok t' →
      ∀ id ∈ t.ids, id ∉ t'.ids → id ∉ later.flatMap Deed.taken →
        s.get? id = none ∧ s.kill id = (false, s)) := by
  have hempty : (empty : Store α).Orderly := orderly_empty
  -- what a part of the history has come to, and what has become of it since
  have hpart {earlier later : List (Deed α)} {t : Store α} (heq : deeds = earlier ++ later)
      (ht : empty.undergoAll earlier = .ok t) :
      t.Orderly ∧ Succeeds t s (later.flatMap Deed.taken) := by
    subst heq
    obtain ⟨hearlier, hlater⟩ := List.forall_mem_append.1 hproper
    obtain ⟨between, hbetween, hrest⟩ := undergoAll_append.1 h
    obtain rfl := Except.ok.inj (hbetween.symm.trans ht)
    exact ⟨hempty.undergoAll hearlier ht, succeeds_undergoAll hlater hrest⟩
  refine ⟨(hempty.undergoAll hproper h).indexOf_eq_scan, fun birth hissued => ?_, ?_⟩
  · obtain ⟨s', hspawn⟩ := s.exists_spawn birth hissued
    have hfresh : ∀ earlier t, earlier <+: deeds → empty.undergoAll earlier = .ok t →
        s.issued ∉ t.ids := by
      rintro earlier t ⟨later, heq⟩ ht hid
      obtain ⟨horderly, hsucceeds⟩ := hpart heq.symm ht
      have hlt := (orderly_iff.1 horderly).2 _ hid
      exact UInt32.lt_irrefl _ (UInt32.lt_of_lt_of_le hlt hsucceeds.issued_le)
    refine ⟨s.issued, s', hspawn, hfresh, ?_⟩
    -- an earlier birth has left a particle with its identity
    rintro earlier birth' t id' t' hearlier ht hbirth rfl
    have ht' : empty.undergoAll (earlier ++ [.command (.spawn birth')]) = .ok t' :=
      undergoAll_append.2 ⟨t, ht, undergoAll_cons.2 ⟨t', bind_eq_ok_iff.2 ⟨_, hbirth, rfl⟩, rfl⟩⟩
    exact hfresh _ t' hearlier ht' (mem_ids_spawn hbirth)
  · intro earlier removal later t t' heq ht ht' id hid hgone htaken
    have hremoval : removal.Proper := hproper removal (by simp [heq])
    have hbetween : empty.undergoAll (earlier ++ [removal]) = .ok t' :=
      undergoAll_append.2 ⟨t, ht, undergoAll_cons.2 ⟨t', ht', rfl⟩⟩
    have hissued : id < t'.issued :=
      UInt32.lt_of_lt_of_le ((orderly_iff.1 (hpart heq ht).1).2 id hid)
        (succeeds_undergo hremoval ht').issued_le
    obtain ⟨-, hsucceeds⟩ := hpart (by rw [heq, List.append_assoc, List.singleton_append]) hbetween
    have hid' : id ∉ s.ids := by
      intro hmem
      rcases hsucceeds.known id hmem with hold | hfresh | hagain
      · exact hgone hold
      · exact UInt32.lt_irrefl _ (UInt32.lt_of_lt_of_le hissued hfresh)
      · exact htaken hagain
    exact ⟨get?_of_notMem hid', kill_of_notMem hid'⟩

/-! ### A death, a step, and a set with a foreign identity -/

/-- Two births, of which the first one is killed and removed by a step; then a set that carries the
identity of the second one and a foreign one. -/
def deedsOfTwo : List (Deed Single) :=
  [.command (.spawn .standard), .command (.spawn .standard), .command (.kill 0),
    .step Pipeline.still Pipeline.marking 0,
    .command (.replaceAll ([1, 9].map Birth.standard.withId))]

/-- The identity that the step has removed stays away, and the next birth is given a new one. -/
theorem identities_over_history_of_two :
    ∃ s, (empty : Store Single).undergoAll deedsOfTwo = .ok s ∧ s.ids = [1, 2] ∧
      s.indexOf 2 = s.scan 2 ∧ s.get? 0 = none ∧ s.kill 0 = (false, s) ∧
      ∃ id s', s.spawn .standard = .ok (id, s') ∧ id ∉ s.ids := by
  let earlier : List (Deed Single) := deedsOfTwo.take 3
  have hrun : (empty.undergoAll earlier >>= fun t =>
      t.undergo (.step Pipeline.still Pipeline.marking 0) >>= fun t' =>
        .ok (t.ids, t'.ids, t'.issued)) = .ok ([0, 1], [1], 2) := by
    decide +kernel
  obtain ⟨t, ht, hrun⟩ := bind_eq_ok_iff.1 hrun
  obtain ⟨t', ht', hrun⟩ := bind_eq_ok_iff.1 hrun
  obtain ⟨hids, hrun⟩ := Prod.mk.inj (Except.ok.inj hrun)
  obtain ⟨hids', hissued⟩ := Prod.mk.inj hrun
  let s : Store Single := ⟨([1, 2].map Birth.standard.withId).toArray, 3⟩
  have hreplace : t'.replaceAll ([1, 9].map Birth.standard.withId) = .ok s := by
    refine replaceAll_of_sorted (by decide) ?_ (by decide)
    rw [hissued]
    rfl
  have hdeeds : deedsOfTwo = earlier ++ .step Pipeline.still Pipeline.marking 0 ::
      [.command (.replaceAll ([1, 9].map Birth.standard.withId))] := rfl
  have h : (empty : Store Single).undergoAll deedsOfTwo = .ok s := by
    rw [hdeeds]
    exact undergoAll_append.2 ⟨t, ht, undergoAll_cons.2 ⟨t', ht', undergoAll_cons.2
      ⟨s, hreplace, rfl⟩⟩⟩
  have hproper : ∀ deed ∈ deedsOfTwo, deed.Proper := by
    have hkeeps : ∀ entry ∈ Pipeline.marking.entries, entry.module.KeepsIdentity := by
      intro entry hentry
      obtain rfl := Array.mem_singleton.1 hentry
      exact Pipeline.keepsIdentity_marker
    have hset : (([1, 9].map (Birth.standard : Birth Single).withId).map Particle.id).Nodup := by
      decide
    simp only [deedsOfTwo, List.forall_mem_cons]
    exact ⟨trivial, trivial, trivial, hkeeps, hset, List.forall_mem_nil _⟩
  obtain ⟨hindex, hbirth, hremoved⟩ := identities_over_history hproper h
  obtain ⟨hget, hkill⟩ := hremoved _ _ _ t t' hdeeds ht ht' 0 (by rw [hids]; decide)
    (by rw [hids']; decide) (by decide)
  obtain ⟨id, s', hspawn, hfresh, -⟩ := hbirth .standard (by decide)
  exact ⟨s, h, rfl, hindex 2, hget, hkill, id, s', hspawn, hfresh _ s List.prefix_rfl h⟩

end Store

end ParticleDynamics
