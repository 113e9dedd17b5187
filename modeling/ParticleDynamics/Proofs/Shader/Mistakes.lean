import ParticleDynamics.Proofs.Shader.Addresses
import ParticleDynamics.Proofs.Shader.Names

/-!
# Which mistakes keep a program from being built

Modules can make three kinds of mistakes: to have a name that no program can use, to have no text
for a phase in which they take part, and to ask for data that is not there. What a module may ask
for is fixed by the declarations alone (`Access.Answerable`): its own parameters by their kinds, and
every field that some module declares.

The messages about questions are on a list that the module can reach while it puts its texts together.
When it takes the messages off this list, the questions that it has asked so far are forgotten, and
what it asks later is noted anew. So a question of a module **stands** (`Module.standing`) unless the
module takes the messages afterwards; of a module that takes nothing all questions stand.

A program is built exactly if no module has an unusable name, a missing text or a standing question
without an answer, and what keeps it from being built is reported completely
(`Registry.mistakes_reported`): the first name that cannot be used, or else one message for each
missing text and for each such question. A mistake that the module has taken off the list itself goes
unnoticed (`Registry.hushed_is_built`).
-/

namespace ParticleDynamics

variable {α : Type}

/-! ## Names -/

/-- A letter of the basic Latin alphabet. -/
def IsLatin (c : Char) : Prop := 'A' ≤ c ∧ c ≤ 'Z' ∨ 'a' ≤ c ∧ c ≤ 'z'

/-- A letter, followed by letters, digits and underscores. -/
def UsableName (name : String) : Prop :=
  ∃ first rest, name.toList = first :: rest ∧ IsLatin first ∧
    ∀ c ∈ rest, IsLatin c ∨ '0' ≤ c ∧ c ≤ '9' ∨ c = '_'

theorem isAlpha_iff {c : Char} : c.isAlpha = true ↔ IsLatin c := by
  simp only [Char.isAlpha, Char.isUpper, Char.isLower, IsLatin, Bool.or_eq_true, Bool.and_eq_true,
    decide_eq_true_eq]
  rfl

/-- Names are checked letter by letter. -/
theorem validIdentifier_iff {name : String} : validIdentifier name = true ↔ UsableName name := by
  unfold validIdentifier UsableName
  cases hname : name.toList with
  | nil => simp
  | cons first rest =>
    simp only [Bool.and_eq_true, isAlpha_iff, List.all_eq_true, Char.isAlphanum, Bool.or_eq_true,
      Char.isDigit, decide_eq_true_eq, beq_iff_eq, or_assoc]
    refine ⟨fun ⟨hfirst, hrest⟩ => ⟨first, rest, rfl, hfirst, hrest⟩, ?_⟩
    rintro ⟨_, _, ⟨⟩, hfirst, hrest⟩
    exact ⟨hfirst, hrest⟩

/-! ## Questions -/

/-- A module has a parameter of a kind at a place of its declarations. -/
def Module.HasParam (m : Module α) (kind : ParamKind) (index : Nat) : Prop :=
  ∃ decl ∈ m.params[index]?, decl.kind = kind

namespace Access

/-- **A question that has an answer**: it names a parameter of the module by its kind, or a field
that is declared. -/
def Answerable (r : Registry α) (m : Module α) : Access → Prop
  | scalar param _ => m.HasParam .scalar param
  | element param _ _ | length param _ => m.HasParam .array param
  | field owner name _ => ∃ other ∈ r.modules, other.name = owner.getD m.name ∧ name ∈ other.fields

instance (r : Registry α) (m : Module α) (question : Access) :
    Decidable (question.Answerable r m) := by
  cases question <;> unfold Answerable <;> (try unfold Module.HasParam) <;> infer_instance

/-- What is said about a question without an answer. -/
def complaint (owner : String) : Access → String
  | scalar _ name => "`" ++ name ++ "` is not a scalar of `" ++ owner ++ "`"
  | element _ name _ | length _ name => "`" ++ name ++ "` is not an array of `" ++ owner ++ "`"
  | field other name _ => "no state field `" ++ name ++ "` on `" ++ other.getD owner ++ "`"

end Access

namespace Block

variable {decls : List (ParamDecl α)} {owner : String} {binding param : Nat}

theorem mem_map_snd_ofKind_iff {kind : ParamKind} :
    param ∈ (ofKind kind decls).map Prod.snd ↔ ∃ decl ∈ decls[param]?, decl.kind = kind := by
  simp [mem_ofKind_iff]

/-- A block has an entry for each scalar that is declared. -/
theorem scalar?_pack_eq_none_iff : (pack owner decls binding).scalar? param = none ↔
    ¬∃ decl ∈ decls[param]?, decl.kind = .scalar := by
  rw [← mem_map_snd_ofKind_iff, ← map_param_packScalars, scalar?, List.find?_eq_none, List.mem_map]
  simp [pack]

/-- A block has an entry for each array that is declared. -/
theorem array?_pack_eq_none_iff : (pack owner decls binding).array? param = none ↔
    ¬∃ decl ∈ decls[param]?, decl.kind = .array := by
  rw [← mem_map_snd_ofKind_iff,
    ← map_param_packArrays decls (binding + 1) (1 + (packScalars decls).length), array?,
    List.find?_eq_none, List.mem_map]
  simp [pack]

end Block

section Answers

variable {r : Registry α} {m : Module α} {block : Block}

/-- Where there is no entry, there is a message. -/
theorem answer_eq_error_iff_of_entry {β : Type} {entry : Option β}
    {answer : Except String String} {complaint message : String}
    (hsome : ∀ found, entry = some found → ∃ text, answer = .ok text)
    (hnone : entry = none → answer = .error complaint) :
    answer = .error message ↔ entry = none ∧ message = complaint := by
  cases entry with
  | none => rw [hnone rfl, Except.error.injEq, eq_comm, eq_self, true_and]
  | some found =>
    obtain ⟨text, rfl⟩ := hsome found rfl
    exact ⟨nofun, nofun⟩

/-- The fields with a slot are those that some module declares. -/
theorem slot?_scratch_eq_none_iff {owner name : String} : r.scratch.slot? owner name = none ↔
    ¬∃ other ∈ r.modules, other.name = owner ∧ name ∈ other.fields := by
  rw [ScratchLayout.slot?_eq_none_iff, Registry.mem_fields_scratch_iff, Registry.modules]
  simp [eq_comm]

/-- The entries of a module's block are those of its parameters. -/
theorem entry_eq_none_iff (hplaced : (m, block) ∈ Program.placed r) (param : Nat) :
    (block.scalar? param = none ↔ ¬m.HasParam .scalar param) ∧
      (block.array? param = none ↔ ¬m.HasParam .array param) := by
  obtain ⟨start, rfl⟩ := Registry.exists_start hplaced
  exact ⟨Block.scalar?_pack_eq_none_iff, Block.array?_pack_eq_none_iff⟩

/-- **What a module may ask for is answered**, and for everything else there is a message. A message
depends on the question and on the name of the module alone. -/
theorem answer_eq_error_iff (hplaced : (m, block) ∈ Program.placed r) {question : Access}
    {message : String} : question.answer ⟨block, r.scratch⟩ = .error message ↔
      ¬question.Answerable r m ∧ message = question.complaint m.name := by
  have howner := Registry.owner_of_mem_placed hplaced
  -- in each case: an answer if the entry or the slot is there, the message if it is not
  cases question with
  | scalar param name =>
    refine (answer_eq_error_iff_of_entry (fun entry h => ⟨_, by rw [Access.answer, h]⟩)
      fun h => ?_).trans (and_congr_left' (entry_eq_none_iff hplaced param).1)
    rw [Access.answer, h, howner]
    rfl
  | element param name index =>
    refine (answer_eq_error_iff_of_entry (fun entry h => ⟨_, by rw [Access.answer, h]⟩)
      fun h => ?_).trans (and_congr_left' (entry_eq_none_iff hplaced param).2)
    rw [Access.answer, h, howner]
    rfl
  | length param name =>
    refine (answer_eq_error_iff_of_entry (fun entry h => ⟨_, by rw [Access.answer, h]⟩)
      fun h => ?_).trans (and_congr_left' (entry_eq_none_iff hplaced param).2)
    rw [Access.answer, h, howner]
    rfl
  | field owner name row =>
    refine (answer_eq_error_iff_of_entry (fun entry h => ⟨_, by rw [Access.answer, howner, h]⟩)
      fun h => ?_).trans (and_congr_left' slot?_scratch_eq_none_iff)
    rw [Access.answer, howner, h]
    rfl

end Answers

/-! ## Questions that stand -/

namespace Emission

/-- What a text does that concerns the list of messages. -/
inductive Move where
  /-- it asks a question -/
  | asked (question : Access)
  /-- it takes the messages off the list -/
  | took
deriving DecidableEq, Repr

/-- The moves of a text, in order, when some messages are on the list in the beginning. -/
def moves {β : Type} (places : Places) (noted : List String) : Emission β → List Move
  | done _ => []
  | ask question next =>
    .asked question ::
      match question.answer places with
      | .ok text => (next text).moves places noted
      | .error message => (next missingText).moves places (noted ++ [message])
  | take next => .took :: (next noted).moves places []

namespace Move

/-- The questions that are asked. -/
def questions : List Move → List Access
  | [] => []
  | asked question :: rest => question :: questions rest
  | took :: rest => questions rest

/-- The questions that stand: those after which the messages are not taken any more. -/
def standing : List Move → List Access
  | [] => []
  | asked question :: rest => if took ∈ rest then standing rest else question :: standing rest
  | took :: rest => standing rest

/-- Where nothing is taken, all questions stand. -/
theorem standing_eq_questions {moves : List Move} (h : took ∉ moves) :
    standing moves = questions moves := by
  induction moves with
  | nil => rfl
  | cons move rest ih =>
    have hrest : took ∉ rest := fun hmem => h (List.mem_cons_of_mem _ hmem)
    cases move with
    | asked question => rw [standing, if_neg hrest, ih hrest, questions]
    | took => exact absurd List.mem_cons_self h

end Move

end Emission

section Noted

variable {r : Registry α} {m : Module α} {block : Block}

/-- What is said about those of some questions that have no answer. -/
def Access.complaints (r : Registry α) (m : Module α) (questions : List Access) : List String :=
  (questions.filter fun question => ¬question.Answerable r m).map (complaint m.name)

theorem complaints_cons (r : Registry α) (m : Module α) (question : Access)
    (rest : List Access) : Access.complaints r m (question :: rest) =
      if question.Answerable r m then Access.complaints r m rest
      else question.complaint m.name :: Access.complaints r m rest := by
  rw [Access.complaints, List.filter_cons]
  by_cases hquestion : question.Answerable r m
  · simp [hquestion, Access.complaints]
  · simp [hquestion, Access.complaints]

/-- **The messages on the list when a text is complete** are the complaints about the questions that
stand, after those that were on the list in the beginning; if the text has taken messages, the latter
are gone. -/
theorem snd_note (hplaced : (m, block) ∈ Program.placed r) {β : Type} (e : Emission β)
    (noted : List String) :
    let moves := e.moves ⟨block, r.scratch⟩ noted
    (e.note ⟨block, r.scratch⟩ noted).2 =
      (if .took ∈ moves then [] else noted) ++
        Access.complaints r m (Emission.Move.standing moves) := by
  induction e generalizing noted with
  | done result => simp [Emission.note, Emission.moves, Emission.Move.standing, Access.complaints]
  | take next ih =>
    -- the text goes on with an empty list, whatever was on it
    rw [Emission.note, ih]
    simp [Emission.moves, Emission.Move.standing]
  | ask question next ih =>
    have htaken (rest : List Emission.Move) :
        .took ∈ Emission.Move.asked question :: rest ↔ .took ∈ rest := by simp
    rw [Emission.note, Emission.moves]
    cases hanswer : question.answer ⟨block, r.scratch⟩ with
    | ok text =>
      have hquestion : question.Answerable r m := by
        by_contra hnot
        cases hanswer.symm.trans ((answer_eq_error_iff hplaced).2 ⟨hnot, rfl⟩)
      dsimp only
      rw [ih, Emission.Move.standing]
      simp only [htaken]
      by_cases htook : .took ∈ (next text).moves ⟨block, r.scratch⟩ noted
      · rw [if_pos htook, if_pos htook]
      · rw [if_neg htook, if_neg htook, complaints_cons, if_pos hquestion]
    | error message =>
      obtain ⟨hquestion, rfl⟩ := (answer_eq_error_iff hplaced).1 hanswer
      dsimp only
      rw [ih, Emission.Move.standing]
      simp only [htaken]
      -- the message is on the list in front of what the rest of the text adds, or taken along with it
      by_cases htook : .took ∈ (next missingText).moves ⟨block, r.scratch⟩
          (noted ++ [question.complaint m.name])
      · rw [if_pos htook, if_pos htook, if_pos htook]
      · rw [if_neg htook, if_neg htook, if_neg htook, complaints_cons, if_neg hquestion,
          List.append_assoc, List.singleton_append]

end Noted

/-! ## Mistakes -/

/-- What is wrong with the texts of a module. -/
inductive Mistake where
  /-- there is no text for a phase in which the module takes part -/
  | missing (phase : Phase)
  /-- there is no answer to a question that stands -/
  | unanswered (question : Access)
deriving DecidableEq, Repr

/-- What is said about a mistake of a module. -/
def Mistake.message (owner : String) : Mistake → String
  | missing phase => "`" ++ owner ++ "` declares " ++ phase.name ++ " but emits no fragment"
  | unanswered question => owner ++ ": " ++ question.complaint owner

namespace Module

/-- A module has a text for a phase. -/
def Emits (places : Places) (m : Module α) (phase : Phase) : Prop :=
  ∃ body ∈ (m.texts.run places).1.2, body.1 = phase ∧ body.2.isSome = true

instance (places : Places) (m : Module α) : DecidablePred (m.Emits places) := fun phase =>
  inferInstanceAs (Decidable (∃ body ∈ (m.texts.run places).1.2, body.1 = phase ∧ body.2.isSome = true))

/-- What a module does with the list of messages while it puts its texts together: its shared text and
then the text for each of its phases, one that turns out to be missing included. -/
def moves (places : Places) (m : Module α) : List Emission.Move := m.texts.moves places []

/-- The questions of a module. -/
def asked (places : Places) (m : Module α) : List Access := Emission.Move.questions (m.moves places)

/-- The questions of a module that stand when its texts are complete. -/
def standing (places : Places) (m : Module α) : List Access :=
  Emission.Move.standing (m.moves places)

/-- The mistakes of a module: the missing texts first, then the questions without an answer, as far as
they stand. -/
def mistakes (r : Registry α) (m : Module α) (block : Block) : List Mistake :=
  (m.role.phases.toList.filter fun phase => ¬m.Emits ⟨block, r.scratch⟩ phase).map .missing ++
    ((m.standing ⟨block, r.scratch⟩).filter fun question => ¬question.Answerable r m).map .unanswered

end Module

namespace Registry

/-- The mistakes of all modules, in the order of registration. -/
def mistakes (r : Registry α) : List (Module α × Mistake) :=
  (Program.placed r).flatMap fun placed => (placed.1.mistakes r placed.2).map (Prod.mk placed.1)

/-- What is said about them. -/
def complaints (r : Registry α) : List String :=
  r.mistakes.map fun found => found.2.message found.1.name

end Registry

section Build

variable {r : Registry α} {m : Module α} {block : Block}

/-- The phases for which a module has no text are those whose text is missing. -/
theorem filter_not_emits (places : Places) (m : Module α) :
    (m.role.phases.toList.filter fun phase => ¬m.Emits places phase) =
      (m.texts.run places).1.2.filterMap fun body =>
        if body.2.isNone then some body.1 else none := by
  have hphases : (m.texts.run places).1.2.map Prod.fst = m.role.phases.toList := by
    rw [run_texts]
    exact map_fst_bodies ..
  have hnodup : ((m.texts.run places).1.2.map Prod.fst).Nodup := by
    rw [hphases]
    exact List.Nodup.filter _ (by decide)
  rw [← hphases, List.filter_map, ← List.filterMap_eq_map, List.filterMap_filter]
  refine List.filterMap_congr fun body hbody => ?_
  -- there is one text for each phase, so another one for the same phase is this one
  have hemits : m.Emits places body.1 ↔ body.2.isSome = true := by
    refine ⟨fun ⟨other, hother, hphase, hsome⟩ => ?_, fun hsome => ⟨body, hbody, rfl, hsome⟩⟩
    rwa [← List.inj_on_of_nodup_map hnodup hother hbody hphase]
  rw [Function.comp_apply, decide_eq_decide.2 (not_congr hemits)]
  obtain ⟨phase, text⟩ := body
  cases text with
  | some text => rfl
  | none => rfl

/-- Each mistake of a module has a message. -/
theorem messages_moduleText (hplaced : (m, block) ∈ Program.placed r) :
    (Program.moduleText ⟨block, r.scratch⟩ m).2 =
      (m.mistakes r block).map (Mistake.message m.name) := by
  have hnoted : (m.texts.run ⟨block, r.scratch⟩).2 =
      Access.complaints r m (m.standing ⟨block, r.scratch⟩) := by
    rw [Emission.run, snd_note hplaced, ite_self, List.nil_append]
    rfl
  have hmissing : ((m.texts.run ⟨block, r.scratch⟩).1.2.filterMap fun body =>
      if body.2.isNone then some ((Mistake.missing body.1).message m.name) else none) =
      (m.role.phases.toList.filter fun phase => ¬m.Emits ⟨block, r.scratch⟩ phase).map
        fun phase => (Mistake.missing phase).message m.name := by
    rw [filter_not_emits, List.map_filterMap]
    refine List.filterMap_congr fun body _ => ?_
    cases body.2.isNone <;> rfl
  have hmessages : (Program.moduleText ⟨block, r.scratch⟩ m).2 =
      ((m.texts.run ⟨block, r.scratch⟩).1.2.filterMap fun body =>
        if body.2.isNone then some ((Mistake.missing body.1).message m.name) else none) ++
      (m.texts.run ⟨block, r.scratch⟩).2.map fun message => m.name ++ ": " ++ message := rfl
  rw [hmessages, hnoted, hmissing, Module.mistakes, Access.complaints, List.map_append, List.map_map,
    List.map_map, List.map_map]
  rfl

/-- **What building comes to** where all names can be used. The messages are collected before
anything is built, and a single one is enough to have nothing built. -/
theorem build_eq (workgroupSize : UInt32) (hnames : ∀ m ∈ r.modules, UsableName m.name) :
    Program.build workgroupSize r = if r.complaints = [] then .ok {
        workgroupSize := (max workgroupSize 1).toNat
        bindings := r.bindings
        scratch := r.scratch
        modules := (Program.placed r).map fun placed =>
          (Program.moduleText ⟨placed.2, r.scratch⟩ placed.1).1
        gates := Program.gatesOf (Program.placed r) }
      else .error (.program (String.intercalate "; " r.complaints)) := by
  have hfind : (r.modules.find? fun m => !validIdentifier m.name) = none := by
    refine List.find?_eq_none.2 fun m hm => ?_
    rw [validIdentifier_iff.2 (hnames m hm)]
    exact Bool.noConfusion
  let texts := (Program.placed r).map fun placed =>
    Program.moduleText ⟨placed.2, r.scratch⟩ placed.1
  -- what the modules have on their lists, one after the other, are the complaints of the registry
  have hmessages : texts.flatMap Prod.snd = r.complaints := by
    rw [List.flatMap_map, Registry.complaints, Registry.mistakes, List.map_flatMap]
    refine List.flatMap_congr fun placed hplaced => ?_
    rw [List.map_map]
    exact messages_moduleText hplaced
  have hbuild : Program.build workgroupSize r = if (texts.flatMap Prod.snd).isEmpty then .ok {
        workgroupSize := (max workgroupSize 1).toNat
        bindings := r.bindings
        scratch := r.scratch
        modules := texts.map Prod.fst
        gates := Program.gatesOf (Program.placed r) }
      else .error (.program (String.intercalate "; " (texts.flatMap Prod.snd))) := by
    unfold Program.build
    rw [hfind]
  rw [hbuild, hmessages, List.map_map]
  simp only [List.isEmpty_iff]
  rfl

/-- A program that is built has names that can be used. -/
theorem names_of_build {workgroupSize : UInt32} {p : Program}
    (h : Program.build workgroupSize r = .ok p) : ∀ m ∈ r.modules, UsableName m.name := by
  unfold Program.build at h
  split at h
  next => cases h
  next hfind =>
    intro m hm
    have hvalid := List.find?_eq_none.1 hfind m hm
    rwa [Bool.not_eq_true', Bool.not_eq_false, validIdentifier_iff] at hvalid

/-- Building fails with a report about the program and in no other way. -/
theorem eq_program_of_build {workgroupSize : UInt32} {refusal : Refusal}
    (h : Program.build workgroupSize r = .error refusal) : ∃ reason, refusal = .program reason := by
  unfold Program.build at h
  split at h
  next => exact ⟨_, (Except.error.inj h).symm⟩
  next =>
    dsimp only at h
    split at h
    next => cases h
    next => exact ⟨_, (Except.error.inj h).symm⟩

/-- The first name that cannot be used is reported alone. -/
theorem build_of_name (workgroupSize : UInt32) {front back : List (Module α)}
    (hmodules : r.modules = front ++ m :: back) (hfront : ∀ other ∈ front, UsableName other.name)
    (hname : ¬UsableName m.name) : Program.build workgroupSize r =
      .error (.program ("module name `" ++ m.name ++ "` is not a valid WGSL identifier")) := by
  have hfind : (r.modules.find? fun m => !validIdentifier m.name) = some m := by
    refine List.find?_eq_some_iff_append.2 ⟨?_, front, back, hmodules, fun other hother => ?_⟩
    · rwa [Bool.not_eq_true', ← Bool.not_eq_true, validIdentifier_iff]
    · rw [validIdentifier_iff.2 (hfront other hother)]
      rfl
  unfold Program.build
  rw [hfind]

end Build

/-! ## Messages that are collected along the way -/

namespace Module

/-- One phase of a module while the texts are put together, with the messages about missing texts
and those on the list. -/
def collectPhase (places : Places) (m : Module α) (found : List String × List String)
    (phase : Phase) : List String × List String :=
  let (body, noted) := (m.fragment phase).note places found.2
  match body with
  | some _ => (found.1, noted)
  | none => (found.1 ++ [(Mistake.missing phase).message m.name], noted)

/-- A module while the texts are put together: the messages found before it, those about missing
texts right after them, and those that are left on the list at the end. -/
def collect (scratch : ScratchLayout) (found : List String) (placed : Module α × Block) :
    List String :=
  let places : Places := ⟨placed.2, scratch⟩
  let (_, noted) := placed.1.helpers.note places []
  let (found, noted) :=
    placed.1.role.phases.toList.foldl (placed.1.collectPhase places) (found, noted)
  found ++ noted.map fun message => placed.1.name ++ ": " ++ message

/-- Going through the phases finds the messages about missing texts, and goes through the list as
putting the texts together does. -/
theorem foldl_collectPhase (places : Places) (m : Module α) (phases : List Phase)
    (found noted : List String) :
    let bodies := (m.bodies phases).note places noted
    phases.foldl (m.collectPhase places) (found, noted) =
      (found ++ bodies.1.filterMap (fun body =>
          if body.2.isNone then some ((Mistake.missing body.1).message m.name) else none),
        bodies.2) := by
  induction phases generalizing found noted with
  | nil => exact congrArg (·, noted) (List.append_nil found).symm
  | cons phase rest ih =>
    rw [List.foldl_cons, collectPhase, bodies, Emission.note_bind, Emission.note_bind]
    cases hbody : ((m.fragment phase).note places noted).1 with
    | some body => simp [hbody, ih, Emission.note]
    | none => simp [hbody, ih, Emission.note]

/-- A module adds what is said about its mistakes. -/
theorem collect_eq {r : Registry α} {placed : Module α × Block}
    (hplaced : placed ∈ Program.placed r) (found : List String) : collect r.scratch found placed =
      found ++ (placed.1.mistakes r placed.2).map (Mistake.message placed.1.name) := by
  obtain ⟨m, block⟩ := placed
  have hcollect : collect r.scratch found (m, block) =
      found ++ (Program.moduleText ⟨block, r.scratch⟩ m).2 := by
    simp only [collect, foldl_collectPhase, Program.moduleText, run_texts, List.append_assoc]
    rfl
  rw [hcollect, messages_moduleText hplaced]

end Module

/-! ## All mistakes -/

namespace Registry

variable {r : Registry α}

/-- **How mistakes keep a program from being built.** -/
structure Reports (r : Registry α) (workgroupSize : UInt32) : Prop where
  /-- the modules with their blocks are those that are registered, in that order -/
  placed : (Program.placed r).map Prod.fst = r.modules
  /-- a program is built exactly if all names can be used, all texts are there and all questions
  that stand have answers -/
  built_iff : (∃ p, Program.build workgroupSize r = .ok p) ↔
    (∀ m ∈ r.modules, UsableName m.name) ∧
    ∀ m block, (m, block) ∈ Program.placed r →
      (∀ phase, m.role.implements phase = true → m.Emits ⟨block, r.scratch⟩ phase) ∧
      ∀ question ∈ m.standing ⟨block, r.scratch⟩, question.Answerable r m
  /-- the first name that cannot be used is reported alone -/
  name : ∀ {front m back}, r.modules = front ++ m :: back →
    (∀ other ∈ front, UsableName other.name) → ¬UsableName m.name →
    Program.build workgroupSize r =
      .error (.program ("module name `" ++ m.name ++ "` is not a valid WGSL identifier"))
  /-- otherwise every mistake is reported, in one message each -/
  mistakes : (∀ m ∈ r.modules, UsableName m.name) → r.mistakes ≠ [] →
    Program.build workgroupSize r =
      .error (.program (String.intercalate "; " (r.mistakes.map fun found =>
        found.2.message found.1.name)))
  /-- these are the messages that are collected while the texts are put together -/
  collected : (r.mistakes.map fun found => found.2.message found.1.name) =
    (Program.placed r).foldl (Module.collect r.scratch) []
  /-- of a module that takes no messages all questions stand -/
  untaken : ∀ m block, (m, block) ∈ Program.placed r → .took ∉ m.moves ⟨block, r.scratch⟩ →
    m.standing ⟨block, r.scratch⟩ = m.asked ⟨block, r.scratch⟩

/-- There are no mistakes if all texts are there and all questions that stand have answers. -/
theorem mistakes_eq_nil_iff : r.mistakes = [] ↔ ∀ m block, (m, block) ∈ Program.placed r →
    (∀ phase, m.role.implements phase = true → m.Emits ⟨block, r.scratch⟩ phase) ∧
    ∀ question ∈ m.standing ⟨block, r.scratch⟩, question.Answerable r m := by
  simp [mistakes, Module.mistakes, List.flatMap_eq_nil_iff, List.filter_eq_nil_iff,
    PhaseSet.mem_toList, Role.implements]

/-- Collecting the messages module by module gives what is said about all mistakes. -/
theorem foldl_collect (r : Registry α) :
    (Program.placed r).foldl (Module.collect r.scratch) [] = r.complaints := by
  have hfold : ∀ placed : List (Module α × Block), (∀ one ∈ placed, one ∈ Program.placed r) →
      ∀ found, placed.foldl (Module.collect r.scratch) found = found ++ placed.flatMap fun one =>
        (one.1.mistakes r one.2).map (Mistake.message one.1.name) := by
    intro placed hplaced
    induction placed with
    | nil => exact fun found => (List.append_nil found).symm
    | cons first rest ih =>
      intro found
      rw [List.foldl_cons, ih fun one hone => hplaced one (List.mem_cons_of_mem _ hone),
        Module.collect_eq (hplaced first List.mem_cons_self), List.flatMap_cons, List.append_assoc]
  rw [hfold _ (fun _ => id), List.nil_append, complaints, mistakes, List.map_flatMap]
  exact List.flatMap_congr fun one _ => by rw [List.map_map]; rfl

/-- **Every mistake is reported and nothing else is**, as far as the modules leave the messages about
their questions on the list. A module that takes no messages off the list has all its mistakes
reported. -/
theorem mistakes_reported (r : Registry α) (workgroupSize : UInt32) : r.Reports workgroupSize where
  placed := map_fst_placed r
  built_iff := by
    rw [← mistakes_eq_nil_iff]
    constructor
    · rintro ⟨p, hp⟩
      have hnames := names_of_build hp
      refine ⟨hnames, ?_⟩
      by_contra hmistakes
      have hcomplaints : r.complaints ≠ [] := fun h => hmistakes (List.map_eq_nil_iff.1 h)
      rw [build_eq workgroupSize hnames, if_neg hcomplaints] at hp
      cases hp
    · rintro ⟨hnames, hmistakes⟩
      have hcomplaints : r.complaints = [] := by rw [complaints, hmistakes, List.map_nil]
      exact ⟨_, (build_eq workgroupSize hnames).trans (if_pos hcomplaints)⟩
  name := build_of_name workgroupSize
  mistakes hnames hmistakes := by
    have hcomplaints : r.complaints ≠ [] := fun h => hmistakes (List.map_eq_nil_iff.1 h)
    rw [build_eq workgroupSize hnames, if_neg hcomplaints]
    rfl
  collected := (foldl_collect r).symm
  untaken _ _ _ := Emission.Move.standing_eq_questions

/-! ### A mistake that is hushed up -/

/-- A module without parameters that asks for one and takes the message about it off the list. -/
def hush : Module Single where
  name := "hush"
  role := .render
  run := fun _ _ => .done ()
  helpers := .ask (.scalar 0 "volume") fun text => .take fun _ => .done (some text)
  fragment := fun _ => .done none

/-- This module alone. -/
def hushed : Registry Single := { entries := #[⟨hush, ⟨true, #[]⟩⟩] }

/-- **A mistake that the module takes off the list goes unnoticed.** The program is built, and what
stands in the place of the parameter is the constant zero. -/
theorem hushed_is_built :
    (∃ p, Program.build 64 hushed = .ok p ∧ p.modules = [⟨"hush", some "0.0", []⟩]) ∧
      ∃ m block, (m, block) ∈ Program.placed hushed ∧
        ∃ question ∈ m.asked ⟨block, hushed.scratch⟩, ¬question.Answerable hushed m := by
  refine ⟨⟨_, rfl, rfl⟩, hush, _, List.mem_cons_self, .scalar 0 "volume", List.mem_cons_self, ?_⟩
  rintro ⟨decl, hdecl, -⟩
  cases hdecl

end Registry

end ParticleDynamics
