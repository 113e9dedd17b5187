import ParticleDynamics.Block.Binding

/-!
# Program text

A generated program is a sequence of items: text that stands for itself, and declarations, which
introduce a name at module scope. A declaration keeps its name apart from the text around it, so
that the names a program declares can be listed without reading the text again.

Inside a declaration, bodies are lists of lines, indented by four blanks for each level.
-/

namespace ParticleDynamics

/-- A declaration of a name at module scope: the text before the name, the name, and the text after
it. -/
structure Declaration where
  /-- the text before the name -/
  before : String
  /-- the name -/
  name : String
  /-- the text after the name -/
  after : String
deriving DecidableEq, Repr

/-- A part of a program. -/
inductive Item where
  /-- text that stands for itself -/
  | text (content : String)
  /-- a declaration -/
  | declaration (d : Declaration)
deriving DecidableEq, Repr

namespace Item

/-- The text of an item. -/
def source : Item → String
  | .text s => s
  | .declaration d => d.before ++ d.name ++ d.after

/-- The name that an item declares, if it declares one. -/
def name? : Item → Option String
  | .text _ => none
  | .declaration d => some d.name

end Item

namespace Shader

/-- Lines one level deeper. -/
def indent (lines : List String) : List String := lines.map ("    " ++ ·)

/-- An indented body between braces, after a head. -/
def block (head : String) (body : List String) : List String :=
  (head ++ " \x7b") :: indent body ++ ["\x7d"]

/-- An indented body for a condition that holds and one for a condition that does not. -/
def branch (condition : String) (yes no : List String) : List String :=
  ("if (" ++ condition ++ ") \x7b") :: indent yes ++ "\x7d else \x7b" :: indent no ++ ["\x7d"]

/-- Lines, each ended. -/
def ended (lines : List String) : String := String.join (lines.map (· ++ "\n"))

/-- A constant. -/
def constant (name value : String) : Item :=
  .declaration ⟨"const ", name, ": u32 = " ++ value ++ ";\n"⟩

/-- A record type, followed by an empty line. -/
def struct (name : String) (fields : List String) : Item :=
  .declaration ⟨"struct ", name,
    " \x7b\n" ++ ended (indent (fields.map (· ++ ","))) ++ "\x7d\n\n"⟩

/-- A variable that stands for the memory under a binding. -/
def resource (binding : Nat) (use : BindingUse) (name type : String) : Item :=
  .declaration ⟨"@group(0) @binding(" ++ toString binding ++ ") var<" ++ use.text ++ "> ", name,
    ": " ++ type ++ ";\n"⟩

/-- A function with an indented body, followed by an empty line. -/
def function (name signature : String) (body : List String) : Item :=
  .declaration ⟨"fn ", name, signature ++ " \x7b\n" ++ ended (indent body) ++ "\x7d\n\n"⟩

/-- The text in front of an entry point. -/
def compute (workgroupSize : Nat) : String :=
  "@compute @workgroup_size(" ++ toString workgroupSize ++ ")\nfn "

/-- The parameters of an entry point. -/
def invocation : String := "(@builtin(global_invocation_id) gid: vec3<u32>)"

/-- An entry point with an indented body, followed by an empty line. -/
def entryPoint (workgroupSize : Nat) (name : String) (body : List String) : Item :=
  .declaration ⟨compute workgroupSize, name,
    invocation ++ " \x7b\n" ++ ended (indent body) ++ "\x7d\n\n"⟩

end Shader

end ParticleDynamics
