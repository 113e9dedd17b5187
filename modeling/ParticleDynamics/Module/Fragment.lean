import ParticleDynamics.Block.Layout
import ParticleDynamics.Decimal.Shortest
import ParticleDynamics.Scratch.Layout

/-!
# Program fragments

A module is written a second time as text for the generated program. While it puts that text
together it asks where its data is: a parameter, the length or an element of an array, a scratch
field. Each such question is an `Access`, and the answer is an expression that reads the place.

A question that has no answer (a parameter of the other kind, a field that nobody declared) is
answered by the constant zero, and a message about it is noted, so that one attempt to build a
program finds all mistakes. The list of these messages is within reach of the module: it may take
them off the list, its own earlier ones included, and whoever looks at the list afterwards does not
find them any more. An `Emission` is the tree of the questions a fragment asks, ending in its text;
`Emission.note` answers them for a given layout.

Inside a generated phase function these names are in scope: `index` (the row of the particle),
`particle` (a local copy of its record), `sim.dt`, `particles_prev` (all records when the pass
began) and `sim_state` (the scratch table).
-/

namespace ParticleDynamics

/-- The name of the block of a module. -/
def uniformVar (owner : String) : String := "u_" ++ owner

/-- The name of the buffer with the elements of an array parameter. -/
def arrayVar (owner param : String) : String := "a_" ++ owner ++ "_" ++ param

/-- The expression that reads a slot of a block. -/
def Block.slotText (b : Block) (slot : BlockSlot) : String :=
  uniformVar b.owner ++ "[" ++ toString slot.register ++ "]." ++ String.singleton slot.letter

/-- The expression for a slot of a row of the scratch table. -/
def cellText (row : String) (slot : Nat) : String :=
  "sim_state[(" ++ row ++ ") * STATE_STRIDE + " ++ toString slot ++ "u]"

/-- The expression for a reserved slot of the particle's own row. -/
def reservedText (slot : Reserved) : String :=
  "sim_state[index * STATE_STRIDE + " ++ toString slot.slot ++ "u]"

/-- A question about where data is. A parameter is named by its place in the declaration order; its
name serves the message. -/
inductive Access where
  /-- the value of a scalar parameter -/
  | scalar (param : Nat) (name : String)
  /-- the element of an array parameter at an index expression -/
  | element (param : Nat) (name : String) (index : String)
  /-- the number of elements of an array parameter -/
  | length (param : Nat) (name : String)
  /-- a scratch field in the row of an index expression; without an owner it is the module's own -/
  | field (owner : Option String) (name : String) (row : String)
deriving DecidableEq, Repr

/-- What questions are answered from: the block of the module and the scratch layout. -/
structure Places where
  /-- the block of the module -/
  block : Block
  /-- the scratch layout -/
  scratch : ScratchLayout

/-- The answer to a question, or the message that there is none. -/
def Access.answer (places : Places) : Access → Except String String
  | scalar param name =>
    match places.block.scalar? param with
    | some entry => .ok (places.block.slotText entry.slot)
    | none => .error ("`" ++ name ++ "` is not a scalar of `" ++ places.block.owner ++ "`")
  | element param name index =>
    match places.block.array? param with
    | some entry => .ok (arrayVar places.block.owner entry.name ++ "[" ++ index ++ "]")
    | none => .error ("`" ++ name ++ "` is not an array of `" ++ places.block.owner ++ "`")
  | length param name =>
    match places.block.array? param with
    | some entry => .ok ("u32(" ++ places.block.slotText entry.lengthSlot ++ ")")
    | none => .error ("`" ++ name ++ "` is not an array of `" ++ places.block.owner ++ "`")
  | field owner name row =>
    let owner := owner.getD places.block.owner
    match places.scratch.slot? owner name with
    | some slot => .ok (cellText row slot)
    | none => .error ("no state field `" ++ name ++ "` on `" ++ owner ++ "`")

/-- What stands for an answer that is missing. -/
def missingText : String := "0.0"

/-- A tree of questions, ending in a `β`. -/
inductive Emission (β : Type) where
  /-- end with a result -/
  | done (result : β)
  /-- ask, and go on with the answer -/
  | ask (question : Access) (next : String → Emission β)
  /-- take the messages noted so far off the list, and go on with them -/
  | take (next : List String → Emission β)

namespace Emission

variable {β γ : Type}

/-- Do one thing, then another that may depend on its result. -/
def bind (e : Emission β) (f : β → Emission γ) : Emission γ :=
  match e with
  | done result => f result
  | ask question next => ask question fun text => (next text).bind f
  | take next => take fun messages => (next messages).bind f

instance : Monad Emission where
  pure := done
  bind := bind

@[simp] theorem pure_eq (result : β) : (pure result : Emission β) = done result := rfl

@[simp] theorem bind_eq (e : Emission β) (f : β → Emission γ) : e >>= f = e.bind f := rfl

/-- The value of a scalar parameter. -/
def scalar {α : Type} (key : ParamKey α) : Emission String :=
  ask (.scalar key.index key.decl.name) done

/-- An element of an array parameter. -/
def element {α : Type} (key : ParamKey α) (index : String) : Emission String :=
  ask (.element key.index key.decl.name index) done

/-- The number of elements of an array parameter. -/
def length {α : Type} (key : ParamKey α) : Emission String :=
  ask (.length key.index key.decl.name) done

/-- One of the module's own fields in the row of an expression. -/
def fieldOf (name row : String) : Emission String := ask (.field none name row) done

/-- One of the module's own fields in the particle's row. -/
def field (name : String) : Emission String := fieldOf name "index"

/-- A field of another module in the row of an expression. -/
def foreignField (owner name row : String) : Emission String :=
  ask (.field (some owner) name row) done

/-- Take the messages noted so far off the list. -/
def takeMessages : Emission (List String) := take done

/-- The result for the given places, with the messages that are on the list at the end, in the order
in which they were noted, when some are on it in the beginning. -/
def note (places : Places) (noted : List String) : Emission β → β × List String
  | done result => (result, noted)
  | ask question next =>
    match question.answer places with
    | .ok text => (next text).note places noted
    | .error message => (next missingText).note places (noted ++ [message])
  | take next => (next noted).note places []

/-- The result for the given places with the messages on the list, which begins empty. -/
def run (places : Places) (e : Emission β) : β × List String := e.note places []

/-- A sequence goes on with the list that its first part left. -/
theorem note_bind (places : Places) (e : Emission β) (f : β → Emission γ) (noted : List String) :
    (e.bind f).note places noted =
      (f (e.note places noted).1).note places (e.note places noted).2 := by
  induction e generalizing noted with
  | done result => rfl
  | ask question next ih =>
    simp only [bind, note]
    cases question.answer places with
    | ok text => exact ih text noted
    | error message => exact ih missingText _
  | take next ih => exact ih noted []

end Emission

/-! ### Text that needs no answer -/

namespace Fragment

/-- Lines put together. -/
def lines (parts : List String) : String := String.intercalate "\n" parts

/-- A statement on the line of its condition. -/
def guarded (condition statement : String) : String :=
  "if (" ++ condition ++ ") \x7b " ++ statement ++ " \x7d"

/-- Lines between braces, after a head. -/
def block (head : String) (body : List String) : List String :=
  (head ++ " \x7b") :: body ++ ["\x7d"]

/-- Lines for a condition that holds and lines for one that does not. -/
def branch (condition : String) (yes no : List String) : List String :=
  ("if (" ++ condition ++ ") \x7b") :: yes ++ "\x7d else \x7b" :: no ++ ["\x7d"]

/-- How numbers are laid out in a program. -/
def numberStyle : DecimalStyle := ⟨-4, 15, false⟩

/-- A number in a program; it has a point or an exponent, so it is not taken for an integer. -/
def number (x : Single) : String := numberStyle.text "0.0" x

/-- The distance up to which particles count as coincident. -/
def coincidentText : String := number 1e-5

/-- The duration of the step. -/
def dt : String := "sim.dt"

/-- A position kept in two reserved slots. -/
def pair (x y : Reserved) : String :=
  "vec2<f32>(" ++ reservedText x ++ ", " ++ reservedText y ++ ")"

/-- The position before the last integration. -/
def prePosition : String := pair .preX .preY

/-- The position right after the last integration. -/
def postPosition : String := pair .postX .postY

/-- The statements that store a position as the one after the last integration. -/
def setPostPosition (value : String) : String :=
  reservedText .postX ++ " = (" ++ value ++ ").x;\n" ++
  reservedText .postY ++ " = (" ++ value ++ ").y;"

/-- Another particle as it was when the pass began. -/
def other (index : String) : String := "particles_prev[" ++ index ++ "]"

/-- A loop over the live neighbours within a radius of a point. The body sees `other_index` and
`other`. -/
def forEachNeighbor (point radius body : String) : String :=
  lines <|
    "\x7b" ::
    ("var cursor = neighbor_iter_init(" ++ point ++ ", " ++ radius ++ ");") ::
    block "loop" [
      "let other_index = neighbor_iter_next(&cursor);",
      guarded "other_index == NEIGHBOR_END" "break;",
      guarded "other_index == index" "continue;",
      "let other = " ++ other "other_index" ++ ";",
      guarded "other.mass == 0.0" "continue;",
      body] ++
    ["\x7d"]

end Fragment

end ParticleDynamics
