/-!
# Arguments

The arguments of the demonstration. Options have a long name and some a letter; all but one take a
value, which follows as an argument of its own, or after an equals sign, or, behind a letter, at
once. An argument that begins with a dash is never the value of the option before it, except for the
lone dash. No option may be given twice, and nothing but options is accepted.
-/

namespace ParticleDynamics

namespace Demo

/-- An option. -/
inductive Flag where
  /-- how many steps to simulate -/
  | steps
  /-- the seed of the particle cloud -/
  | seed
  /-- how many particles to spawn -/
  | count
  /-- where the settings are kept -/
  | settings
  /-- print the generated program instead -/
  | program
deriving DecidableEq, Repr

namespace Flag

/-- The option with a long name. -/
def ofName? (name : String) : Option Flag :=
  match name with
  | "steps" => some steps
  | "seed" => some seed
  | "count" => some count
  | "settings" => some settings
  | "wgsl" => some program
  | _ => none

/-- The option with a letter. -/
def ofLetter? (letter : Char) : Option Flag :=
  match letter with
  | 'c' => some count
  | 's' => some settings
  | _ => none

end Flag

/-- An argument, taken apart. -/
inductive Word where
  /-- the end of the options -/
  | separator
  /-- an option by its name, with the value after the equals sign if there is one -/
  | long (name : String) (value : Option String)
  /-- an option by its letter, with what follows the letter -/
  | short (letter : Char) (rest : String)
  /-- anything else -/
  | plain (content : String)
deriving DecidableEq, Repr

namespace Word

/-- An argument, taken apart. -/
def ofArgument (argument : String) : Word :=
  match argument.toList with
  | ['-', '-'] => separator
  | '-' :: '-' :: rest =>
    let name := rest.takeWhile (· != '=')
    match rest.drop name.length with
    | [] => long (String.ofList name) none
    | _ :: value => long (String.ofList name) (some (String.ofList value))
  | '-' :: letter :: rest => short letter (String.ofList rest)
  | _ => plain argument

/-- The value that stands right behind a letter, without an equals sign in front. -/
def attached (rest : String) : Option String :=
  match rest.toList with
  | [] => none
  | '=' :: value => some (String.ofList value)
  | _ => some rest

/-- The option that an argument names. -/
def flag? : Word → Option Flag
  | long name _ => Flag.ofName? name
  | short letter _ => Flag.ofLetter? letter
  | _ => none

/-- The value that comes in the same argument as its option. -/
def value? : Word → Option String
  | long _ value => value
  | short _ rest => attached rest
  | _ => none

end Word

/-- The number that decimal digits denote, at least one of them. -/
def decimal? : List Char → Option Nat
  | [] => none
  | digits =>
    if digits.all Char.isDigit then
      some (digits.foldl (fun n digit => 10 * n + (digit.toNat - '0'.toNat)) 0)
    else none

/-- A whole number below `bound`, with an optional plus sign. -/
def natural? (bound : Nat) (input : String) : Option Nat := do
  let n ← match input.toList with
    | '+' :: digits => decimal? digits
    | digits => decimal? digits
  if n < bound then some n else none

/-- A word; zero may have a minus sign. -/
def word? (input : String) : Option UInt32 :=
  match input.toList with
  | '-' :: digits => if decimal? digits = some 0 then some 0 else none
  | _ => (natural? 4294967296 input).map Nat.toUInt32

/-- A word of double length. -/
def longWord? (input : String) : Option UInt64 :=
  (natural? 18446744073709551616 input).map Nat.toUInt64

/-- The options as far as they were given. -/
structure Given where
  /-- how many steps to simulate -/
  steps : Option UInt32 := none
  /-- the seed of the particle cloud -/
  seed : Option UInt64 := none
  /-- how many particles to spawn -/
  count : Option UInt32 := none
  /-- where the settings are kept -/
  settings : Option String := none
  /-- whether to print the generated program -/
  program : Option Unit := none
deriving DecidableEq, Repr

/-- A value given once; nothing when there is one already or the new one makes no sense. -/
def once {β : Type} (old new : Option β) : Option (Option β) :=
  match old, new with
  | none, some value => some (some value)
  | _, _ => none

namespace Given

/-- The options with one more. -/
def assign (given : Given) (flag : Flag) (value : String) : Option Given :=
  match flag with
  | .steps => do return { given with steps := ← once given.steps (word? value) }
  | .seed => do return { given with seed := ← once given.seed (longWord? value) }
  | .count => do return { given with count := ← once given.count (word? value) }
  | .settings => do return { given with settings := ← once given.settings (some value) }
  | .program => do return { given with program := ← once given.program (some ()) }

/-- The options with those of a list of arguments; nothing when they cannot be understood. -/
def collect (given : Given) : List String → Option Given
  | [] => some given
  | argument :: rest =>
    match Word.ofArgument argument with
    | .separator => if rest.isEmpty then some given else none
    | word =>
      match word.flag?, word.value? with
      | none, _ => none
      | some .program, none => (given.assign .program "").bind fun given => collect given rest
      | some .program, some _ => none
      | some flag, some value => (given.assign flag value).bind fun given => collect given rest
      | some flag, none =>
        match rest with
        | [] => none
        | next :: rest' =>
          match Word.ofArgument next with
          | .plain value => (given.assign flag value).bind fun given => collect given rest'
          | _ => none

end Given

/-- What the demonstration is asked to do. -/
structure Arguments where
  /-- how many steps to simulate -/
  steps : UInt32
  /-- the seed of the particle cloud -/
  seed : UInt64
  /-- how many particles to spawn -/
  count : UInt32
  /-- where the settings are kept, if anywhere -/
  settings : Option String
  /-- whether to print the generated program instead -/
  program : Bool
deriving DecidableEq, Repr

namespace Arguments

/-- The arguments that are meant; nothing when they cannot be understood. -/
def parse? (arguments : List String) : Option Arguments := do
  let given ← Given.collect {} arguments
  return {
    steps := given.steps.getD 600
    seed := given.seed.getD 1
    count := given.count.getD 500
    settings := given.settings
    program := given.program.isSome }

end Arguments

end Demo

end ParticleDynamics
