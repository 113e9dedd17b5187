import ParticleDynamics.Source.Tree

/-!
# The grammar of programs

Reads the structure of a program from its tokens. Operators between two operands bind in levels,
each grouping to the left; the levels are listed in `levels`, the weakest first. An angle bracket
opens a list of parameters only behind the names that take one, and is a comparison elsewhere; where
such a list ends, the first character of a longer sign is taken.

Every function counts down on `fuel`, which bounds how deeply calls are nested. A token is consumed
at least every `callsPerToken` nested calls, so the fuel of `ofTokens?` never runs out.
-/

namespace ParticleDynamics

namespace Source

/-! ### Names -/

/-- The words that are no names. -/
def reserved : List String := [
  "alias", "break", "case", "const", "const_assert", "continue", "continuing", "default",
  "diagnostic", "discard", "else", "enable", "false", "fn", "for", "if", "let", "loop", "override",
  "requires", "return", "struct", "switch", "true", "var", "while",
  "NULL", "Self", "abstract", "active", "alignas", "alignof", "as", "asm", "asm_fragment", "async",
  "attribute", "auto", "await", "become", "cast", "catch", "class", "co_await", "co_return",
  "co_yield", "coherent", "column_major", "common", "compile", "compile_fragment", "concept",
  "const_cast", "consteval", "constexpr", "constinit", "crate", "debugger", "decltype", "delete",
  "demote", "demote_to_helper", "do", "dynamic_cast", "enum", "explicit", "export", "extends",
  "extern", "external", "fallthrough", "filter", "final", "finally", "friend", "from", "fxgroup",
  "get", "goto", "groupshared", "highp", "impl", "implements", "import", "inline", "instanceof",
  "interface", "layout", "lowp", "macro", "macro_rules", "match", "mediump", "meta", "mod",
  "module", "move", "mut", "mutable", "namespace", "new", "nil", "noexcept", "noinline",
  "nointerpolation", "non_coherent", "noncoherent", "noperspective", "null", "nullptr", "of",
  "operator", "package", "packoffset", "partial", "pass", "patch", "pixelfragment", "precise",
  "precision", "premerge", "priv", "protected", "pub", "public", "readonly", "ref", "regardless",
  "register", "reinterpret_cast", "require", "resource", "restrict", "self", "set", "shared",
  "sizeof", "smooth", "snorm", "static", "static_assert", "static_cast", "std", "subroutine",
  "super", "target", "template", "this", "thread_local", "throw", "trait", "try", "type", "typedef",
  "typeid", "typename", "typeof", "union", "unless", "unorm", "unsafe", "unsized", "use", "using",
  "varying", "virtual", "volatile", "wgsl", "where", "with", "writeonly", "yield"]

/-- Whether a word is a name. -/
def isName (word : String) : Bool :=
  word != "_" && !("__".toList.isPrefixOf word.toList) && !reserved.contains word

/-- The names behind which an angle bracket opens a list of parameters. -/
def parametric : List String := [
  "vec2", "vec3", "vec4", "array", "atomic", "ptr", "bitcast",
  "mat2x2", "mat2x3", "mat2x4", "mat3x2", "mat3x3", "mat3x4", "mat4x2", "mat4x3", "mat4x4"]

/-- The attributes that a declaration can have. -/
def attributes : List String := [
  "align", "binding", "builtin", "compute", "const", "diagnostic", "fragment", "group", "id",
  "interpolate", "invariant", "location", "must_use", "size", "vertex", "workgroup_size"]

/-! ### Operators -/

/-- The operators between two operands, those that bind weakest first. -/
def levels : List (List String) := [
  ["||"], ["&&"], ["|"], ["^"], ["&"], ["==", "!="], ["<", ">", "<=", ">="], ["<<", ">>"],
  ["+", "-"], ["*", "/", "%"]]

/-- The operators that can stand between angle brackets. -/
def enclosedLevels : List (List String) := [["+", "-"], ["*", "/", "%"]]

/-- The operators before an operand. -/
def unaryOperators : List String := ["-", "!", "~", "*", "&"]

/-- The signs that combine an old value with a new one, with the operator that does it. -/
def combinations : List (String × String) := [
  ("+=", "+"), ("-=", "-"), ("*=", "*"), ("/=", "/"), ("%=", "%"), ("&=", "&"), ("|=", "|"),
  ("^=", "^"), ("<<=", "<<"), (">>=", ">>")]

/-! ### Reading tokens -/

/-- Something that reads tokens, or fails. -/
abbrev Reading (β : Type) : Type := StateT (List Token) Option β

namespace Reading

/-- Read a token if it comes next. -/
def skip (token : Token) : Reading Bool := do
  match ← get with
  | next :: rest =>
    if next = token then
      set rest
      return true
    else return false
  | [] => return false

/-- Read a sign if it comes next. -/
def skipSign (text : String) : Reading Bool := skip (.sign text)

/-- Read a word if it comes next. -/
def skipWord (word : String) : Reading Bool := skip (.word word)

/-- Read a sign that has to come next. -/
def expect (text : String) : Reading Unit := do
  if ← skipSign text then return () else failure

/-- Read one of some signs if one comes next. -/
def oneOf (texts : List String) : Reading (Option String) := do
  match ← get with
  | .sign text :: rest =>
    if texts.contains text then
      set rest
      return some text
    else return none
  | _ => return none

/-- Read a word. -/
def word : Reading String := do
  match ← get with
  | .word name :: rest =>
    set rest
    return name
  | _ => failure

/-- Read a name. -/
def name : Reading String := do
  let word ← word
  if isName word then return word else failure

/-- Read the end of a list between angle brackets. -/
def closeAngle : Reading Unit := do
  match ← get with
  | .sign ">" :: rest => set rest
  | .sign ">>" :: rest => set (Token.sign ">" :: rest)
  | .sign ">=" :: rest => set (Token.sign "=" :: rest)
  | .sign ">>=" :: rest => set (Token.sign ">=" :: rest)
  | _ => failure

/-! ### Expressions -/

mutual

/-- Read an expression. -/
def expression : (fuel : Nat) → Reading Expr
  | 0 => failure
  | fuel + 1 => operation fuel levels

/-- Read operands with operators of the given levels between them. -/
def operation : (fuel : Nat) → (levels : List (List String)) → Reading Expr
  | 0, _ => failure
  | fuel + 1, [] => operand fuel
  | fuel + 1, level :: stronger => do
    let left ← operation fuel stronger
    further fuel level stronger left

/-- Read what follows the left operand of a level. -/
def further : (fuel : Nat) → (level : List String) → (stronger : List (List String)) → Expr →
    Reading Expr
  | 0, _, _, _ => failure
  | fuel + 1, level, stronger, left => do
    match ← oneOf level with
    | some operator =>
      let right ← operation fuel stronger
      further fuel level stronger (.binary operator left right)
    | none => return left

/-- Read an operand with the operators before and behind it. -/
def operand : (fuel : Nat) → Reading Expr
  | 0 => failure
  | fuel + 1 => do
    match ← oneOf unaryOperators with
    | some operator => return .unary operator (← operand fuel)
    | none =>
      let whole ← atom fuel
      selected fuel whole

/-- Read the members and elements that are selected from a value. -/
def selected : (fuel : Nat) → Expr → Reading Expr
  | 0, _ => failure
  | fuel + 1, whole => do
    match ← oneOf [".", "["] with
    | none => return whole
    | some "." =>
      let member ← name
      selected fuel (.member whole member)
    | some _ =>
      let index ← expression fuel
      expect "]"
      selected fuel (.element whole index)

/-- Read a number, a truth value, a name, a call, or an expression in parentheses. -/
def atom : (fuel : Nat) → Reading Expr
  | 0 => failure
  | fuel + 1 => do
    match ← get with
    | .number type :: rest =>
      set rest
      return .number type
    | .sign "(" :: rest =>
      set rest
      let inner ← expression fuel
      expect ")"
      return inner
    | .word "true" :: rest =>
      set rest
      return .truth
    | .word "false" :: rest =>
      set rest
      return .truth
    | .word _ :: _ =>
      match ← named fuel with
      | .name head parameters =>
        if ← skipSign "(" then return .call head parameters (← arguments fuel)
        else return .name head parameters
      | other => return other
    | _ => failure

/-- Read a name with its parameters. -/
def named : (fuel : Nat) → Reading Expr
  | 0 => failure
  | fuel + 1 => do
    let head ← word
    if parametric.contains head then
      if ← skipSign "<" then return .name head (← parameters fuel) else return .name head []
    else return .name head []

/-- Read the arguments of a call, after the opening parenthesis. -/
def arguments : (fuel : Nat) → Reading (List Expr)
  | 0 => failure
  | fuel + 1 => do
    if ← skipSign ")" then return []
    else
      let first ← expression fuel
      if ← skipSign "," then return first :: (← arguments fuel)
      else
        expect ")"
        return [first]

/-- Read parameters, after the opening bracket. -/
def parameters : (fuel : Nat) → Reading (List Expr)
  | 0 => failure
  | fuel + 1 => do
    let first ← operation fuel enclosedLevels
    if ← skipSign "," then return first :: (← parameters fuel)
    else
      closeAngle
      return [first]

end

/-- Read a type after a colon, if there is one. -/
def annotation (fuel : Nat) : Reading (Option Expr) := do
  if ← skipSign ":" then return some (← named fuel) else return none

/-- Read a value after an equals sign, if there is one. -/
def initial (fuel : Nat) : Reading (Option Expr) := do
  if ← skipSign "=" then return some (← expression fuel) else return none

/-! ### Statements -/

/-- Read an assignment or a call, without the semicolon. -/
def simple (fuel : Nat) : Reading Statement := do
  match ← get with
  | .word "_" :: rest =>
    set rest
    expect "="
    return .forget (← expression fuel)
  | .word head :: .sign "(" :: rest =>
    set rest
    return .call (.call head [] (← arguments fuel))
  | _ =>
    let target ← operand fuel
    match ← oneOf ("=" :: "++" :: "--" :: combinations.map Prod.fst) with
    | some "=" => return .assign target none (← expression fuel)
    | some "++" => return .count target
    | some "--" => return .count target
    | some sign => return .assign target (combinations.lookup sign) (← expression fuel)
    | none => failure

/-- Read the introduction of a name, after its keyword. -/
def declaration (kind : LocalKind) (fuel : Nat) : Reading Statement := do
  let introduced ← name
  let type ← annotation fuel
  let value ← initial fuel
  expect ";"
  if kind = .place ∨ value.isSome then return .declare kind introduced type value else failure

/-- Read a condition that has to hold beforehand, after its keyword. -/
def assertion (fuel : Nat) : Reading Expr := do
  let condition ← expression fuel
  expect ";"
  return condition

/-- Read a simple statement or an introduction that begins a loop, with its semicolon. -/
def beginning (fuel : Nat) : Reading (List Statement) := do
  if ← skipSign ";" then return []
  else if ← skipWord "var" then return [← declaration .place fuel]
  else if ← skipWord "let" then return [← declaration .value fuel]
  else if ← skipWord "const" then return [← declaration .constant fuel]
  else
    let first ← simple fuel
    expect ";"
    return [first]

mutual

/-- Read statements up to the closing brace. -/
def statements : (fuel : Nat) → Reading (List Statement)
  | 0 => failure
  | fuel + 1 => do
    if ← skipSign "\x7d" then return []
    else if ← skipSign ";" then statements fuel
    else
      let first ← statement fuel
      return first :: (← statements fuel)

/-- Read statements between braces. -/
def block : (fuel : Nat) → Reading (List Statement)
  | 0 => failure
  | fuel + 1 => do
    expect "\x7b"
    statements fuel

/-- Read what is done otherwise, if anything. -/
def otherwise : (fuel : Nat) → Reading (List Statement)
  | 0 => failure
  | fuel + 1 => do
    if ← skipWord "else" then
      if ← skipWord "if" then return [← conditional fuel] else block fuel
    else return []

/-- Read a choice by a condition, after its keyword. -/
def conditional : (fuel : Nat) → Reading Statement
  | 0 => failure
  | fuel + 1 => do
    let condition ← expression fuel
    let yes ← block fuel
    return .branch condition yes (← otherwise fuel)

/-- Read the labels of a clause. -/
def labels : (fuel : Nat) → Reading (List (Option Expr))
  | 0 => failure
  | fuel + 1 => do
    let first ← if ← skipWord "default" then pure none else some <$> expression fuel
    if ← skipSign "," then
      match ← get with
      | .sign ":" :: _ => return [first]
      | .sign "\x7b" :: _ => return [first]
      | _ => return first :: (← labels fuel)
    else return [first]

/-- Read clauses up to the closing brace. -/
def clauses : (fuel : Nat) → Reading (List Clause)
  | 0 => failure
  | fuel + 1 => do
    if ← skipSign "\x7d" then return []
    else
      let found ←
        if ← skipWord "default" then pure [none]
        else if ← skipWord "case" then labels fuel
        else failure
      let _ ← skipSign ":"
      let body ← block fuel
      return .clause found body :: (← clauses fuel)

/-- Read the body of a loop after its brace, with what is done between two rounds. -/
def rounds : (fuel : Nat) → Reading (List Statement × List Statement × Option Expr)
  | 0 => failure
  | fuel + 1 => do
    if ← skipSign "\x7d" then return ([], [], none)
    else if ← skipSign ";" then rounds fuel
    else if ← skipWord "continuing" then
      expect "\x7b"
      let (between, exit) ← interval fuel
      expect "\x7d"
      return ([], between, exit)
    else
      let first ← statement fuel
      let (body, between, exit) ← rounds fuel
      return (first :: body, between, exit)

/-- Read what is done between two rounds, after its brace; last there may be a condition that ends
the loop. -/
def interval : (fuel : Nat) → Reading (List Statement × Option Expr)
  | 0 => failure
  | fuel + 1 => do
    if ← skipSign "\x7d" then return ([], none)
    else if ← skipSign ";" then interval fuel
    else if ← skipWord "break" then
      if ← skipWord "if" then
        let condition ← assertion fuel
        expect "\x7d"
        return ([], some condition)
      else failure
    else
      let first ← statement fuel
      let (between, exit) ← interval fuel
      return (first :: between, exit)

/-- Read a statement. -/
def statement : (fuel : Nat) → Reading Statement
  | 0 => failure
  | fuel + 1 => do
    match ← get with
    | .sign "\x7b" :: _ => return .block (← block fuel)
    | .word keyword :: rest =>
      match keyword with
      | "let" =>
        set rest
        declaration .value fuel
      | "const" =>
        set rest
        declaration .constant fuel
      | "var" =>
        set rest
        if ← skipSign "<" then
          if ← skipWord "function" then closeAngle else failure
        declaration .place fuel
      | "return" =>
        set rest
        if ← skipSign ";" then return .result none
        else
          let value ← expression fuel
          expect ";"
          return .result (some value)
      | "if" =>
        set rest
        conditional fuel
      | "switch" =>
        set rest
        let selector ← expression fuel
        expect "\x7b"
        return .choose selector (← clauses fuel)
      | "loop" =>
        set rest
        expect "\x7b"
        let (body, between, exit) ← rounds fuel
        return .loop body between exit
      | "while" =>
        set rest
        let condition ← expression fuel
        return .rounds [] (some condition) (← block fuel) []
      | "for" =>
        set rest
        expect "("
        let first ← beginning fuel
        let condition ← if ← skipSign ";" then pure none else some <$> assertion fuel
        let last ← if ← skipSign ")" then pure [] else do
          let step ← simple fuel
          expect ")"
          pure [step]
        return .rounds first condition (← block fuel) last
      | "break" =>
        set rest
        expect ";"
        return .leave
      | "continue" =>
        set rest
        expect ";"
        return .next
      | "discard" =>
        set rest
        expect ";"
        return .discard
      | "const_assert" =>
        set rest
        return .assert (← assertion fuel)
      | _ =>
        let made ← simple fuel
        expect ";"
        return made
    | _ =>
      let made ← simple fuel
      expect ";"
      return made

end

/-! ### Declarations -/

/-- Read the attributes that come next. -/
def skipAttributes : (fuel : Nat) → Reading Unit
  | 0 => failure
  | fuel + 1 => do
    if ← skipSign "@" then
      if attributes.contains (← word) then
        if ← skipSign "(" then
          let _ ← arguments fuel
        skipAttributes fuel
      else failure
    else return ()

/-- Read names with types up to a closing sign, with commas between them. -/
def typedNames (close : String) : (fuel : Nat) → Reading (List (String × Expr))
  | 0 => failure
  | fuel + 1 => do
    if ← skipSign close then return []
    else
      skipAttributes fuel
      let introduced ← name
      expect ":"
      let type ← named fuel
      if ← skipSign "," then return (introduced, type) :: (← typedNames close fuel)
      else
        expect close
        return [(introduced, type)]

/-- Read the words that say where a variable lives, after the opening bracket. -/
def qualifiers : (fuel : Nat) → Reading (List String)
  | 0 => failure
  | fuel + 1 => do
    let first ← word
    if ← skipSign "," then return first :: (← qualifiers fuel)
    else
      closeAngle
      return [first]

/-- Read a declaration, after its attributes. -/
def global (fuel : Nat) : Reading Global := do
  match ← word with
  | "struct" =>
    let introduced ← name
    expect "\x7b"
    return .record introduced (← typedNames "\x7d" fuel)
  | "alias" =>
    let introduced ← name
    expect "="
    let type ← named fuel
    expect ";"
    return .synonym introduced type
  | "const" =>
    let introduced ← name
    let type ← annotation fuel
    expect "="
    let value ← expression fuel
    expect ";"
    return .constant introduced type (some value)
  | "override" =>
    let introduced ← name
    let type ← annotation fuel
    let value ← initial fuel
    expect ";"
    return .constant introduced type value
  | "var" =>
    let place ← if ← skipSign "<" then qualifiers fuel else pure []
    let introduced ← name
    let type ← annotation fuel
    let value ← initial fuel
    expect ";"
    return .place introduced place type value
  | "fn" =>
    let introduced ← name
    expect "("
    let parameters ← typedNames ")" fuel
    let result ← if ← skipSign "->" then do
        skipAttributes fuel
        some <$> named fuel
      else pure none
    return .function introduced ⟨parameters, result, ← block fuel⟩
  | "const_assert" => return .assertion (← assertion fuel)
  | _ => failure

/-- Read declarations up to the end. -/
def globals : (fuel : Nat) → Reading (List Global)
  | 0 => failure
  | fuel + 1 => do
    if (← get).isEmpty then return []
    else if ← skipSign ";" then globals fuel
    else
      skipAttributes fuel
      let first ← global fuel
      return first :: (← globals fuel)

end Reading

/-- A bound for the nested calls between one token and the next. -/
def callsPerToken : Nat := 32

/-- The declarations that a sequence of tokens is made of. -/
def ofTokens? (tokens : List Token) : Option (List Global) :=
  ((Reading.globals (callsPerToken * (tokens.length + 1))).run tokens).map Prod.fst

/-- The declarations of a text. -/
def ofText? (text : String) : Option (List Global) := (Token.ofText? text).bind ofTokens?

end Source

end ParticleDynamics
