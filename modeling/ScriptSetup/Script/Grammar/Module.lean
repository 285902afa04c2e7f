import ScriptSetup.Script.Grammar.Statement

/-!
# Modules

Imports, exports and the items of a module; and `grammar`, which ties the readers of the
grammar together. Each use of an entry point from inside a reader is one step deeper, so a text
cannot be nested deeper than a multiple of its length, and the bound is never met.
-/

set_option autoImplicit false

namespace ScriptSetup.Script

namespace Parse

/-! ## Imports -/

/-- The attributes after the name of a module, in typed code. -/
def importAttributes (g : Grammar) : Parse (List Property) := do
  if !(← typed) then return []
  if (← isWord "with") || ((← isWord "assert") && !(← newlineBefore)) then
    advance
    objectProperties g
  else return []

/-- `from "m"` with attributes and the end of the declaration. -/
def fromClause (g : Grammar) : Parse (StringLit × List Property) := do
  expectWord "from"
  let source ← stringLit
  let attributes ← importAttributes g
  semicolon
  return (source, attributes)

/-- A name that is bound as it is called in the other module. -/
def unrenamed (isType : Bool) (id : Ident) : Parse ImportSpecifier := do
  if isReservedHere (← read) id.name then fault id.span (.reserved id.name)
  return .named isType none id.name

/-- An imported name after `type` when it is a modifier or a name of its own. -/
def typeSpecifier (allType : Bool) : Parse ImportSpecifier := do
  let span ← tokenSpan
  let second ← anyName
  if second.name == "as" then
    match ← token with
    | .word _ _ =>
      let third ← boundName
      if third.name == "as" then
        match ← token with
        | .word _ _ =>
          let binds ← boundName
          if allType then report span (.misplaced "type")
          return .named true (some (.ident second.name)) binds.name
        | _ => return .named false (some (.ident "type")) third.name
      else return .named false (some (.ident "type")) third.name
    | _ =>
      if allType then report span (.misplaced "type")
      return .named true none "as"
  else
    if allType then report span (.misplaced "type")
    if ← eatWord "as" then
      let binds ← boundName
      return .named true (some (.ident second.name)) binds.name
    else unrenamed true second

/-- A name between the braces of an import. -/
def importSpecifier (allType : Bool) : Parse ImportSpecifier := do
  match ← token with
  | .string _ value =>
    advance
    expectWord "as"
    let binds ← boundName
    return .named false (some (.string value)) binds.name
  | _ =>
    let first ← anyName
    let isType ←
      if first.name == "type" && (← typed) then
        match ← token with
        | .word _ _ => pure true
        | _ => pure false
      else pure false
    if isType then return ← typeSpecifier allType
    if ← eatWord "as" then
      let binds ← boundName
      return .named false (some (.ident first.name)) binds.name
    else unrenamed false first

/-- What stands for a namespace or for names in braces. -/
def importClause (allType : Bool) : Parse (List ImportSpecifier) := do
  if ← eat "*" then
    expectWord "as"
    let binds ← boundName
    return [.namespace binds.name]
  expect "\x7b"
  let (specifiers, _) ← commaList "\x7d" (importSpecifier allType)
  return specifiers

/-- The end of `import a = …`. -/
def importAlias : Parse Unit := do
  expect "="
  if (← isWord "require") && (← nextToken) == .punct "(" then
    advance
    advance
    let _ ← stringLit
    expect ")"
  else dottedName
  semicolon

/-- The name that an import binds by default, and whether the import is of types only. -/
def importDefault : Parse (Option Ident × Bool) := do
  if !(← isName) then return (none, false)
  let id ← boundName
  if id.name == "type" && (← typed) then
    if ← isPunctIn ["*", "\x7b"] then return (none, true)
    if ← isName then
      if !(← isWord "from") || (← nextToken) == .word "from" false then
        return (some (← boundName), true)
      if (← nextToken) == .punct "=" then return (some (← boundName), true)
  return (some id, false)

/-- An import from the word `import` on. -/
def importItem (g : Grammar) (start : Nat) : Parse ModuleItem := do
  expectWord "import"
  if let .string _ _ ← token then
    let source ← stringLit
    let attributes ← importAttributes g
    semicolon
    return .importDecl ⟨← spanFrom start, false, [], source, attributes⟩
  let (first, isType) ← importDefault
  if first.isSome && (← typed) && (← isPunct "=") then
    importAlias
    return .moduleDecl (← spanFrom start)
  let rest ←
    match first with
    | none => importClause isType
    | some _ =>
      if ← eat "," then
        if isType then report (← tokenSpan) (.misplaced "More names after a type")
        importClause isType
      else pure []
  let (source, attributes) ← fromClause g
  let defaults := first.toList.map fun id => ImportSpecifier.default id.name
  return .importDecl ⟨← spanFrom start, isType, defaults ++ rest, source, attributes⟩

/-! ## Exports -/

/-- A name of a module, as written between the braces of an export. The answer is the name when
it cannot be one of a value here. -/
def exportName : Parse (Option Span) := do
  let span ← tokenSpan
  match ← token with
  | .string _ _ =>
    advance
    return some span
  | .word w _ =>
    advance
    return if isReservedHere (← read) w then some span else none
  | _ => unexpected "identifier"

/-- The rest of an exported name after `type` and the word `as`: `type as` is the type `as`,
`type as a` the name `type` under another name, and `type as as a` the type `as` likewise. -/
def exportedAs : Parse Unit := do
  let .word renamed _ ← token | return ()
  advance
  if renamed == "as" then
    if let .word _ _ ← token then advance

/-- A name between the braces of an export, with where it cannot stand for a value. -/
def exportSpecifier : Parse (Option Span) := do
  if (← typed) && (← isWord "type") then
    match ← nextToken with
    | .word "as" _ =>
      advance
      advance
      exportedAs
      return none
    | .word _ _ | .string _ _ => advance
    | _ => pure ()
  let bad ← exportName
  if ← eatWord "as" then
    let _ ← exportName
  return bad

/-- `{ a, b as c }`, with the module it is from when there is one. -/
def exportNames (g : Grammar) (start : Nat) : Parse ModuleItem := do
  expect "\x7b"
  let (names, _) ← commaList "\x7d" exportSpecifier
  if ← isWord "from" then
    let _ ← fromClause g
    return .moduleDecl (← spanFrom start)
  for bad in names do
    if let some span := bad then fault span (.misplaced "This name")
  semicolon
  return .moduleDecl (← spanFrom start)

/-- `*` or `* as n` from another module. -/
def exportAll (g : Grammar) (start : Nat) : Parse ModuleItem := do
  expect "*"
  if ← eatWord "as" then
    let _ ← exportName
  let _ ← fromClause g
  return .moduleDecl (← spanFrom start)

/-- What is exported by default. -/
def exportDefault (g : Grammar) (start : Nat) : Parse ModuleItem := do
  expectWord "default"
  let _ ← decorators g
  let classStart ← here
  if ← isWord "class" then
    let (_, c) ← classFrom g classStart
    return .component c
  if (← typed) && (← isWord "abstract") && (← nextOnLine) == some (.word "class" false) then
    advance
    let (_, c) ← classFrom g classStart
    return .component c
  if (← typed) && (← isWord "interface") && (← nextOnLine).isSome then
    let _ ← interfaceDecl g classStart
    return .defaultDecl (← spanFrom start)
  if (← isWord "function")
      || ((← isWord "async") && (← nextOnLine) == some (.word "function" false)) then
    let kind ← functionHead
    unless ← isPunctIn ["(", "<"] do
      let _ ← boundName
    let _ ← function g kind classStart
    return .defaultDecl (← spanFrom start)
  let _ ← inBrackets g.assign
  semicolon
  return .moduleDecl (← spanFrom start)

/-- The declaration that is exported, when one follows. -/
def exportedDecl? (g : Grammar) : Parse (Option Stmt) := do
  let start ← here
  if let some s ← typedOrDeclared? g then return some s
  match ← token with
  | .word "class" false => return some (← classDecl g start)
  | .word "function" false => return some (← functionDecl g)
  | .word "async" false => return some (← functionDecl g)
  | .word "var" false | .word "let" false | .word "const" false =>
    return some (← varStmt g start false)
  | _ => return none

/-- An export from the word `export` on. -/
def exportItem (g : Grammar) (start : Nat) (decorated : Bool) : Parse ModuleItem := do
  expectWord "export"
  if ← isWord "default" then return ← exportDefault g start
  let more ← decorators g
  if decorated || !more.isEmpty then
    match ← exportedDecl? g with
    | some (.classDecl name span) =>
      return .exportDecl (← spanFrom start) (.classDecl name span)
    | _ => unexpected "class"
  if ← typed then
    if ← eatWord "import" then
      let _ ← eatWord "type"
      let _ ← name
      importAlias
      return .moduleDecl (← spanFrom start)
    if ← eat "=" then
      let _ ← inBrackets g.expr
      semicolon
      return .moduleDecl (← spanFrom start)
    if ← eatWord "as" then
      expectWord "namespace"
      let _ ← name
      semicolon
      return .moduleDecl (← spanFrom start)
    if (← isWord "type")
        && ((← nextToken) == .punct "\x7b" || (← nextToken) == .punct "*") then
      advance
  match ← token with
  | .punct "*" => exportAll g start
  | .punct "\x7b" => exportNames g start
  | _ =>
    match ← exportedDecl? g with
    | some s => return .exportDecl (← spanFrom start) s
    | none => unexpected "declaration"

/-! ## Items -/

/-- An item of a module. -/
def moduleItem (g : Grammar) : Parse ModuleItem := do
  let start ← here
  match ← token with
  | .word "import" false =>
    match ← nextToken with
    | .punct "(" | .punct "." => return .stmt (← g.stmt true)
    | _ => importItem g start
  | .word "export" false => exportItem g start false
  | .punct "@" =>
    let exported ← lookahead do
      let _ ← decorators g
      isWord "export"
    if exported then
      let _ ← decorators g
      exportItem g (← here) true
    else return .stmt (← g.stmt true)
  | _ => return .stmt (← g.stmt true)

/-- An item of a namespace, as the statements in it. -/
def namespaceItem (g : Grammar) : Parse (List Stmt) := do
  match ← moduleItem g with
  | .stmt s | .exportDecl _ s => return [s]
  | _ => return []

end Parse

/-! ## Tying the knot -/

/-- The grammar for texts that are nested at most `depth` deep. -/
def grammar : (depth : Nat) → Grammar
  | 0 =>
    let deep {α : Type} : Parse α := do Parse.fault (← Parse.tokenSpan) .tooDeep
    { assign := deep, expr := deep, binary := deep, unary := deep, leftHand := deep,
      newTarget := deep, element := deep, decoration := deep, stmt := fun _ => deep,
      item := deep, binding := deep, type := deep, plainType := deep }
  | n + 1 =>
    { assign := fun ctx s => Parse.assignExpr (grammar n) ctx s
      expr := fun ctx s => Parse.commaExpr (grammar n) ctx s
      binary := fun ctx s => Parse.binaryExpr (grammar n) ctx s
      unary := fun ctx s => Parse.unaryExpr (grammar n) ctx s
      leftHand := fun ctx s => Parse.leftHand (grammar n) ctx s
      newTarget := fun ctx s => Parse.innerNew (grammar n) ctx s
      element := fun ctx s => Parse.element (grammar n) ctx s
      decoration := fun ctx s => Parse.decoration (grammar n) ctx s
      stmt := fun isItem ctx s => Parse.statement (grammar n) isItem ctx s
      item := fun ctx s => Parse.namespaceItem (grammar n) ctx s
      binding := fun ctx s => Parse.bindingPattern (grammar n) ctx s
      type := fun ctx s => Parse.anyType (grammar n) ctx s
      plainType := fun ctx s => Parse.plainType (grammar n) ctx s }

/-- The items of a module up to the end of its text. -/
def Parse.moduleItems (g : Grammar) : Parse (List ModuleItem) :=
  collect do
    if (← token) == .eof then return none else return some (← moduleItem g)

/-- Skips a first line that starts with `#!`. The answer is the number of bytes skipped and what
follows. -/
def skipHashbang : List Char → Nat × List Char
  | '#' :: '!' :: cs =>
    let line := cs.takeWhile fun c => !isLineEnd c
    (2 + Text.byteLength line, cs.drop line.length)
  | cs => (0, cs)

/-- The text without a byte order mark before it. -/
def withoutMark : List Char → List Char
  | c :: cs => if c.toNat == 0xfeff then cs else c :: cs
  | [] => []

/-- Reads a module from its characters. A byte order mark before the text is not part of it, and
offsets count from after the mark. -/
def parseChars (lang : Lang) (cs : List Char) : Except Fault (List ModuleItem) :=
  let (skipped, cs) := skipHashbang (withoutMark cs)
  let ctx : Context := { typed := lang.isTyped, tags := lang.hasTags }
  let g := grammar (8 * cs.length + 64)
  (Parse.moduleItems g ctx (State.at skipped skipped true cs)).map (·.1)

/-- Reads a module. -/
def parseModule (lang : Lang) (source : String) : Except Fault (List ModuleItem) :=
  parseChars lang source.toList

end ScriptSetup.Script
