import ScriptSetup.Script.Grammar.Expression

/-!
# Declarations

Variables, classes and the declarations of typed code. Most words that start a declaration of
typed code are names as well; they are keywords only where what follows on the line says so.
-/

set_option autoImplicit false

namespace ScriptSetup.Script.Parse

/-! ## Variables -/

/-- The pattern of a declarator takes a value apart. -/
def takesApart : Pat → Bool
  | .array _ _ _ | .object _ _ _ => true
  | _ => false

/-- A declarator without its check for an initial value. -/
def declarator (g : Grammar) : Parse Pat := do
  let start ← here
  let pat ← g.binding
  if (← typed) && !takesApart pat && !(← newlineBefore) then
    let _ ← eat "!"
  let type ← typeAnn? g
  let pat ← typedPattern start pat false type
  if ← eat "=" then
    let value ← g.assign
    return .withDefault (← spanFrom start) pat value
  else return pat

/-- A constant or a pattern needs an initial value. -/
def checkInitialized (kind : VarKind) (ds : List Pat) : Parse Unit := do
  if (← read).inDeclare then return ()
  for d in ds do
    if takesApart d || (kind == .const && !d.hasDefault) then
      fault d.span (.misplaced "A declaration without a value")

/-- The keyword of a variable declaration. -/
def varKind : Parse VarKind := do
  if ← eatWord "var" then return .var
  if ← eatWord "let" then return .let
  expectWord "const"
  return .const

/-- Declarators with commas between them. -/
def declarators (g : Grammar) : Parse (List Pat) := do
  let first ← declarator g
  let rest ← collect do
    if ← eat "," then return some (← declarator g) else return none
  return first :: rest

/-- A variable declaration as a statement. -/
def varStmt (g : Grammar) (start : Nat) (isDeclare : Bool) : Parse Stmt := do
  let kind ← varKind
  let ds ← declarators g
  checkInitialized kind ds
  semicolon
  return .varDecl (← spanFrom start) isDeclare kind ds

/-- The declarators of `using`: names, each with a value. -/
def usingDeclarators (g : Grammar) : Parse (List Pat) := do
  let ds ← declarators g
  for d in ds do
    match d with
    | .ident _ _ _ | .withDefault _ (.ident _ _ _) _ => pure ()
    | _ => fault d.span (.misplaced "A pattern after using")
  return ds

/-- `using` or `await using` as a statement. -/
def usingStmt (g : Grammar) : Parse Stmt := do
  let start ← here
  let _ ← eatWord "await"
  expectWord "using"
  let ds ← usingDeclarators g
  for d in ds do
    unless d.hasDefault do fault d.span (.misplaced "A declaration without a value")
  semicolon
  return .usingDecl (← spanFrom start) ds

/-- `using` starts a declaration here. -/
def isUsing : Parse Bool := do
  if !(← typed) then return false
  if ← isWord "using" then
    match ← nextOnLine with
    | some (.word w e) => return w != "in" && w != "instanceof" && (← canBeName (.word w e))
    | _ => return false
  if ← isWord "await" then
    lookahead do
      advance
      if (← newlineBefore) || !(← isWord "using") then return false
      advance
      return !(← newlineBefore) && (← isName) && !(← isWord "in")
  else return false

/-! ## Classes, enumerations and namespaces -/

/-- The declaration of a class from `class` on. -/
def classDecl (g : Grammar) (start : Nat) : Parse Stmt := do
  let keyword ← tokenSpan
  let (name, c) ← classFrom g start
  match name with
  | some id => return .classDecl id c.span
  | none => fault keyword (.misplaced "A class without a name")

/-- A statement that holds one self access. -/
def selfAccessStmt (id : Ident) : Stmt :=
  .expr id.span (.member id.span (.this id.span) (.ident id))

/-- A member of an enumeration. -/
def enumMember (g : Grammar) : Parse (List Stmt) := do
  match ← token with
  | .word _ _ | .string _ _ => advance
  | _ => unexpected "identifier"
  if ← eat "=" then
    let e ← g.assign
    return [.expr e.span e]
  else return []

/-- An enumeration from `enum` on. -/
def enumDecl (g : Grammar) (start : Nat) : Parse Stmt := do
  expectWord "enum"
  let _ ← anyName
  expect "\x7b"
  let (members, _) ← inBrackets (commaList "\x7d" (enumMember g))
  return .typeDecl .enum (← spanFrom start) members.flatten

/-- An interface from `interface` on. -/
def interfaceDecl (g : Grammar) (start : Nat) : Parse Stmt := do
  expectWord "interface"
  let id ← anyName
  if isTypeName id.name then report id.span (.reserved id.name)
  let types ← typeParams? g
  if ← eatWord "extends" then heritage g
  let members ← typeMembers g
  return .typeDecl .interface (← spanFrom start)
    ((TypeText.selfNamesOf types ++ members).map selfAccessStmt)

/-- A name for a type from `type` on. -/
def typeAliasDecl (g : Grammar) (start : Nat) : Parse Stmt := do
  expectWord "type"
  let _ ← anyName
  let types ← typeParams? g
  expect "="
  let t ← inBrackets g.type
  semicolon
  return .typeDecl .alias (← spanFrom start)
    ((TypeText.selfNamesOf types ++ t.selfNames).map selfAccessStmt)

/-- The items of a namespace, braces included. -/
def namespaceBody (g : Grammar) : Parse (List Stmt) := do
  expect "\x7b"
  let items ← inBrackets <| collect do
    if ← isPunct "\x7d" then return none else return some (← g.item)
  expect "\x7d"
  return items.flatten

/-- A namespace from `namespace`, `module` or `global` on. Only a module named by a string can
do without a body. -/
def namespaceDecl (g : Grammar) (start : Nat) : Parse Stmt := do
  if ← eatWord "global" then
    let body ← namespaceBody g
    return .typeDecl .namespace (← spanFrom start) body
  advance
  match ← token with
  | .string _ _ =>
    advance
    if ← isPunct "\x7b" then
      let body ← namespaceBody g
      return .typeDecl .namespace (← spanFrom start) body
    semicolon
    return .typeDecl .namespace (← spanFrom start) []
  | _ =>
    dottedName
    let body ← namespaceBody g
    return .typeDecl .namespace (← spanFrom start) body

/-! ## Words that start a declaration -/

/-- The declaration of typed code that the current word starts, if it does. -/
def typedDecl? (g : Grammar) (start : Nat) : Parse (Option Stmt) := do
  if !(← typed) then return none
  match ← token, ← nextOnLine with
  | .word "interface" false, some (.word _ _) => return some (← interfaceDecl g start)
  | .word "type" false, some (.word _ _) => return some (← typeAliasDecl g start)
  | .word "namespace" false, some (.word _ _) | .word "module" false, some (.word _ _)
  | .word "module" false, some (.string _ _) | .word "global" false, some (.punct "\x7b") =>
    return some (← namespaceDecl g start)
  | .word "abstract" false, some (.word "class" false) =>
    advance
    return some (← classDecl g start)
  | .word "enum" false, _ => return some (← enumDecl g start)
  | .word "const" false, some (.word "enum" false) =>
    advance
    return some (← enumDecl g start)
  | _, _ => return none

/-- What can be described after `declare`. -/
def declared? (g : Grammar) (start : Nat) : Parse (Option Stmt) := do
  if let some s ← typedDecl? g start then return some s
  match ← token with
  | .word "function" false => return some (← functionDecl g)
  | .word "async" false =>
    if (← nextToken) == .word "function" false then return some (← functionDecl g)
    else return none
  | .word "class" false => return some (← classDecl g start)
  | .word "var" false | .word "let" false | .word "const" false =>
    return some (← varStmt g start true)
  | _ => return none

/-- A declaration of typed code, also after `declare`. -/
def typedOrDeclared? (g : Grammar) : Parse (Option Stmt) := do
  let start ← here
  if let some s ← typedDecl? g start then return some s
  if (← typed) && (← isWord "declare") then
    match ← nextOnLine with
    | some (.word _ _) =>
      let isDeclaration ← lookahead do
        advance
        isWordIn ["interface", "type", "namespace", "module", "global", "abstract", "enum",
          "const", "function", "async", "class", "var", "let"]
      if isDeclaration then
        advance
        withReader (fun ctx => { ctx with inDeclare := true }) (declared? g start)
      else return none
    | _ => return none
  else return none

end ScriptSetup.Script.Parse
