import ScriptSetup.Script.Grammar.Declaration

/-!
# Statements

A statement that is an item of a block may be a declaration; the body of a loop or of an `if`
may not.
-/

set_option autoImplicit false

namespace ScriptSetup.Script.Parse

/-- An expression in parentheses, without them. -/
def parenExpr (g : Grammar) : Parse Expr := do
  expect "("
  let e ← inBrackets g.expr
  expect ")"
  return e

/-- The body of a loop. -/
def loopBody (g : Grammar) : Parse Stmt :=
  withReader (fun ctx => { ctx with canBreak := true, canContinue := true }) (g.stmt false)

/-! ## Branches -/

/-- `if`. -/
def ifStmt (g : Grammar) (start : Nat) : Parse Stmt := do
  expectWord "if"
  let test ← parenExpr g
  let yes ← g.stmt false
  if ← eatWord "else" then
    let no ← g.stmt false
    return .ifElse (← spanFrom start) test yes no
  else return .ifThen (← spanFrom start) test yes

/-- A `case` or `default` with its statements. -/
def switchCase (g : Grammar) : Parse Case := do
  let test ←
    if ← eatWord "case" then some <$> inBrackets g.expr
    else do
      expectWord "default"
      pure none
  expect ":"
  let body ← inBrackets <| collect do
    if (← isPunct "\x7d") || (← isWordIn ["case", "default"]) then return none
    else return some (← g.stmt true)
  return .mk test body

/-- A `default`. -/
def isDefaultCase : Case → Bool
  | .mk test _ => test.isNone

/-- `switch`. -/
def switchStmt (g : Grammar) (start : Nat) : Parse Stmt := do
  expectWord "switch"
  let subject ← parenExpr g
  expect "\x7b"
  let cases ← withReader (fun ctx => { ctx with canBreak := true }) <| collect do
    if ← isPunct "\x7d" then return none else return some (← switchCase g)
  expect "\x7d"
  let span ← spanFrom start
  if 1 < (cases.filter isDefaultCase).length then report span (.misplaced "A second default")
  return .switch span subject cases

/-- What is caught, when it is named. -/
def catchParam (g : Grammar) : Parse (Option Pat) := do
  if ← eat "(" then
    let start ← here
    let pat ← g.binding
    let type ← typeAnn? g
    let pat ← typedPattern start pat false type
    expect ")"
    return some pat
  else return none

/-- `try`. -/
def tryStmt (g : Grammar) (start : Nat) : Parse Stmt := do
  expectWord "try"
  let body ← blockBody g
  if ← eatWord "catch" then
    let param ← catchParam g
    let handler ← blockBody g
    if ← eatWord "finally" then
      let finalizer ← blockBody g
      return .tryCatchFinally (← spanFrom start) body param handler finalizer
    else return .tryCatch (← spanFrom start) body param handler
  else
    expectWord "finally"
    let finalizer ← blockBody g
    return .tryFinally (← spanFrom start) body finalizer

/-! ## Loops -/

/-- `while`. -/
def whileStmt (g : Grammar) (start : Nat) : Parse Stmt := do
  expectWord "while"
  let test ← parenExpr g
  let body ← loopBody g
  return .while (← spanFrom start) test body

/-- `do`. A semicolon may follow on the same line or not at all. -/
def doStmt (g : Grammar) (start : Nat) : Parse Stmt := do
  expectWord "do"
  let body ← loopBody g
  expectWord "while"
  let test ← parenExpr g
  let _ ← eat ";"
  return .doWhile (← spanFrom start) body test

/-- What stands first in the head of a `for`. -/
def forInit (g : Grammar) : Parse ForHead := do
  let start ← here
  withReader (fun ctx => { ctx with allowIn := false }) do
    if ← isPunct ";" then return .none
    if ← isWordIn ["var", "let", "const"] then
      let kind ← varKind
      let ds ← declarators g
      return .varDecl (← spanFrom start) kind ds
    if ← isUsing then
      let _ ← eatWord "await"
      expectWord "using"
      let ds ← usingDeclarators g
      return .usingDecl (← spanFrom start) ds
    let e ← withReader (fun ctx => { ctx with inForHead := true }) g.expr
    return .pat (.expr e)

/-- A declarator with a type. -/
def hasType : Pat → Bool
  | .ident _ _ t => t.isSome
  | .array _ _ t => t.isSome
  | .object _ _ t => t.isSome
  | _ => false

/-- The head of a `for` as what an `in` or `of` assigns to. -/
def iterationHead (isOf : Bool) : ForHead → Parse ForHead
  | .none => unexpected ";"
  | .varDecl span kind ds => do
    match ds with
    | [d] =>
      if d.hasDefault || hasType d then fault span (.misplaced "A value or type in this loop")
      return .varDecl span kind ds
    | _ => fault span (.misplaced "More than one variable in this loop")
  | .usingDecl span ds => do
    match ds with
    | [d] =>
      if d.hasDefault || !isOf then fault span (.misplaced "using in this loop")
      return .usingDecl span ds
    | _ => fault span (.misplaced "More than one variable in this loop")
  | .pat p => do
    match p with
    | .expr e =>
      let target ← assignTarget .assign e
      if (← typed) && !isOf && takesApart target then
        fault e.span (.misplaced "A pattern in this loop")
      return .pat target
    | p => return .pat p

/-- Checks that the variables of a plain `for` have the values they need. -/
def checkForInit : ForHead → Parse Unit
  | .varDecl _ kind ds => checkInitialized kind ds
  | .usingDecl _ ds => do
    for d in ds do
      unless d.hasDefault do fault d.span (.misplaced "A declaration without a value")
  | _ => return ()

/-- `for` in its three forms. -/
def forStmt (g : Grammar) (start : Nat) : Parse Stmt := do
  expectWord "for"
  let awaitSpan ← tokenSpan
  let isAwait ← eatWord "await"
  let ctx ← read
  if isAwait && ctx.inFunction && !ctx.inAsync then report awaitSpan (.misplaced "await")
  expect "("
  let head ← inBrackets (forInit g)
  if ← eatWord "of" then
    let left ← iterationHead true head
    let right ← inBrackets g.assign
    expect ")"
    let body ← loopBody g
    return .forOf (← spanFrom start) isAwait left right body
  if isAwait then unexpected "of"
  if ← eatWord "in" then
    let left ← iterationHead false head
    let right ← inBrackets g.expr
    expect ")"
    let body ← loopBody g
    return .forIn (← spanFrom start) left right body
  checkForInit head
  expect ";"
  let test ← if ← isPunct ";" then pure none else some <$> inBrackets g.expr
  expect ";"
  let update ← if ← isPunct ")" then pure none else some <$> inBrackets g.expr
  expect ")"
  let body ← loopBody g
  return .for (← spanFrom start) head test update body

/-! ## Jumps and labels -/

/-- The label of a jump on the same line. -/
def jumpLabel : Parse (Option Ident) := do
  if ← isSemicolon then return none else return some (← name)

/-- `break`. -/
def breakStmt (start : Nat) : Parse Stmt := do
  expectWord "break"
  let label ← jumpLabel
  semicolon
  let span ← spanFrom start
  let ctx ← read
  match label with
  | none => if !ctx.canBreak then report span (.misplaced "break")
  | some id => if !ctx.labels.contains id.name then report id.span (.misplaced "This label")
  return .break span label

/-- `continue`. -/
def continueStmt (start : Nat) : Parse Stmt := do
  expectWord "continue"
  let label ← jumpLabel
  semicolon
  let span ← spanFrom start
  let ctx ← read
  if !ctx.canContinue then report span (.misplaced "continue")
  if let some id := label then
    if !ctx.labels.contains id.name then report id.span (.misplaced "This label")
  return .continue span label

/-- `return`. -/
def returnStmt (g : Grammar) (start : Nat) : Parse Stmt := do
  let span ← tokenSpan
  expectWord "return"
  if !(← read).inFunction then report span (.misplaced "return")
  let arg ← if ← isSemicolon then pure none else some <$> inBrackets g.expr
  semicolon
  return .return (← spanFrom start) arg

/-- `throw`. -/
def throwStmt (g : Grammar) (start : Nat) : Parse Stmt := do
  expectWord "throw"
  if ← newlineBefore then fault (← tokenSpan) (.misplaced "A line end after throw")
  let e ← inBrackets g.expr
  semicolon
  return .throw (← spanFrom start) e

/-- A statement with a label. -/
def labeledStmt (g : Grammar) (start : Nat) : Parse Stmt := do
  let label ← name
  expect ":"
  if (← read).labels.contains label.name then report label.span (.misplaced "This label again")
  let body ← withReader (fun ctx => { ctx with labels := label.name :: ctx.labels }) (g.stmt false)
  return .labeled (← spanFrom start) label body

/-! ## Statements -/

/-- An expression as a statement. -/
def exprStmt (g : Grammar) (start : Nat) : Parse Stmt := do
  let e ← inBrackets g.expr
  semicolon
  return .expr (← spanFrom start) e

/-- A decorated class as a statement. -/
def decoratedClass (g : Grammar) (start : Nat) : Parse Stmt := do
  let _ ← decorators g
  let classStart ← here
  if (← typed) && (← isWord "abstract") then
    advance
    classDecl g classStart
  else if (← typed) && (← isWord "declare") then
    advance
    let _ ← eatWord "abstract"
    withReader (fun ctx => { ctx with inDeclare := true }) (classDecl g classStart)
  else classDecl g start

/-- A statement that starts with a name. -/
def nameStmt (g : Grammar) (isItem : Bool) (start : Nat) : Parse Stmt := do
  if isItem then
    if ← isUsing then return ← usingStmt g
    if let some s ← typedOrDeclared? g then return s
  if (← isName) && (← nextToken) == .punct ":" then labeledStmt g start else exprStmt g start

/-- A declaration stands where only a statement can. -/
def noDeclaration {α : Type} : Parse α := do
  fault (← tokenSpan) (.misplaced "A declaration")

/-- A statement that starts with a keyword, or another word. -/
def wordStmt (g : Grammar) (isItem : Bool) (start : Nat) (w : String) : Parse Stmt := do
  match w with
  | "var" => varStmt g start false
  | "const" =>
    if (← typed) && (← nextToken) == .word "enum" false then nameStmt g isItem start
    else if isItem then varStmt g start false else noDeclaration
  | "let" => if isItem then varStmt g start false else noDeclaration
  | "function" => if isItem then functionDecl g else noDeclaration
  | "class" => if isItem then classDecl g start else noDeclaration
  | "async" =>
    if (← nextOnLine) == some (.word "function" false) then
      if isItem then functionDecl g else noDeclaration
    else nameStmt g isItem start
  | "if" => ifStmt g start
  | "switch" => switchStmt g start
  | "try" => tryStmt g start
  | "while" => whileStmt g start
  | "do" => doStmt g start
  | "for" => forStmt g start
  | "break" => breakStmt start
  | "continue" => continueStmt start
  | "return" => returnStmt g start
  | "throw" => throwStmt g start
  | "with" => fault (← tokenSpan) (.misplaced "with")
  | "debugger" =>
    advance
    semicolon
    return .debugger (← spanFrom start)
  | _ => nameStmt g isItem start

/-- A statement. -/
def statement (g : Grammar) (isItem : Bool) : Parse Stmt := do
  let start ← here
  match ← token with
  | .punct "\x7b" =>
    let body ← blockBody g
    return .block (← spanFrom start) body
  | .punct ";" =>
    advance
    return .empty (← spanFrom start)
  | .punct "@" => if isItem then decoratedClass g start else noDeclaration
  | .word w false => wordStmt g isItem start w
  | _ =>
    if (← isName) && (← nextToken) == .punct ":" then labeledStmt g start else exprStmt g start

end ScriptSetup.Script.Parse
