import ScriptSetup.Setup.Written

/-!
# Code in its converted form

Writes expressions, patterns and statements. An access through `this` becomes the binding it
names; binary expressions and sequences carry their own parentheses; whatever has no converted
form becomes a placeholder. `level` is the indentation of the line on which the text starts;
the first line itself is placed by whoever writes it.
-/

set_option autoImplicit false

namespace ScriptSetup.Setup

open Script Written Text

/-! ## Pieces of text -/

/-- Objects whose properties fit stay on one line up to this width. -/
def inlineObjectWidth : Nat := 60

/-- The number of bytes of a text. -/
def textWidth (text : String) : Nat := byteLength text.toList

/-- An object from its properties: on one line, or one line for each. -/
def objectText (level : Nat) (props : List String) : String :=
  if props.isEmpty then "\x7b\x7d"
  else if (props.map (textWidth · + 2)).foldr (· + ·) 0 ≤ inlineObjectWidth &&
      props.all (!isMultiline ·) then
    "\x7b " ++ join ", " props ++ " \x7d"
  else
    "\x7b\n" ++ join "\n" (props.map fun p => pad (level + 1) ++ p ++ ",") ++ "\n" ++ pad level
      ++ "\x7d"

/-- A block from its statements. -/
def blockText (level : Nat) (lines : List String) : String :=
  if lines.isEmpty then "\x7b\x7d"
  else "\x7b\n" ++ join "\n" (lines.map (pad (level + 1) ++ ·)) ++ "\n" ++ pad level ++ "\x7d"

/-- A template from its chunks and the expressions between them. -/
def templateText : List String → List String → String
  | [], _ => ""
  | chunk :: chunks, [] => chunk ++ templateText chunks []
  | chunk :: chunks, e :: es => chunk ++ "$\x7b" ++ e ++ "\x7d" ++ templateText chunks es

/-- An operator before an operand. Two signs of one kind would be another operator, so a space
keeps them apart. -/
def unaryText (op : UnaryOp) (arg : String) : String :=
  match op with
  | .typeOf | .void | .delete => op.text ++ " " ++ arg
  | .minus | .plus => if startsWith op.text arg then op.text ++ " " ++ arg else op.text ++ arg
  | .not | .bitNot => op.text ++ arg

/-- An object pattern from its properties. -/
def patternText (props : List String) : String :=
  if props.isEmpty then "\x7b\x7d" else "\x7b " ++ join ", " props ++ " \x7d"

/-- `async ` where it applies. -/
def asyncText (isAsync : Bool) : String := if isAsync then "async " else ""

/-- `*` where it applies. -/
def starText (isGenerator : Bool) : String := if isGenerator then "*" else ""

/-- An expression that carries its own parentheses. -/
def carriesParens : Expr → Bool
  | .binary _ _ _ _ | .seq _ _ => true
  | _ => false

/-- An object literal. -/
def isObject : Expr → Bool
  | .object _ _ => true
  | _ => false

/-- An expression other than one in parentheses that is written as an assignment target. -/
def isWritableTarget : Expr → Bool
  | .member _ _ _ | .chainMember _ _ _ _ | .chainCall _ _ _ _ _ | .asType _ _ _
  | .nonNull _ _ => true
  | _ => false

/-- A block. -/
def isBlock : Stmt → Bool
  | .block _ _ => true
  | _ => false

/-- A name that is bound, with its type. -/
def boundText (s : Scope) (id : Ident) (isOptional : Bool) (type : Option TypeText) : String :=
  id.name ++ (if isOptional then "?" else "") ++ s.typeAnn type

/-- The parts of a function, from its type parameters on, with `gap` before its body. -/
def functionText (s : Scope) (gap : String) (f : Func) (params : List String) (body : String) :
    String :=
  s.typeList f.typeParams ++ "(" ++ join ", " params ++ ")" ++ s.typeAnn f.returnType ++ gap
    ++ body

/-! ## Trees -/

mutual

/-- An expression. -/
def exprText (s : Scope) (level : Nat) : Expr → Written String
  | .this span => unsupportedExpr "bare `this`" span
  | .ident id => of id.name
  | .string lit => of lit.raw
  | .number _ raw | .bigint _ raw => of raw
  | .bool _ b => of (if b then "true" else "false")
  | .null _ => of "null"
  | .regex _ pattern flags => of ("/" ++ pattern ++ "/" ++ flags)
  | .template _ chunks es => do
    let es ← exprTexts s level es
    return "`" ++ templateText chunks es ++ "`"
  | .taggedTemplate span _ _ _ => unsupportedExpr "tagged template" span
  | .hole => of ""
  | .spread _ e => do return "..." ++ (← exprText s level e)
  | .array _ es => do return "[" ++ join ", " (← exprTexts s level es) ++ "]"
  | .object _ props => do return objectText level (← propertyTexts s (level + 1) props)
  | .func name f => do
    let text ← funcText s " " level f
    let name := match name with
      | some id => " " ++ id.name
      | none => ""
    return asyncText f.isAsync ++ "function" ++ starText f.isGenerator ++ name ++ text
  | .classExpr _ span => unsupportedExpr "class expression" span
  | .arrow _ isAsync tps ps r b => do
    let ps ← patTexts s level ps
    let b ← blockLines s (level + 1) b
    return asyncText isAsync ++ s.typeList tps ++ "(" ++ join ", " ps ++ ")" ++ s.typeAnn r
      ++ " => " ++ blockText level b
  | .arrowExpr _ isAsync tps ps r e => do
    let ps ← patTexts s level ps
    let b ← exprText s level e
    return asyncText isAsync ++ s.typeList tps ++ "(" ++ join ", " ps ++ ")" ++ s.typeAnn r
      ++ " => " ++ (if isObject e then "(" ++ b ++ ")" else b)
  | .unary _ op e => do return unaryText op (← exprText s level e)
  | .update _ op isBefore e => do
    let e ← exprText s level e
    return if isBefore then op.text ++ e else e ++ op.text
  | .binary _ op l r => do
    let l ← exprText s level l
    let r ← exprText s level r
    return "(" ++ l ++ " " ++ op.text ++ " " ++ r ++ ")"
  | .assign _ op target value => do
    let target ← targetText s level target
    let value ← exprText s level value
    return target ++ " " ++ op.text ++ " " ++ value
  | .cond _ test yes no => do
    let test ← exprText s level test
    let yes ← exprText s level yes
    let no ← exprText s level no
    return test ++ " ? " ++ yes ++ " : " ++ no
  | .seq _ es => do return "(" ++ join ", " (← exprTexts s level es) ++ ")"
  | .paren _ e => do
    let text ← exprText s level e
    return if carriesParens e then text else "(" ++ text ++ ")"
  | .member span obj key =>
    match isThis obj, isTemplateRefs obj, accessName? key with
    | true, _, some name => of (s.selfAccess name)
    | true, _, none => unsupportedExpr "dynamic `this` access" span
    | false, true, some name => s.templateRef name
    | _, _, _ => do
      let obj ← exprText s level obj
      let link ← accessText s level key
      return obj ++ link
  | .superMember span _ => unsupportedExpr "`super` property access" span
  | .call _ callee types args => do
    let callee ← exprText s level callee
    let args ← exprTexts s level args
    return callee ++ s.typeList types ++ "(" ++ join ", " args ++ ")"
  | .superCall _ superSpan _ _ => unsupportedExpr "`super` call" superSpan
  | .importCall _ args => do return "import(" ++ join ", " (← exprTexts s level args) ++ ")"
  | .new _ callee args => do
    let callee ← exprText s level callee
    let args ← exprTexts s level args
    return "new " ++ callee ++ "(" ++ join ", " args ++ ")"
  | .chainMember _ isOptional obj key => do
    let obj ← exprText s level obj
    let link ← chainLinkText s level isOptional key
    return obj ++ link
  | .chainCall _ isOptional callee types args => do
    let callee ← exprText s level callee
    let args ← exprTexts s level args
    return callee ++ (if isOptional then "?." else "") ++ s.typeList types ++ "("
      ++ join ", " args ++ ")"
  | .yield _ _ none => of "yield"
  | .yield _ delegate (some e) => do
    return "yield" ++ starText delegate ++ " " ++ (← exprText s level e)
  | .await _ e => do return "await " ++ (← exprText s level e)
  | .metaProperty _ .newTarget => of "new.target"
  | .metaProperty _ .importMeta => of "import.meta"
  | .privateName id => unsupportedExpr "private name" id.span
  | .typeAssertion _ t e => do return "<" ++ s.typeText t ++ ">" ++ (← exprText s level e)
  | .constAssertion _ e => do return (← exprText s level e) ++ " as const"
  | .asType _ e t => do return (← exprText s level e) ++ " as " ++ s.typeText t
  | .satisfiesType _ e t => do return (← exprText s level e) ++ " satisfies " ++ s.typeText t
  | .nonNull _ e => do return (← exprText s level e) ++ "!"
  | .instantiation _ e t => do return (← exprText s level e) ++ s.typeList (some t)
  | .jsx span _ => unsupportedExpr "JSX" span

/-- Expressions in order. -/
def exprTexts (s : Scope) (level : Nat) : List Expr → Written (List String)
  | [] => of []
  | e :: es => do
    let e ← exprText s level e
    let es ← exprTexts s level es
    return e :: es

/-- An access to a property, without its object. -/
def accessText (s : Scope) (level : Nat) : Key → Written String
  | .ident id => of ("." ++ id.name)
  | .computed _ e => do return "[" ++ (← exprText s level e) ++ "]"
  | .privateName id => of (".#" ++ id.name)
  | .string lit => of ("." ++ lit.raw)
  | .number _ raw | .bigint _ raw => of ("." ++ raw)

/-- An access in an optional chain, without its object. -/
def chainLinkText (s : Scope) (level : Nat) (isOptional : Bool) : Key → Written String
  | .ident id => of ((if isOptional then "?." else ".") ++ id.name)
  | .computed _ e => do
    return (if isOptional then "?." else "") ++ "[" ++ (← exprText s level e) ++ "]"
  | .privateName id => of ((if isOptional then "?." else "") ++ ".#" ++ id.name)
  | .string lit => of ("." ++ lit.raw)
  | .number _ raw | .bigint _ raw => of ("." ++ raw)

/-- The name of a property in a literal or pattern. -/
def keyText (s : Scope) (level : Nat) : Key → Written String
  | .ident id => of id.name
  | .string lit => of lit.raw
  | .number _ raw | .bigint _ raw => of raw
  | .computed _ e => do return "[" ++ (← exprText s level e) ++ "]"
  | .privateName id => of ("#" ++ id.name)

/-- A property of an object. -/
def propertyText (s : Scope) (level : Nat) : Property → Written String
  | .spread _ e => do return "..." ++ (← exprText s level e)
  | .shorthand id => of id.name
  | .keyValue key value => do
    let key ← keyText s level key
    let value ← exprText s level value
    return key ++ ": " ++ value
  | .initialized id value => do return id.name ++ " = " ++ (← exprText s level value)
  | .getter _ key type body => do
    let key ← keyText s level key
    let body ← blockLines s (level + 1) body
    return "get " ++ key ++ "()" ++ s.typeAnn type ++ " " ++ blockText level body
  | .setter _ key param body => do
    let key ← keyText s level key
    let param ← patText s level param
    let body ← blockLines s (level + 1) body
    return "set " ++ key ++ "(" ++ param ++ ") " ++ blockText level body
  | .method _ key f => do
    let key ← keyText s level key
    let text ← funcText s " " level f
    return asyncText f.isAsync ++ starText f.isGenerator ++ key ++ text

/-- Properties in order. -/
def propertyTexts (s : Scope) (level : Nat) : List Property → Written (List String)
  | [] => of []
  | p :: ps => do
    let p ← propertyText s level p
    let ps ← propertyTexts s level ps
    return p :: ps

/-- A function from its type parameters on, with `gap` before its body. A signature without a
body gets an empty one. -/
def funcText (s : Scope) (gap : String) (level : Nat) : Func → Written String
  | .mk span isAsync isGenerator tps params result hasBody body => do
    let ps ← patTexts s level params
    let lines ← blockLines s (level + 1) body
    return functionText s gap (.mk span isAsync isGenerator tps params result hasBody body) ps
      (blockText level lines)

/-- A pattern. -/
def patText (s : Scope) (level : Nat) : Pat → Written String
  | .hole => of ""
  | .ident id isOptional type => of (boundText s id isOptional type)
  | .array _ es type => do
    return "[" ++ join ", " (← patTexts s level es) ++ "]" ++ s.typeAnn type
  | .object _ ps type => do return patternText (← patPropertyTexts s level ps) ++ s.typeAnn type
  | .rest _ arg type => do return "..." ++ (← patText s level arg) ++ s.typeAnn type
  | .withDefault _ left right => do
    let left ← patText s level left
    let right ← exprText s level right
    return left ++ " = " ++ right
  | .expr e => exprText s level e

/-- The target of an assignment. -/
def targetText (s : Scope) (level : Nat) : Pat → Written String
  | .ident id isOptional type => of (boundText s id isOptional type)
  | .array _ es type => do
    return "[" ++ join ", " (← patTexts s level es) ++ "]" ++ s.typeAnn type
  | .object _ ps type => do return patternText (← patPropertyTexts s level ps) ++ s.typeAnn type
  | .expr (.paren _ inner) => do return "(" ++ (← exprText s level inner) ++ ")"
  | .expr e =>
    if isWritableTarget e then exprText s level e else unsupportedExpr "assignment target" e.span
  | .hole | .rest _ _ _ | .withDefault _ _ _ => of ""

/-- Patterns in order. -/
def patTexts (s : Scope) (level : Nat) : List Pat → Written (List String)
  | [] => of []
  | p :: ps => do
    let p ← patText s level p
    let ps ← patTexts s level ps
    return p :: ps

/-- A property of an object pattern. -/
def patPropertyText (s : Scope) (level : Nat) : PatProperty → Written String
  | .keyValue key value => do
    let key ← keyText s level key
    let value ← patText s level value
    return key ++ ": " ++ value
  | .shorthand _ id none => of id.name
  | .shorthand _ id (some e) => do return id.name ++ " = " ++ (← exprText s level e)
  | .rest _ arg => do return "..." ++ (← patText s level arg)

/-- Properties of an object pattern in order. -/
def patPropertyTexts (s : Scope) (level : Nat) : List PatProperty → Written (List String)
  | [] => of []
  | p :: ps => do
    let p ← patPropertyText s level p
    let ps ← patPropertyTexts s level ps
    return p :: ps

/-- A statement. -/
def stmtText (s : Scope) (level : Nat) : Stmt → Written String
  | .block _ body => do return blockText level (← blockLines s (level + 1) body)
  | .empty _ => of ";"
  | .debugger _ => of "debugger;"
  | .return _ e => do return "return" ++ (← optionText s level e) ++ ";"
  | .labeled _ label body => do return label.name ++ ": " ++ (← stmtText s level body)
  | .break _ none => of "break;"
  | .break _ (some label) => of ("break " ++ label.name ++ ";")
  | .continue _ none => of "continue;"
  | .continue _ (some label) => of ("continue " ++ label.name ++ ";")
  | .ifThen _ test yes => do
    let test ← exprText s level test
    let yes ← stmtText s level yes
    return "if (" ++ test ++ ") " ++ yes
  | .ifElse _ test yes no => do
    let test ← exprText s level test
    let yesText ← stmtText s level yes
    let noText ← stmtText s level no
    let gap := if isBlock yes then " " else "\n" ++ pad level
    return "if (" ++ test ++ ") " ++ yesText ++ gap ++ "else " ++ noText
  | .switch _ subject cases => do
    let subject ← exprText s level subject
    let cases ← caseTexts s level cases
    return "switch (" ++ subject ++ ") \x7b\n" ++ cases ++ pad level ++ "\x7d"
  | .throw _ e => do return "throw " ++ (← exprText s level e) ++ ";"
  | .tryCatch _ body param handler => do
    let body ← blockLines s (level + 1) body
    let head ← catchText s level param
    let handler ← blockLines s (level + 1) handler
    return "try " ++ blockText level body ++ head ++ blockText level handler
  | .tryFinally _ body finalizer => do
    let body ← blockLines s (level + 1) body
    let finalizer ← blockLines s (level + 1) finalizer
    return "try " ++ blockText level body ++ " finally " ++ blockText level finalizer
  | .tryCatchFinally _ body param handler finalizer => do
    let body ← blockLines s (level + 1) body
    let head ← catchText s level param
    let handler ← blockLines s (level + 1) handler
    let finalizer ← blockLines s (level + 1) finalizer
    return "try " ++ blockText level body ++ head ++ blockText level handler ++ " finally "
      ++ blockText level finalizer
  | .while _ test body => do
    let test ← exprText s level test
    let body ← stmtText s level body
    return "while (" ++ test ++ ") " ++ body
  | .doWhile _ body test => do
    let body ← stmtText s level body
    let test ← exprText s level test
    return "do " ++ body ++ " while (" ++ test ++ ");"
  | .for _ init test update body => do
    let init ← headText s level init
    let test ← optionText s level test
    let update ← optionText s level update
    let body ← stmtText s level body
    return "for (" ++ init ++ ";" ++ test ++ ";" ++ update ++ ") " ++ body
  | .forIn _ left right body => do
    let left ← headText s level left
    let right ← exprText s level right
    let body ← stmtText s level body
    return "for (" ++ left ++ " in " ++ right ++ ") " ++ body
  | .forOf _ isAwait left right body => do
    let left ← headText s level left
    let right ← exprText s level right
    let body ← stmtText s level body
    return "for" ++ (if isAwait then " await" else "") ++ " (" ++ left ++ " of " ++ right ++ ") "
      ++ body
  | .expr _ e => do return (← exprText s level e) ++ ";"
  | .withObject span _ _ => unsupportedStmt "`with` statement" span
  | .varDecl _ isDeclare kind ds => do
    let ds ← patTexts s level ds
    return (if isDeclare then "declare " else "") ++ kind.text ++ " " ++ join ", " ds ++ ";"
  | .funcDecl name f => do
    let text ← funcText s " " level f
    return asyncText f.isAsync ++ "function" ++ starText f.isGenerator ++ " " ++ name.name ++ text
  | .classDecl _ span => unsupportedStmt "class declaration" span
  | .usingDecl span _ => unsupportedStmt "`using` declaration" span
  | .typeDecl _ span _ =>
    match s.verbatim span with
    | some text => of text
    | none => unsupportedStmt "type declaration" span

/-- The statements of a block in order, without those that do nothing. -/
def blockLines (s : Scope) (level : Nat) : List Stmt → Written (List String)
  | [] => of []
  | .empty _ :: rest => blockLines s level rest
  | stmt :: rest => do
    let line ← stmtText s level stmt
    let lines ← blockLines s level rest
    return line :: lines

/-- An expression with a space before it, or nothing. -/
def optionText (s : Scope) (level : Nat) : Option Expr → Written String
  | none => of ""
  | some e => do return " " ++ (← exprText s level e)

/-- A `catch` with what it binds, if anything. -/
def catchText (s : Scope) (level : Nat) : Option Pat → Written String
  | none => of " catch "
  | some param => do return " catch (" ++ (← patText s level param) ++ ") "

/-- The cases of a `switch`, each line of them ended. -/
def caseTexts (s : Scope) (level : Nat) : List Case → Written String
  | [] => of ""
  | .mk none body :: rest => do
    let lines ← caseLines s (level + 2) body
    let rest ← caseTexts s level rest
    return pad (level + 1) ++ "default:\n" ++ lines ++ rest
  | .mk (some test) body :: rest => do
    let test ← exprText s (level + 1) test
    let lines ← caseLines s (level + 2) body
    let rest ← caseTexts s level rest
    return pad (level + 1) ++ "case " ++ test ++ ":\n" ++ lines ++ rest

/-- The statements of a `case`, each line of them ended. -/
def caseLines (s : Scope) (level : Nat) : List Stmt → Written String
  | [] => of ""
  | stmt :: rest => do
    let line ← stmtText s level stmt
    let rest ← caseLines s level rest
    return pad level ++ line ++ "\n" ++ rest

/-- What stands first in the head of a `for`. -/
def headText (s : Scope) (level : Nat) : ForHead → Written String
  | .none => of ""
  | .varDecl _ kind ds => do return kind.text ++ " " ++ join ", " (← patTexts s level ds)
  | .usingDecl span _ => unsupportedExpr "`using` declaration" span
  | .pat p => patText s level p

end

/-- The declaration of a function. -/
def functionDecl (s : Scope) (level : Nat) (name : String) (f : Func) : Written String := do
  let text ← funcText s " " level f
  return asyncText f.isAsync ++ "function" ++ starText f.isGenerator ++ " " ++ name ++ text

/-- A function as an arrow function. -/
def arrowFunction (s : Scope) (level : Nat) (f : Func) : Written String := do
  let text ← funcText s " => " level f
  return asyncText f.isAsync ++ text

end ScriptSetup.Setup
