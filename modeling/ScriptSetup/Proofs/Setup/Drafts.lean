import ScriptSetup.Setup.Convert

/-!
# Texts with their placeholders marked

A `Draft` is a text before it is laid out, in which each placeholder is still a `Placeholder` that
says what it stands for. `exprDraft` and its companions write trees as the printer does, but leave
the holes open; `Draft.textWith` fills them in, and decides about the layout only then. So a draft
does not depend on what the placeholders look like, and its text does.
-/

set_option autoImplicit false

namespace ScriptSetup.Setup

open Script Component Text

/-! ## Drafts -/

/-- A placeholder, with what it stands for. -/
structure Placeholder where
  /-- what is written there -/
  text : String
  /-- where the construct stands that is missing -/
  construct : Span
  /-- the finding that says so, when there is one -/
  finding : Option Finding
  deriving DecidableEq, Repr, Inhabited

/-- A text before it is laid out. -/
inductive Draft where
  | text (s : String)
  | hole (h : Placeholder)
  | append (a b : Draft)
  /-- an object from its properties -/
  | object (level : Nat) (props : List Draft)
  /-- an operator before an operand -/
  | unary (op : UnaryOp) (arg : Draft)
  /-- lines without those that are a lone semicolon -/
  | hoisted (lines : List Draft)
  /-- something that is not written -/
  | dropped (d : Draft)

instance : Coe String Draft := ⟨.text⟩

instance : Append Draft := ⟨.append⟩

mutual

/-- The text of a draft with these placeholders. -/
def Draft.textWith (fill : Placeholder → String) : Draft → String
  | .text s => s
  | .hole h => fill h
  | .append a b => a.textWith fill ++ b.textWith fill
  | .object level props => objectText level (draftTexts fill props)
  | .unary op arg => unaryText op (arg.textWith fill)
  | .hoisted lines => join "\n" ((draftTexts fill lines).filter (· != ";"))
  | .dropped _ => ""

/-- The texts of drafts with these placeholders. -/
def draftTexts (fill : Placeholder → String) : List Draft → List String
  | [] => []
  | d :: ds => d.textWith fill :: draftTexts fill ds

end

mutual

/-- The holes of a draft, from left to right. -/
def Draft.holes : Draft → List Placeholder
  | .text _ => []
  | .hole h => [h]
  | .append a b => a.holes ++ b.holes
  | .object _ props => draftHoles props
  | .unary _ arg => arg.holes
  | .hoisted lines => draftHoles lines
  | .dropped d => d.holes

/-- The holes of drafts. -/
def draftHoles : List Draft → List Placeholder
  | [] => []
  | d :: ds => d.holes ++ draftHoles ds

end

namespace Draft

/-- The drafts with a separator between each two. -/
def join (sep : String) : List Draft → Draft
  | [] => ""
  | [d] => d
  | d :: e :: rest => d ++ sep ++ join sep (e :: rest)

/-- A placeholder for an expression. -/
def replacedExpr (what : String) (span : Span) : Draft :=
  .hole ⟨exprPlaceholder, span, some ⟨.replacedExpr what, span⟩⟩

/-- A placeholder for a statement. -/
def replacedStmt (what : String) (span : Span) : Draft :=
  .hole ⟨stmtPlaceholder, span, some ⟨.replacedStmt what, span⟩⟩

section

variable (fill : Placeholder → String)

@[simp] theorem textWith_text (s : String) : (Draft.text s).textWith fill = s := rfl

@[simp] theorem textWith_hole (h : Placeholder) : (Draft.hole h).textWith fill = fill h := rfl

@[simp] theorem textWith_append (a b : Draft) :
    (a ++ b).textWith fill = a.textWith fill ++ b.textWith fill := rfl

@[simp] theorem textWith_object (level : Nat) (props : List Draft) :
    (Draft.object level props).textWith fill = objectText level (draftTexts fill props) := rfl

@[simp] theorem textWith_unary (op : UnaryOp) (arg : Draft) :
    (Draft.unary op arg).textWith fill = unaryText op (arg.textWith fill) := rfl

@[simp] theorem textWith_hoisted (lines : List Draft) :
    (Draft.hoisted lines).textWith fill =
      Text.join "\n" ((draftTexts fill lines).filter (· != ";")) := rfl

@[simp] theorem textWith_dropped (d : Draft) : (Draft.dropped d).textWith fill = "" := rfl

@[simp] theorem textWith_join (sep : String) (ds : List Draft) :
    (join sep ds).textWith fill = Text.join sep (draftTexts fill ds) := by
  induction ds with
  | nil => rfl
  | cons d ds ih =>
    cases ds with
    | nil => rfl
    | cons e rest =>
      rw [join, textWith_append, textWith_append, ih]
      rfl

end

@[simp] theorem holes_text (s : String) : (Draft.text s).holes = [] := rfl

@[simp] theorem holes_hole (h : Placeholder) : (Draft.hole h).holes = [h] := rfl

@[simp] theorem holes_append (a b : Draft) : (a ++ b).holes = a.holes ++ b.holes := rfl

@[simp] theorem holes_object (level : Nat) (props : List Draft) :
    (Draft.object level props).holes = draftHoles props := rfl

@[simp] theorem holes_unary (op : UnaryOp) (arg : Draft) :
    (Draft.unary op arg).holes = arg.holes := rfl

@[simp] theorem holes_hoisted (lines : List Draft) :
    (Draft.hoisted lines).holes = draftHoles lines := rfl

@[simp] theorem holes_dropped (d : Draft) : (Draft.dropped d).holes = d.holes := rfl

@[simp] theorem holes_join (sep : String) (ds : List Draft) :
    (join sep ds).holes = draftHoles ds := by
  induction ds with
  | nil => rfl
  | cons d ds ih =>
    cases ds with
    | nil => exact (List.append_nil _).symm
    | cons e rest =>
      rw [join, holes_append, holes_append, ih, holes_text, List.append_nil]
      rfl

end Draft

@[simp] theorem draftTexts_eq_map (fill : Placeholder → String) (ds : List Draft) :
    draftTexts fill ds = ds.map (Draft.textWith fill) := by
  induction ds with
  | nil => rfl
  | cons d ds ih => rw [draftTexts, ih, List.map_cons]

@[simp] theorem draftHoles_eq_flatMap (ds : List Draft) :
    draftHoles ds = ds.flatMap Draft.holes := by
  induction ds with
  | nil => rfl
  | cons d ds ih => rw [draftHoles, ih, List.flatMap_cons]

/-! ## Drafts of pieces -/

/-- A type that is copied. One that cannot be copied is replaced, and nothing says so. -/
def typeDraft (s : Scope) (t : TypeText) : Draft :=
  match s.verbatim t.span with
  | some text => text
  | none => "any " ++ .hole ⟨exprPlaceholder, t.span, none⟩

/-- `: T`, or nothing. -/
def typeAnnDraft (s : Scope) : Option TypeText → Draft
  | some t => ": " ++ typeDraft s t
  | none => ""

/-- A declaration that is copied, or a placeholder for it. -/
def copiedDraft (s : Scope) (what : String) (span : Span) : Draft :=
  match s.verbatim span with
  | some text => text
  | none => .replacedStmt what span

/-- A block from its statements. -/
def blockDraft (level : Nat) (lines : List Draft) : Draft :=
  if lines.isEmpty then "\x7b\x7d"
  else "\x7b\n" ++ Draft.join "\n" (lines.map (pad (level + 1) ++ ·)) ++ "\n" ++ pad level ++ "\x7d"

/-- A template from its chunks and the expressions between them. -/
def templateDraft : List String → List Draft → Draft
  | [], [] => ""
  | [], e :: es => .dropped e ++ templateDraft [] es
  | chunk :: chunks, [] => chunk ++ templateDraft chunks []
  | chunk :: chunks, e :: es => chunk ++ "$\x7b" ++ e ++ "\x7d" ++ templateDraft chunks es

/-- An object pattern from its properties. -/
def patternDraft (props : List Draft) : Draft :=
  if props.isEmpty then "\x7b\x7d" else "\x7b " ++ Draft.join ", " props ++ " \x7d"

/-- A name that is bound, with its type. -/
def boundDraft (s : Scope) (id : Ident) (isOptional : Bool) (type : Option TypeText) : Draft :=
  id.name ++ (if isOptional then "?" else "") ++ typeAnnDraft s type

/-- The parts of a function, from its type parameters on, with `gap` before its body. -/
def functionDraft (s : Scope) (gap : String) (f : Func) (params : List Draft) (body : Draft) :
    Draft :=
  s.typeList f.typeParams ++ "(" ++ Draft.join ", " params ++ ")" ++ typeAnnDraft s f.returnType
    ++ gap ++ body

/-! ## Drafts of trees -/

mutual

/-- An expression. -/
def exprDraft (s : Scope) (level : Nat) : Expr → Draft
  | .this span => .replacedExpr "bare `this`" span
  | .ident id => id.name
  | .string lit => lit.raw
  | .number _ raw | .bigint _ raw => raw
  | .bool _ b => .text (if b then "true" else "false")
  | .null _ => "null"
  | .regex _ pattern flags => "/" ++ pattern ++ "/" ++ flags
  | .template _ chunks es => "`" ++ templateDraft chunks (exprDrafts s level es) ++ "`"
  | .taggedTemplate span _ _ _ => .replacedExpr "tagged template" span
  | .hole => ""
  | .spread _ e => "..." ++ exprDraft s level e
  | .array _ es => "[" ++ Draft.join ", " (exprDrafts s level es) ++ "]"
  | .object _ props => .object level (propertyDrafts s (level + 1) props)
  | .func name f =>
    asyncText f.isAsync ++ "function" ++ starText f.isGenerator
      ++ .text (match name with
        | some id => " " ++ id.name
        | none => "")
      ++ funcDraft s " " level f
  | .classExpr _ span => .replacedExpr "class expression" span
  | .arrow _ isAsync tps ps r b =>
    asyncText isAsync ++ s.typeList tps ++ "(" ++ Draft.join ", " (patDrafts s level ps) ++ ")"
      ++ typeAnnDraft s r ++ " => " ++ blockDraft level (blockDrafts s (level + 1) b)
  | .arrowExpr _ isAsync tps ps r e =>
    asyncText isAsync ++ s.typeList tps ++ "(" ++ Draft.join ", " (patDrafts s level ps) ++ ")"
      ++ typeAnnDraft s r ++ " => "
      ++ (if isObject e then "(" ++ exprDraft s level e ++ ")" else exprDraft s level e)
  | .unary _ op e => .unary op (exprDraft s level e)
  | .update _ op isBefore e =>
    if isBefore then op.text ++ exprDraft s level e else exprDraft s level e ++ op.text
  | .binary _ op l r =>
    "(" ++ exprDraft s level l ++ " " ++ op.text ++ " " ++ exprDraft s level r ++ ")"
  | .assign _ op target value =>
    targetDraft s level target ++ " " ++ op.text ++ " " ++ exprDraft s level value
  | .cond _ test yes no =>
    exprDraft s level test ++ " ? " ++ exprDraft s level yes ++ " : " ++ exprDraft s level no
  | .seq _ es => "(" ++ Draft.join ", " (exprDrafts s level es) ++ ")"
  | .paren _ e =>
    if carriesParens e then exprDraft s level e else "(" ++ exprDraft s level e ++ ")"
  | .member span obj key =>
    match isThis obj, isTemplateRefs obj, accessName? key with
    | true, _, some name => s.selfAccess name
    | true, _, none => .replacedExpr "dynamic `this` access" span
    | false, true, some name => name ++ ".value"
    | _, _, _ => exprDraft s level obj ++ accessDraft s level key
  | .superMember span _ => .replacedExpr "`super` property access" span
  | .call _ callee types args =>
    exprDraft s level callee ++ s.typeList types ++ "("
      ++ Draft.join ", " (exprDrafts s level args) ++ ")"
  | .superCall span superSpan _ _ =>
    .hole ⟨exprPlaceholder, span, some ⟨.replacedExpr "`super` call", superSpan⟩⟩
  | .importCall _ args => "import(" ++ Draft.join ", " (exprDrafts s level args) ++ ")"
  | .new _ callee args =>
    "new " ++ exprDraft s level callee ++ "(" ++ Draft.join ", " (exprDrafts s level args) ++ ")"
  | .chainMember _ isOptional obj key =>
    exprDraft s level obj ++ chainLinkDraft s level isOptional key
  | .chainCall _ isOptional callee types args =>
    exprDraft s level callee ++ (if isOptional then "?." else "") ++ s.typeList types ++ "("
      ++ Draft.join ", " (exprDrafts s level args) ++ ")"
  | .yield _ _ none => "yield"
  | .yield _ delegate (some e) => "yield" ++ starText delegate ++ " " ++ exprDraft s level e
  | .await _ e => "await " ++ exprDraft s level e
  | .metaProperty _ .newTarget => "new.target"
  | .metaProperty _ .importMeta => "import.meta"
  | .privateName id => .replacedExpr "private name" id.span
  | .typeAssertion _ t e => "<" ++ typeDraft s t ++ ">" ++ exprDraft s level e
  | .constAssertion _ e => exprDraft s level e ++ " as const"
  | .asType _ e t => exprDraft s level e ++ " as " ++ typeDraft s t
  | .satisfiesType _ e t => exprDraft s level e ++ " satisfies " ++ typeDraft s t
  | .nonNull _ e => exprDraft s level e ++ "!"
  | .instantiation _ e t => exprDraft s level e ++ s.typeList (some t)
  | .jsx span _ => .replacedExpr "JSX" span

/-- Expressions in order. -/
def exprDrafts (s : Scope) (level : Nat) : List Expr → List Draft
  | [] => []
  | e :: es => exprDraft s level e :: exprDrafts s level es

/-- An access to a property, without its object. -/
def accessDraft (s : Scope) (level : Nat) : Key → Draft
  | .ident id => "." ++ id.name
  | .computed _ e => "[" ++ exprDraft s level e ++ "]"
  | .privateName id => ".#" ++ id.name
  | .string lit => "." ++ lit.raw
  | .number _ raw | .bigint _ raw => "." ++ raw

/-- An access in an optional chain, without its object. -/
def chainLinkDraft (s : Scope) (level : Nat) (isOptional : Bool) : Key → Draft
  | .ident id => (if isOptional then "?." else ".") ++ id.name
  | .computed _ e => (if isOptional then "?." else "") ++ "[" ++ exprDraft s level e ++ "]"
  | .privateName id => (if isOptional then "?." else "") ++ ".#" ++ id.name
  | .string lit => "." ++ lit.raw
  | .number _ raw | .bigint _ raw => "." ++ raw

/-- The name of a property in a literal or pattern. -/
def keyDraft (s : Scope) (level : Nat) : Key → Draft
  | .ident id => id.name
  | .string lit => lit.raw
  | .number _ raw | .bigint _ raw => raw
  | .computed _ e => "[" ++ exprDraft s level e ++ "]"
  | .privateName id => "#" ++ id.name

/-- A property of an object. -/
def propertyDraft (s : Scope) (level : Nat) : Property → Draft
  | .spread _ e => "..." ++ exprDraft s level e
  | .shorthand id => id.name
  | .keyValue key value => keyDraft s level key ++ ": " ++ exprDraft s level value
  | .initialized id value => id.name ++ " = " ++ exprDraft s level value
  | .getter _ key type body =>
    "get " ++ keyDraft s level key ++ "()" ++ typeAnnDraft s type ++ " "
      ++ blockDraft level (blockDrafts s (level + 1) body)
  | .setter _ key param body =>
    "set " ++ keyDraft s level key ++ "(" ++ patDraft s level param ++ ") "
      ++ blockDraft level (blockDrafts s (level + 1) body)
  | .method _ key f =>
    asyncText f.isAsync ++ starText f.isGenerator ++ keyDraft s level key ++ funcDraft s " " level f

/-- Properties in order. -/
def propertyDrafts (s : Scope) (level : Nat) : List Property → List Draft
  | [] => []
  | p :: ps => propertyDraft s level p :: propertyDrafts s level ps

/-- A function from its type parameters on, with `gap` before its body. -/
def funcDraft (s : Scope) (gap : String) (level : Nat) : Func → Draft
  | .mk span isAsync isGenerator tps params result hasBody body =>
    functionDraft s gap (.mk span isAsync isGenerator tps params result hasBody body)
      (patDrafts s level params) (blockDraft level (blockDrafts s (level + 1) body))

/-- A pattern. -/
def patDraft (s : Scope) (level : Nat) : Pat → Draft
  | .hole => ""
  | .ident id isOptional type => boundDraft s id isOptional type
  | .array _ es type =>
    "[" ++ Draft.join ", " (patDrafts s level es) ++ "]" ++ typeAnnDraft s type
  | .object _ ps type => patternDraft (patPropertyDrafts s level ps) ++ typeAnnDraft s type
  | .rest _ arg type => "..." ++ patDraft s level arg ++ typeAnnDraft s type
  | .withDefault _ left right => patDraft s level left ++ " = " ++ exprDraft s level right
  | .expr e => exprDraft s level e

/-- The target of an assignment. -/
def targetDraft (s : Scope) (level : Nat) : Pat → Draft
  | .ident id isOptional type => boundDraft s id isOptional type
  | .array _ es type =>
    "[" ++ Draft.join ", " (patDrafts s level es) ++ "]" ++ typeAnnDraft s type
  | .object _ ps type => patternDraft (patPropertyDrafts s level ps) ++ typeAnnDraft s type
  | .expr (.paren _ inner) => "(" ++ exprDraft s level inner ++ ")"
  | .expr e =>
    if isWritableTarget e then exprDraft s level e else .replacedExpr "assignment target" e.span
  | .hole | .rest _ _ _ | .withDefault _ _ _ => ""

/-- Patterns in order. -/
def patDrafts (s : Scope) (level : Nat) : List Pat → List Draft
  | [] => []
  | p :: ps => patDraft s level p :: patDrafts s level ps

/-- A property of an object pattern. -/
def patPropertyDraft (s : Scope) (level : Nat) : PatProperty → Draft
  | .keyValue key value => keyDraft s level key ++ ": " ++ patDraft s level value
  | .shorthand _ id none => id.name
  | .shorthand _ id (some e) => id.name ++ " = " ++ exprDraft s level e
  | .rest _ arg => "..." ++ patDraft s level arg

/-- Properties of an object pattern in order. -/
def patPropertyDrafts (s : Scope) (level : Nat) : List PatProperty → List Draft
  | [] => []
  | p :: ps => patPropertyDraft s level p :: patPropertyDrafts s level ps

/-- A statement. -/
def stmtDraft (s : Scope) (level : Nat) : Stmt → Draft
  | .block _ body => blockDraft level (blockDrafts s (level + 1) body)
  | .empty _ => ";"
  | .debugger _ => "debugger;"
  | .return _ e => "return" ++ optionDraft s level e ++ ";"
  | .labeled _ label body => label.name ++ ": " ++ stmtDraft s level body
  | .break _ none => "break;"
  | .break _ (some label) => "break " ++ label.name ++ ";"
  | .continue _ none => "continue;"
  | .continue _ (some label) => "continue " ++ label.name ++ ";"
  | .ifThen _ test yes => "if (" ++ exprDraft s level test ++ ") " ++ stmtDraft s level yes
  | .ifElse _ test yes no =>
    "if (" ++ exprDraft s level test ++ ") " ++ stmtDraft s level yes
      ++ (if isBlock yes then " " else "\n" ++ pad level) ++ "else " ++ stmtDraft s level no
  | .switch _ subject cases =>
    "switch (" ++ exprDraft s level subject ++ ") \x7b\n" ++ caseDrafts s level cases ++ pad level
      ++ "\x7d"
  | .throw _ e => "throw " ++ exprDraft s level e ++ ";"
  | .tryCatch _ body param handler =>
    "try " ++ blockDraft level (blockDrafts s (level + 1) body) ++ catchDraft s level param
      ++ blockDraft level (blockDrafts s (level + 1) handler)
  | .tryFinally _ body finalizer =>
    "try " ++ blockDraft level (blockDrafts s (level + 1) body) ++ " finally "
      ++ blockDraft level (blockDrafts s (level + 1) finalizer)
  | .tryCatchFinally _ body param handler finalizer =>
    "try " ++ blockDraft level (blockDrafts s (level + 1) body) ++ catchDraft s level param
      ++ blockDraft level (blockDrafts s (level + 1) handler) ++ " finally "
      ++ blockDraft level (blockDrafts s (level + 1) finalizer)
  | .while _ test body => "while (" ++ exprDraft s level test ++ ") " ++ stmtDraft s level body
  | .doWhile _ body test =>
    "do " ++ stmtDraft s level body ++ " while (" ++ exprDraft s level test ++ ");"
  | .for _ init test update body =>
    "for (" ++ headDraft s level init ++ ";" ++ optionDraft s level test ++ ";"
      ++ optionDraft s level update ++ ") " ++ stmtDraft s level body
  | .forIn _ left right body =>
    "for (" ++ headDraft s level left ++ " in " ++ exprDraft s level right ++ ") "
      ++ stmtDraft s level body
  | .forOf _ isAwait left right body =>
    "for" ++ (if isAwait then " await" else "") ++ " (" ++ headDraft s level left ++ " of "
      ++ exprDraft s level right ++ ") " ++ stmtDraft s level body
  | .expr _ e => exprDraft s level e ++ ";"
  | .withObject span _ _ => .replacedStmt "`with` statement" span
  | .varDecl _ isDeclare kind ds =>
    (if isDeclare then "declare " else "") ++ kind.text ++ " "
      ++ Draft.join ", " (patDrafts s level ds) ++ ";"
  | .funcDecl name f =>
    asyncText f.isAsync ++ "function" ++ starText f.isGenerator ++ " " ++ name.name
      ++ funcDraft s " " level f
  | .classDecl _ span => .replacedStmt "class declaration" span
  | .usingDecl span _ => .replacedStmt "`using` declaration" span
  | .typeDecl _ span _ => copiedDraft s "type declaration" span

/-- The statements of a block in order, without those that do nothing. -/
def blockDrafts (s : Scope) (level : Nat) : List Stmt → List Draft
  | [] => []
  | .empty _ :: rest => blockDrafts s level rest
  | stmt :: rest => stmtDraft s level stmt :: blockDrafts s level rest

/-- An expression with a space before it, or nothing. -/
def optionDraft (s : Scope) (level : Nat) : Option Expr → Draft
  | none => ""
  | some e => " " ++ exprDraft s level e

/-- A `catch` with what it binds, if anything. -/
def catchDraft (s : Scope) (level : Nat) : Option Pat → Draft
  | none => " catch "
  | some param => " catch (" ++ patDraft s level param ++ ") "

/-- The cases of a `switch`, each line of them ended. -/
def caseDrafts (s : Scope) (level : Nat) : List Case → Draft
  | [] => ""
  | .mk none body :: rest =>
    pad (level + 1) ++ "default:\n" ++ caseLineDrafts s (level + 2) body ++ caseDrafts s level rest
  | .mk (some test) body :: rest =>
    pad (level + 1) ++ "case " ++ exprDraft s (level + 1) test ++ ":\n"
      ++ caseLineDrafts s (level + 2) body ++ caseDrafts s level rest

/-- The statements of a `case`, each line of them ended. -/
def caseLineDrafts (s : Scope) (level : Nat) : List Stmt → Draft
  | [] => ""
  | stmt :: rest => pad level ++ stmtDraft s level stmt ++ "\n" ++ caseLineDrafts s level rest

/-- What stands first in the head of a `for`. -/
def headDraft (s : Scope) (level : Nat) : ForHead → Draft
  | .none => ""
  | .varDecl _ kind ds => kind.text ++ " " ++ Draft.join ", " (patDrafts s level ds)
  | .usingDecl span _ => .replacedExpr "`using` declaration" span
  | .pat p => patDraft s level p

end

end ScriptSetup.Setup
