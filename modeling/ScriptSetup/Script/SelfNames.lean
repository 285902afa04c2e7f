import ScriptSetup.Script.Tree

/-!
# Spans and self accesses of syntax trees

`Expr.span` and `Pat.span` say where a node stands. `Expr.selfNames` and its companions list
the accesses `this.n` inside a node, each with the span of the access, in the order in which
a reader of the tree meets them. A function declaration, a function expression and a class
have a `this` of their own, so nothing inside them is listed; methods of an object literal
are.
-/

set_option autoImplicit false

namespace ScriptSetup.Script

/-! ## Parts of a function -/

namespace Func

/-- Where the function stands. -/
def span : Func → Span
  | mk span _ _ _ _ _ _ _ => span

/-- Marked `async`. -/
def isAsync : Func → Bool
  | mk _ isAsync _ _ _ _ _ _ => isAsync

/-- Marked with `*`. -/
def isGenerator : Func → Bool
  | mk _ _ isGenerator _ _ _ _ _ => isGenerator

/-- The type parameters, angle brackets included. -/
def typeParams : Func → Option TypeText
  | mk _ _ _ typeParams _ _ _ _ => typeParams

/-- The parameters. -/
def params : Func → List Pat
  | mk _ _ _ _ params _ _ _ => params

/-- The type after the parameters. -/
def returnType : Func → Option TypeText
  | mk _ _ _ _ _ returnType _ _ => returnType

/-- A body is written. -/
def hasBody : Func → Bool
  | mk _ _ _ _ _ _ hasBody _ => hasBody

/-- The statements of the body. -/
def body : Func → List Stmt
  | mk _ _ _ _ _ _ _ body => body

end Func

/-! ## Spans -/

/-- Where the key stands. -/
def Key.span : Key → Span
  | .ident id | .privateName id => id.span
  | .string lit => lit.span
  | .number span _ | .bigint span _ | .computed span _ => span

/-- Where the expression stands. An omitted element stands nowhere. -/
def Expr.span : Expr → Span
  | .ident id | .privateName id => id.span
  | .string lit => lit.span
  | .func _ f => f.span
  | .hole => default
  | .this span | .number span _ | .bigint span _ | .bool span _ | .null span | .regex span _ _
  | .template span _ _ | .taggedTemplate span _ _ _ | .spread span _ | .array span _
  | .object span _ | .classExpr _ span | .arrow span _ _ _ _ _ | .arrowExpr span _ _ _ _ _
  | .unary span _ _ | .update span _ _ _ | .binary span _ _ _ | .assign span _ _ _
  | .cond span _ _ _ | .seq span _ | .paren span _ | .member span _ _ | .superMember span _
  | .call span _ _ _ | .superCall span _ _ _ | .importCall span _ | .new span _ _
  | .chainMember span _ _ _ | .chainCall span _ _ _ _ | .yield span _ _ | .await span _
  | .metaProperty span _ | .typeAssertion span _ _ | .constAssertion span _ | .asType span _ _
  | .satisfiesType span _ _ | .nonNull span _ | .instantiation span _ _ | .jsx span _ => span

/-- Where the pattern stands. An omitted element stands nowhere. -/
def Pat.span : Pat → Span
  | .hole => default
  | .ident id _ _ => id.span
  | .array span _ _ | .object span _ _ | .rest span _ _ | .withDefault span _ _ => span
  | .expr e => e.span

/-! ## Self accesses -/

/-- The self accesses inside a type that may be missing. -/
def TypeText.selfNamesOf : Option TypeText → List Ident
  | some t => t.selfNames
  | none => []

/-- The access itself, when `obj.prop` is `this.n`. -/
def selfAccess (span : Span) (obj : Expr) (prop : Key) : List Ident :=
  match obj, prop with
  | .this _, .ident id => [⟨id.name, span⟩]
  | _, _ => []

mutual

/-- The accesses `this.n` inside an expression. -/
def Expr.selfNames : Expr → List Ident
  | .template _ _ es | .array _ es | .seq _ es | .importCall _ es | .jsx _ es => exprsSelfNames es
  | .taggedTemplate _ tag ts es => tag.selfNames ++ TypeText.selfNamesOf ts ++ exprsSelfNames es
  | .spread _ e | .unary _ _ e | .update _ _ _ e | .paren _ e | .await _ e | .constAssertion _ e
  | .nonNull _ e => e.selfNames
  | .object _ ps => propertiesSelfNames ps
  | .arrow _ _ tps ps r b =>
    patsSelfNames ps ++ stmtsSelfNames b ++ TypeText.selfNamesOf tps ++ TypeText.selfNamesOf r
  | .arrowExpr _ _ tps ps r b =>
    patsSelfNames ps ++ b.selfNames ++ TypeText.selfNamesOf tps ++ TypeText.selfNamesOf r
  | .binary _ _ l r => l.selfNames ++ r.selfNames
  | .assign _ _ t v => t.selfNames ++ v.selfNames
  | .cond _ t c a => t.selfNames ++ c.selfNames ++ a.selfNames
  | .member s o p | .chainMember s _ o p => selfAccess s o p ++ o.selfNames ++ p.selfNames
  | .superMember _ p => p.selfNames
  | .call _ c ts as | .chainCall _ _ c ts as =>
    c.selfNames ++ exprsSelfNames as ++ TypeText.selfNamesOf ts
  | .superCall _ _ ts as => exprsSelfNames as ++ TypeText.selfNamesOf ts
  | .new _ c as => c.selfNames ++ exprsSelfNames as
  | .yield _ _ e => optionSelfNames e
  | .typeAssertion _ t e | .asType _ e t | .satisfiesType _ e t | .instantiation _ e t =>
    e.selfNames ++ t.selfNames
  | _ => []

/-- The accesses `this.n` inside a list of expressions. -/
def exprsSelfNames : List Expr → List Ident
  | [] => []
  | e :: es => e.selfNames ++ exprsSelfNames es

/-- The accesses `this.n` inside a key. -/
def Key.selfNames : Key → List Ident
  | .computed _ e => e.selfNames
  | _ => []

/-- The accesses `this.n` inside a property. -/
def Property.selfNames : Property → List Ident
  | .spread _ e | .initialized _ e => e.selfNames
  | .shorthand _ => []
  | .keyValue k v => k.selfNames ++ v.selfNames
  | .getter _ k t b => k.selfNames ++ TypeText.selfNamesOf t ++ stmtsSelfNames b
  | .setter _ k p b => k.selfNames ++ p.selfNames ++ stmtsSelfNames b
  | .method _ k f => k.selfNames ++ f.selfNames

/-- The accesses `this.n` inside a list of properties. -/
def propertiesSelfNames : List Property → List Ident
  | [] => []
  | p :: ps => p.selfNames ++ propertiesSelfNames ps

/-- The accesses `this.n` inside a function that shares its `this` with the code around it. -/
def Func.selfNames : Func → List Ident
  | .mk _ _ _ tps ps r _ b =>
    patsSelfNames ps ++ stmtsSelfNames b ++ TypeText.selfNamesOf tps ++ TypeText.selfNamesOf r

/-- The accesses `this.n` inside a pattern. -/
def Pat.selfNames : Pat → List Ident
  | .hole => []
  | .ident _ _ t => TypeText.selfNamesOf t
  | .array _ es t => patsSelfNames es ++ TypeText.selfNamesOf t
  | .object _ ps t => patPropertiesSelfNames ps ++ TypeText.selfNamesOf t
  | .rest _ p t => p.selfNames ++ TypeText.selfNamesOf t
  | .withDefault _ l r => l.selfNames ++ r.selfNames
  | .expr e => e.selfNames

/-- The accesses `this.n` inside a list of patterns. -/
def patsSelfNames : List Pat → List Ident
  | [] => []
  | p :: ps => p.selfNames ++ patsSelfNames ps

/-- The accesses `this.n` inside a property of a pattern. -/
def PatProperty.selfNames : PatProperty → List Ident
  | .keyValue k p => k.selfNames ++ p.selfNames
  | .shorthand _ _ e => optionSelfNames e
  | .rest _ p => p.selfNames

/-- The accesses `this.n` inside a list of properties of a pattern. -/
def patPropertiesSelfNames : List PatProperty → List Ident
  | [] => []
  | p :: ps => p.selfNames ++ patPropertiesSelfNames ps

/-- The accesses `this.n` inside a statement. The test of a `do` loop is met before its body. -/
def Stmt.selfNames : Stmt → List Ident
  | .block _ b => stmtsSelfNames b
  | .return _ e => optionSelfNames e
  | .throw _ e | .expr _ e => e.selfNames
  | .labeled _ _ b => b.selfNames
  | .ifThen _ t b | .while _ t b | .doWhile _ b t => t.selfNames ++ b.selfNames
  | .ifElse _ t c a => t.selfNames ++ c.selfNames ++ a.selfNames
  | .switch _ e cs => e.selfNames ++ casesSelfNames cs
  | .tryCatch _ b p h => stmtsSelfNames b ++ paramSelfNames p ++ stmtsSelfNames h
  | .tryFinally _ b f => stmtsSelfNames b ++ stmtsSelfNames f
  | .tryCatchFinally _ b p h f =>
    stmtsSelfNames b ++ paramSelfNames p ++ stmtsSelfNames h ++ stmtsSelfNames f
  | .for _ i t u b => i.selfNames ++ optionSelfNames t ++ optionSelfNames u ++ b.selfNames
  | .forIn _ l r b | .forOf _ _ l r b => l.selfNames ++ r.selfNames ++ b.selfNames
  | .withObject _ o b => o.selfNames ++ b.selfNames
  | .varDecl _ _ _ ds | .usingDecl _ ds => patsSelfNames ds
  | .typeDecl _ _ inside => stmtsSelfNames inside
  | _ => []

/-- The accesses `this.n` inside a list of statements. -/
def stmtsSelfNames : List Stmt → List Ident
  | [] => []
  | s :: ss => s.selfNames ++ stmtsSelfNames ss

/-- The accesses `this.n` inside an expression that may be missing. -/
def optionSelfNames : Option Expr → List Ident
  | none => []
  | some e => e.selfNames

/-- The accesses `this.n` inside what a `catch` binds. -/
def paramSelfNames : Option Pat → List Ident
  | none => []
  | some p => p.selfNames

/-- The accesses `this.n` inside a list of cases. -/
def casesSelfNames : List Case → List Ident
  | [] => []
  | .mk e b :: cs => optionSelfNames e ++ stmtsSelfNames b ++ casesSelfNames cs

/-- The accesses `this.n` inside the head of a `for`. -/
def ForHead.selfNames : ForHead → List Ident
  | .none => []
  | .varDecl _ _ ds | .usingDecl _ ds => patsSelfNames ds
  | .pat p => p.selfNames

end

end ScriptSetup.Script
