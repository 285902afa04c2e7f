import ScriptSetup.Proofs.Script.Words
import ScriptSetup.Script.ModuleTree

/-!
# The nodes of a tree

All expressions and types of a tree, in the order in which they stand. What every node of a module
satisfies, every node of its parts does.
-/

set_option autoImplicit false

namespace ScriptSetup

/-- The span lies within another. -/
def Span.Within (inner outer : Span) : Prop :=
  outer.start ≤ inner.start ∧ inner.stop ≤ outer.stop

theorem Span.Within.refl (s : Span) : s.Within s := ⟨Nat.le_refl _, Nat.le_refl _⟩

namespace Script

/-- An expression or a type. -/
inductive Node where
  | expr (e : Expr)
  | type (t : TypeText)

/-- A word that is not reserved. -/
structure FreeWord (w : String) : Prop where
  fits : nameFits w = true
  reserved : reservedWords.contains w = false
  strict : strictReservedWords.contains w = false

/-- The name is a word that is not reserved. -/
class Ident.IsFree (id : Ident) : Prop where
  out : FreeWord id.name

mutual

/-- What the types of trees do not say: the name of a value is no reserved word, literals start as
such, a template has one more chunk than expressions, and the word `super` stands within the call it
is part of. What an operator, an access, a call or a type is applied to is not missing. -/
def Expr.Sound : Expr → Prop
  | .ident id => id.IsFree
  | .number _ raw | .bigint _ raw | .string ⟨_, _, raw⟩ => literalFits raw = true
  | .superCall span superSpan _ _ => superSpan.Within span
  | .template _ chunks es => chunks.length = es.length + 1
  | .spread _ e | .unary _ _ e | .update _ _ _ e | .cond _ e _ _ | .member _ e _ | .call _ e _ _
  | .chainMember _ _ e _ | .chainCall _ _ e _ _ | .constAssertion _ e | .asType _ e _
  | .satisfiesType _ e _ | .nonNull _ e | .instantiation _ e _ => e ≠ .hole ∧ e.Sound
  | .assign _ _ target _ => target.Sound
  | _ => True

/-- The same of what is assigned to. -/
def Pat.Sound : Pat → Prop
  | .ident id _ _ => id.IsFree
  | .expr e => e.Sound
  | _ => True

end

/-- Expressions are what they have to be. -/
def Node.WellFormed : Node → Prop
  | .expr e => e.Sound
  | .type _ => True

/-- A name, or a pattern that binds several. -/
def Pat.isBinding : Pat → Bool
  | .ident _ _ _ | .array _ _ _ | .object _ _ _ => true
  | _ => false

/-- What can stand as a parameter: a name or a pattern, alone, with a default, or as a rest. -/
def Pat.isParam : Pat → Bool
  | .withDefault _ p _ | .rest _ p _ => p.isBinding
  | p => p.isBinding

/-- A type that may be missing. -/
def typeNodes : Option TypeText → List Node
  | none => []
  | some t => [.type t]

mutual

/-- The nodes of an expression, itself first. -/
def exprNodes (e : Expr) : List Node :=
  .expr e :: match e with
    | .template _ _ es | .array _ es | .seq _ es | .importCall _ es | .jsx _ es => exprsNodes es
    | .taggedTemplate _ tag ts es => exprNodes tag ++ typeNodes ts ++ exprsNodes es
    | .spread _ e | .unary _ _ e | .update _ _ _ e | .paren _ e | .await _ e | .constAssertion _ e
    | .nonNull _ e => exprNodes e
    | .object _ ps => propertiesNodes ps
    | .func _ f => funcNodes f
    | .arrow _ _ tps ps r b => typeNodes tps ++ patsNodes ps ++ typeNodes r ++ stmtsNodes b
    | .arrowExpr _ _ tps ps r e => typeNodes tps ++ patsNodes ps ++ typeNodes r ++ exprNodes e
    | .binary _ _ l r => exprNodes l ++ exprNodes r
    | .assign _ _ t v => patNodes t ++ exprNodes v
    | .cond _ t c a => exprNodes t ++ exprNodes c ++ exprNodes a
    | .member _ o p | .chainMember _ _ o p => exprNodes o ++ keyNodes p
    | .superMember _ p => keyNodes p
    | .call _ c ts as | .chainCall _ _ c ts as => exprNodes c ++ typeNodes ts ++ exprsNodes as
    | .superCall _ _ ts as => typeNodes ts ++ exprsNodes as
    | .new _ c as => exprNodes c ++ exprsNodes as
    | .yield _ _ e => optionNodes e
    | .typeAssertion _ t e | .asType _ e t | .satisfiesType _ e t | .instantiation _ e t =>
      .type t :: exprNodes e
    | .this _ | .ident _ | .string _ | .number _ _ | .bigint _ _ | .bool _ _ | .null _
    | .regex _ _ _ | .hole | .classExpr _ _ | .metaProperty _ _ | .privateName _ => []

/-- The nodes of expressions. -/
def exprsNodes : List Expr → List Node
  | [] => []
  | e :: es => exprNodes e ++ exprsNodes es

/-- The nodes of a key. -/
def keyNodes : Key → List Node
  | .computed _ e => exprNodes e
  | .ident _ | .string _ | .number _ _ | .bigint _ _ | .privateName _ => []

/-- The nodes of a property. -/
def propertyNodes : Property → List Node
  | .spread _ e => exprNodes e
  | .shorthand _ => []
  | .keyValue k v => keyNodes k ++ exprNodes v
  | .initialized _ v => exprNodes v
  | .getter _ k t b => keyNodes k ++ typeNodes t ++ stmtsNodes b
  | .setter _ k p b => keyNodes k ++ patNodes p ++ stmtsNodes b
  | .method _ k f => keyNodes k ++ funcNodes f

/-- The nodes of properties. -/
def propertiesNodes : List Property → List Node
  | [] => []
  | p :: ps => propertyNodes p ++ propertiesNodes ps

/-- The nodes of a function. -/
def funcNodes : Func → List Node
  | .mk _ _ _ tps ps r _ b => typeNodes tps ++ patsNodes ps ++ typeNodes r ++ stmtsNodes b

/-- The nodes of a pattern. -/
def patNodes : Pat → List Node
  | .hole => []
  | .ident _ _ t => typeNodes t
  | .array _ es t => patsNodes es ++ typeNodes t
  | .object _ ps t => patPropertiesNodes ps ++ typeNodes t
  | .rest _ p t => patNodes p ++ typeNodes t
  | .withDefault _ l r => patNodes l ++ exprNodes r
  | .expr e => exprNodes e

/-- The nodes of patterns. -/
def patsNodes : List Pat → List Node
  | [] => []
  | p :: ps => patNodes p ++ patsNodes ps

/-- The nodes of a property of a pattern. -/
def patPropertyNodes : PatProperty → List Node
  | .keyValue k p => keyNodes k ++ patNodes p
  | .shorthand _ _ e => optionNodes e
  | .rest _ p => patNodes p

/-- The nodes of properties of a pattern. -/
def patPropertiesNodes : List PatProperty → List Node
  | [] => []
  | p :: ps => patPropertyNodes p ++ patPropertiesNodes ps

/-- The nodes of a statement. -/
def stmtNodes : Stmt → List Node
  | .block _ b => stmtsNodes b
  | .return _ e => optionNodes e
  | .throw _ e | .expr _ e => exprNodes e
  | .labeled _ _ b => stmtNodes b
  | .ifThen _ t b | .while _ t b | .withObject _ t b => exprNodes t ++ stmtNodes b
  | .ifElse _ t c a => exprNodes t ++ stmtNodes c ++ stmtNodes a
  | .switch _ e cs => exprNodes e ++ casesNodes cs
  | .tryCatch _ b p h => stmtsNodes b ++ paramNodes p ++ stmtsNodes h
  | .tryFinally _ b f => stmtsNodes b ++ stmtsNodes f
  | .tryCatchFinally _ b p h f => stmtsNodes b ++ paramNodes p ++ stmtsNodes h ++ stmtsNodes f
  | .doWhile _ b t => stmtNodes b ++ exprNodes t
  | .for _ i t u b => headNodes i ++ optionNodes t ++ optionNodes u ++ stmtNodes b
  | .forIn _ l r b | .forOf _ _ l r b => headNodes l ++ exprNodes r ++ stmtNodes b
  | .varDecl _ _ _ ds | .usingDecl _ ds => patsNodes ds
  | .funcDecl _ f => funcNodes f
  | .typeDecl _ _ inside => stmtsNodes inside
  | .empty _ | .debugger _ | .break _ _ | .continue _ _ | .classDecl _ _ => []

/-- The nodes of statements. -/
def stmtsNodes : List Stmt → List Node
  | [] => []
  | s :: ss => stmtNodes s ++ stmtsNodes ss

/-- The nodes of an expression that may be missing. -/
def optionNodes : Option Expr → List Node
  | none => []
  | some e => exprNodes e

/-- The nodes of what a `catch` binds. -/
def paramNodes : Option Pat → List Node
  | none => []
  | some p => patNodes p

/-- The nodes of cases. -/
def casesNodes : List Case → List Node
  | [] => []
  | .mk e b :: cs => optionNodes e ++ stmtsNodes b ++ casesNodes cs

/-- The nodes of the head of a loop. -/
def headNodes : ForHead → List Node
  | .none => []
  | .varDecl _ _ ds | .usingDecl _ ds => patsNodes ds
  | .pat p => patNodes p

end

/-- The nodes of decorators. -/
def decoratorsNodes (ds : List Decorator) : List Node :=
  ds.flatMap fun d => exprNodes d.expr

/-- The nodes of a member. -/
def memberNodes : Member → List Node
  | .field _ decorators _ key type value =>
    decoratorsNodes decorators ++ keyNodes key ++ typeNodes type ++ optionNodes value
  | .method _ decorators _ key f paramDecorators =>
    decoratorsNodes decorators ++ keyNodes key ++ funcNodes f
      ++ paramDecorators.flatMap decoratorsNodes
  | .classOnly _ _ _ | .empty => []

/-- The nodes of an item of a module. -/
def itemNodes : ModuleItem → List Node
  | .component c => optionNodes c.superClass ++ c.members.flatMap memberNodes
  | .exportDecl _ decl => stmtNodes decl
  | .stmt stmt => stmtNodes stmt
  | .importDecl _ | .defaultDecl _ | .moduleDecl _ => []

/-- The nodes of a module. -/
def moduleNodes (items : List ModuleItem) : List Node :=
  items.flatMap itemNodes

/-- The parameters of a method. -/
def memberParams : Member → List Pat
  | .method _ _ _ _ f _ => f.params
  | _ => []

/-- The parameters of the methods of a component. -/
def itemParams : ModuleItem → List Pat
  | .component c => c.members.flatMap memberParams
  | _ => []

theorem Expr.mem_exprNodes (e : Expr) : .expr e ∈ exprNodes e := by
  cases e <;> exact List.mem_cons_self

/-! ## Lists -/

/-- What is gathered along a list is gathered from its entries. -/
theorem eq_flatMap_of_cons {α β : Type} {f : α → List β} {g : List α → List β} (hnil : g [] = [])
    (hcons : ∀ a as, g (a :: as) = f a ++ g as) (as : List α) : g as = as.flatMap f := by
  induction as with
  | nil => exact hnil
  | cons a as ih => rw [hcons, ih, List.flatMap_cons]

theorem exprsNodes_eq_flatMap (es : List Expr) : exprsNodes es = es.flatMap exprNodes :=
  eq_flatMap_of_cons rfl (fun _ _ => rfl) es

theorem patsNodes_eq_flatMap (ps : List Pat) : patsNodes ps = ps.flatMap patNodes :=
  eq_flatMap_of_cons rfl (fun _ _ => rfl) ps

theorem propertiesNodes_eq_flatMap (ps : List Property) :
    propertiesNodes ps = ps.flatMap propertyNodes :=
  eq_flatMap_of_cons rfl (fun _ _ => rfl) ps

theorem patPropertiesNodes_eq_flatMap (ps : List PatProperty) :
    patPropertiesNodes ps = ps.flatMap patPropertyNodes :=
  eq_flatMap_of_cons rfl (fun _ _ => rfl) ps

theorem casesNodes_eq_flatMap (cs : List Case) :
    casesNodes cs = cs.flatMap fun c => casesNodes [c] := by
  induction cs with
  | nil => rfl
  | cons c cs ih =>
    obtain ⟨_ | e, body⟩ := c
    · rw [casesNodes, ih, List.flatMap_cons, casesNodes, casesNodes, List.append_nil]
    · rw [casesNodes, ih, List.flatMap_cons, casesNodes, casesNodes, List.append_nil]

theorem stmtsNodes_eq_flatMap (body : List Stmt) : stmtsNodes body = body.flatMap stmtNodes :=
  eq_flatMap_of_cons rfl (fun _ _ => rfl) body

end Script

end ScriptSetup
