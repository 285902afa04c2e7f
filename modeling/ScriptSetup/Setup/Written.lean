import ScriptSetup.Component.Tables
import ScriptSetup.Text.Quoted

/-!
# Writing with notes

Writing a piece of code gives a value, mostly its text, and two kinds of notes: the template
references that the code uses and the findings about what could not be written. The text never
depends on the notes.

A `Scope` is what writing needs to know: the source, from which types are copied, and the names
of the component's state.
-/

set_option autoImplicit false

namespace ScriptSetup.Setup

open Script

/-- Stands for an expression that could not be converted. -/
def exprPlaceholder : String := "/* TODO: automatic conversion failed */"

/-- Stands for a statement that could not be converted. -/
def stmtPlaceholder : String := "// TODO: automatic conversion failed"

/-! ## Values with notes -/

/-- A value with the notes made while it was written. -/
structure Written (α : Type) where
  value : α
  /-- template references, in the order of their use -/
  templateRefs : List String
  findings : List Finding

namespace Written

/-- A value without notes. -/
def of {α : Type} (value : α) : Written α := ⟨value, [], []⟩

/-- A value and what is written after it. -/
def andThen {α β : Type} (w : Written α) (f : α → Written β) : Written β :=
  let r := f w.value
  ⟨r.value, w.templateRefs ++ r.templateRefs, w.findings ++ r.findings⟩

instance : Monad Written where
  pure := of
  bind := andThen

/-- Values in order, with their notes in order. -/
def all {α β : Type} (f : α → Written β) : List α → Written (List β)
  | [] => of []
  | a :: rest => do
    let b ← f a
    let bs ← all f rest
    return b :: bs

/-- A finding and nothing else. -/
def finding (cause : FindingCause) (span : Span) : Written Unit :=
  ⟨(), [], [⟨cause, span⟩]⟩

/-- A placeholder for an expression, with the finding that says so. -/
def unsupportedExpr (what : String) (span : Span) : Written String :=
  ⟨exprPlaceholder, [], [⟨.replacedExpr what, span⟩]⟩

/-- A placeholder for a statement, with the finding that says so. -/
def unsupportedStmt (what : String) (span : Span) : Written String :=
  ⟨stmtPlaceholder, [], [⟨.replacedStmt what, span⟩]⟩

end Written

/-! ## Scopes -/

/-- What writing needs to know. -/
structure Scope where
  /-- the text of the logic block -/
  source : List Char
  /-- the names of the component's state -/
  reactive : List String

/-- The scope of a logic block. -/
def Scope.ofTables (source : List Char) (t : Component.Tables) : Scope :=
  ⟨source, t.refs.map (·.name)⟩

namespace Scope

/-- The text of a span, copied as written. -/
def verbatim (s : Scope) (span : Span) : Option String :=
  (span.slice? s.source).map String.ofList

/-- Types are copied as written. -/
def typeText (s : Scope) (t : TypeText) : String :=
  (s.verbatim t.span).getD ("any " ++ exprPlaceholder)

/-- `: T`, or nothing. -/
def typeAnn (s : Scope) : Option TypeText → String
  | some t => ": " ++ s.typeText t
  | none => ""

/-- Type arguments or parameters, or nothing. -/
def typeList (s : Scope) : Option TypeText → String
  | some t => (s.verbatim t.span).getD ""
  | none => ""

/-- What `this.name` becomes: the value of the reference that holds the state, or the name. -/
def selfAccess (s : Scope) (name : String) : String :=
  if s.reactive.contains name then name ++ ".value" else name

/-- What `this.$refs.name` becomes. State of the same name is already a binding. -/
def templateRef (s : Scope) (name : String) : Written String :=
  ⟨name ++ ".value", if s.reactive.contains name then [] else [name], []⟩

end Scope

/-- The name in an access `.n` or `['n']`. -/
def accessName? : Key → Option String
  | .ident id => some id.name
  | .computed _ (.string lit) => some lit.value
  | _ => none

/-- `this`. -/
def isThis : Expr → Bool
  | .this _ => true
  | _ => false

/-- `this.$refs`. -/
def isTemplateRefs : Expr → Bool
  | .member _ (.this _) key => accessName? key == some "$refs"
  | _ => false

end ScriptSetup.Setup
