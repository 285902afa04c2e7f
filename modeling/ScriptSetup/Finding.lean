import ScriptSetup.Text.Span

/-!
# Findings

A finding is something a conversion could not carry over by itself, at a place in the source.
What was found decides its code, its severity and its words.
-/

set_option autoImplicit false

namespace ScriptSetup

/-- How much a finding matters. -/
inductive Severity where
  /-- for information; the output needs no work -/
  | hint
  /-- the output holds a placeholder or a reference that needs a look -/
  | warning
  deriving DecidableEq, Repr, Inhabited

/-- The kinds of findings. -/
inductive FindingCode where
  | unsupportedExpression | unsupportedStatement | unsupportedMember | unrecognizedDecorator
  | unresolvedSelfReference | droppedExport | droppedImport
  deriving DecidableEq, Repr, Inhabited

namespace FindingCode

/-- The code as written in reports. -/
def text : FindingCode → String
  | unsupportedExpression => "unsupported-expression"
  | unsupportedStatement => "unsupported-statement"
  | unsupportedMember => "unsupported-member"
  | unrecognizedDecorator => "unrecognized-decorator"
  | unresolvedSelfReference => "unresolved-self-reference"
  | droppedExport => "dropped-export"
  | droppedImport => "dropped-import"

/-- How much findings of this kind matter. -/
def severity : FindingCode → Severity
  | droppedImport => .hint
  | _ => .warning

end FindingCode

/-- What was found. -/
inductive FindingCause where
  /-- an expression of this kind was replaced -/
  | replacedExpr (what : String)
  /-- a statement of this kind was replaced -/
  | replacedStmt (what : String)
  /-- a member of this kind has nothing to become -/
  | noEquivalent (what : String)
  /-- the class builds on mixins -/
  | mixins
  /-- an accessor can only be written -/
  | setterOnly (name : String)
  /-- a decorator was dropped from a member -/
  | droppedDecorator (name member : String)
  /-- `this.name` is not declared by the class -/
  | undeclared (name : String)
  | removedExport
  /-- an import of this module was removed -/
  | removedImport (source : String)
  deriving DecidableEq, Repr, Inhabited

namespace FindingCause

/-- The kind of finding. -/
def code : FindingCause → FindingCode
  | replacedExpr _ => .unsupportedExpression
  | replacedStmt _ => .unsupportedStatement
  | noEquivalent _ | mixins | setterOnly _ => .unsupportedMember
  | droppedDecorator _ _ => .unrecognizedDecorator
  | undeclared _ => .unresolvedSelfReference
  | removedExport => .droppedExport
  | removedImport _ => .droppedImport

/-- The finding in words. -/
def message : FindingCause → String
  | replacedExpr what | replacedStmt what => s!"{what} was replaced by a placeholder"
  | noEquivalent what => s!"{what} has no <script setup> equivalent"
  | mixins => "mixins are not converted; their members must be wired by hand"
  | setterOnly name => s!"computed `{name}` has a setter but no getter"
  | droppedDecorator name member => s!"@{name} on `{member}` was dropped"
  | undeclared name =>
    s!"`this.{name}` is not declared by the class and becomes a bare `{name}`"
  | removedExport => "`export` was removed; <script setup> bindings are not exported"
  | removedImport source => s!"removed import of '{source}'"

end FindingCause

/-- A finding: what was found, and where. -/
structure Finding where
  cause : FindingCause
  span : Span
  deriving DecidableEq, Repr, Inhabited

namespace Finding

/-- The kind of the finding. -/
def code (f : Finding) : FindingCode := f.cause.code

/-- How much the finding matters. -/
def severity (f : Finding) : Severity := f.code.severity

/-- The finding in words. -/
def message (f : Finding) : String := f.cause.message

/-- The same finding in a text where the source starts at `offset`. -/
def shift (f : Finding) (offset : Nat) : Finding :=
  { f with span := f.span.shift offset }

/-- The findings by where they start; findings that start at one place keep their order. -/
def sortByStart (fs : List Finding) : List Finding :=
  fs.mergeSort fun a b => a.span.start ≤ b.span.start

end Finding

end ScriptSetup
