import ScriptSetup.Script.Grammar.Module
import ScriptSetup.Setup.Document
import ScriptSetup.Setup.Synthesis

/-!
# Converting a logic block

`convertScript` reads the text of a logic block, fills the tables of its component and writes
the document that takes its place, with the findings about it.
-/

set_option autoImplicit false

namespace ScriptSetup.Setup

open Component Written

/-- How a logic block is converted. -/
structure Options where
  /-- the module that the generated import names -/
  framework : String := "vue"
  /-- imports whose last path segment is one of these are dropped -/
  denied : List String := ["vue-property-decorator", "vue-class-component", "VueBase.vue"]
  deriving DecidableEq, Repr, Inhabited

/-- Why a logic block cannot be converted. -/
inductive ScriptError where
  /-- it is not a module -/
  | notModule (fault : Script.Fault)
  /-- a decorator of the component cannot mean anything -/
  | decorator (fault : MalformedDecorator)
  deriving DecidableEq, Repr, Inhabited

namespace ScriptError

/-- The error in words. -/
def message : ScriptError → String
  | notModule fault => "syntax error in logic block: " ++ fault.cause.message
  | decorator fault => fault.message

/-- Where the error is. -/
def span : ScriptError → Span
  | notModule fault | decorator fault => fault.span

/-- The same error in a text where the logic block starts at `offset`. -/
def shift (e : ScriptError) (offset : Nat) : ScriptError :=
  match e with
  | notModule fault => .notModule { fault with span := fault.span.shift offset }
  | decorator fault => .decorator { fault with span := fault.span.shift offset }

end ScriptError

/-- A converted text and the findings about it. -/
structure Converted where
  code : String
  findings : List Finding
  deriving DecidableEq, Repr, Inhabited

/-- The segments that are written from the tables, in the order in which they are written. The
bindings of template references come last, when all uses are known. -/
structure Parts where
  inputs : List String
  events : List String
  watchers : List String
  accessors : List String
  body : List String
  refs : List String

/-- Writes everything but the imports. -/
def writeParts (s : Scope) (t : Tables) : Written Parts := do
  let inputs ← inputDeclarations s t.inputs
  let events ← eventDeclarations s t.events
  let watchers ← all (watchRegistration s) t.watchers
  let accessors ← all (computedBinding s) t.accessors
  let body ← all (bodyText s t.events) t.body
  let refs ← all (refBinding s) t.refs
  return ⟨inputs, events, watchers, accessors.filterMap id, body, refs⟩

/-- The names in order of their first use. -/
def firstUses (names : List String) : List String :=
  names.foldl (fun seen name => insertNew name seen) []

/-- The document of a component. -/
def document (framework : String) (t : Tables) (w : Written Parts) : Document :=
  let parts := w.value
  let templateRefs := firstUses w.templateRefs
  let imports := t.imports.map importText
  let generated := frameworkImport framework (frameworkNames t templateRefs)
  let d := Document.empty
    |>.extend .imports imports
    |>.extend .inputs parts.inputs
    |>.extend .events parts.events
    |>.extend .observers parts.watchers
    |>.extend .computedAccessors parts.accessors
    |>.extend .body parts.body
    |>.extend .reactiveFields (parts.refs ++ templateRefs.map templateRefBinding)
    |>.extend .imports generated.toList
  if imports.isEmpty && generated.isNone then d else d.push .separator ""

/-- The converted form of a component from its tables. -/
def convertTables (source : List Char) (framework : String) (t : Tables) : Converted :=
  let w := writeParts (Scope.ofTables source t) t
  ⟨(document framework t w).render, Finding.sortByStart (t.findings ++ w.findings)⟩

/-- Converts the text of a logic block. -/
def convertScript (source : String) (lang : Script.Lang) (o : Options) :
    Except ScriptError Converted := do
  let items ← (Script.parseModule lang source).mapError .notModule
  let t ← (Tables.ofModule source.toList o.denied items).mapError .decorator
  return convertTables source.toList o.framework t

end ScriptSetup.Setup
