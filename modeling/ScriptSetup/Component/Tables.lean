import ScriptSetup.Component.Decorator
import ScriptSetup.Finding
import ScriptSetup.Text.Lines

/-!
# What a component declares

Each member of the component has a role, and the roles are folded into tables: state, inputs,
accessors, watchers and events each have their own, and everything else stays where it stood.
Nothing is written yet; that needs the tables to be complete, because a member may use one that
comes after it.
-/

set_option autoImplicit false

namespace ScriptSetup.Component

open Script

/-! ## Tables -/

/-- State of the component. -/
structure RefField where
  name : String
  type : Option TypeText
  init : Option Expr

/-- Where the type of an input comes from. -/
inductive InputType where
  | written (type : TypeText)
  | constructors (names : List String)
  | unknown

/-- An input that the parent gives. -/
structure Input where
  name : String
  type : InputType
  required : Bool
  fallback : Option InputDefault

/-- A value that is computed when it is read, written, or both. -/
structure Accessor where
  name : String
  getter : Option Func := none
  setter : Option Func := none

/-- Code that runs when a value changes. -/
structure Watcher where
  target : Expr
  options : Option Expr
  handler : Func

/-- A method whose calls raise an event. -/
structure Event where
  method : String
  event : String
  handler : Func

/-- What stays where it stood. -/
inductive BodyItem where
  /-- a statement beside the component -/
  | stmt (s : Stmt)
  /-- an exported declaration beside the component -/
  | exportDecl (span : Span) (decl : Stmt)
  /-- another import or export beside the component -/
  | moduleDecl (span : Span)
  | field (name : String) (isReadonly : Bool) (type : Option TypeText) (value : Option Expr)
  | method (name : String) (f : Func)
  | lifecycle (hook : String) (f : Func)
  /-- the statements of a method that runs during set-up -/
  | hoisted (body : List Stmt)
  /-- the method of an event, by its number in the table of events -/
  | emit (index : Nat)
  /-- something that was replaced by a placeholder -/
  | unsupported

/-- Everything there is to know about a logic block before it is written. -/
structure Tables where
  imports : List ImportDecl := []
  refs : List RefField := []
  inputs : List Input := []
  accessors : List Accessor := []
  watchers : List Watcher := []
  events : List Event := []
  /-- functions that register lifecycle code, by first use -/
  hooks : List String := []
  /-- the names of all members -/
  declared : List String := []
  body : List BodyItem := []
  findings : List Finding := []

/-! ## Roles -/

/-- The role of a member. -/
inductive Role where
  | ref (field : RefField)
  | input (input : Input)
  | watcher (watcher : Watcher)
  | event (event : Event)
  | lifecycle (hook : String) (f : Func)
  | setupHook (f : Func)
  | getter (name : String) (f : Func)
  | setter (name : String) (f : Func)
  | field (name : String) (isReadonly : Bool) (type : Option TypeText) (value : Option Expr)
  | method (name : String) (f : Func)
  | nothing
  | unsupported (what : String) (span : Span)

/-- The first decorator with a meaning, and a finding for each other one. The text of the source
names a decorator that is not a name. -/
def chooseDecorator (source : List Char) (member : String) (ds : List Decorator) :
    Option (DecoratorKind × DecoratorCall) × List Finding :=
  let step (state : Option (DecoratorKind × DecoratorCall) × List Finding) (d : Decorator) :=
    match state.1, recognized? d with
    | none, some found => (some found, state.2)
    | chosen, _ =>
      let name :=
        match DecoratorCall.of? d with
        | some call => call.name
        | none => String.ofList ((d.expr.span.slice? source).getD [])
      (chosen, state.2 ++ [⟨.droppedDecorator name member, d.span⟩])
  ds.foldl step (none, [])

/-- A fault of a decorator at its place. -/
def malformed {α : Type} (kind : DecoratorKind) (member : String) (call : DecoratorCall)
    (r : Except DecoratorFault α) : Except MalformedDecorator α :=
  r.mapError fun fault => ⟨kind, member, fault, call.span⟩

/-- The type of an input: what is written at the field, else what the decorator says. -/
def inputType (type : Option TypeText) (constructors : Option (List String)) : InputType :=
  match type, constructors with
  | some t, _ => .written t
  | none, some cs => .constructors cs
  | none, none => .unknown

/-- The role of a field with a name. -/
def fieldRole (name : String) (chosen : Option (DecoratorKind × DecoratorCall))
    (isReadonly : Bool) (type : Option TypeText) (value : Option Expr) :
    Except MalformedDecorator Role :=
  match chosen with
  | none => .ok (.field name isReadonly type value)
  | some (.ref, _) => .ok (.ref ⟨name, type, value⟩)
  | some (.prop, call) => do
    let o ← malformed .prop name call (inputOptions call.args)
    return .input ⟨name, inputType type o.constructors, o.required, o.fallback⟩
  | some (kind, call) => malformed kind name call (.error .onlyOnMethods)

/-- The role of a method or accessor with a name. -/
def methodRole (name : String) (chosen : Option (DecoratorKind × DecoratorCall))
    (kind : MethodKind) (f : Func) : Except MalformedDecorator Role :=
  match chosen with
  | some (.watch, call) => do
    let (target, options) ← malformed .watch name call (watchArguments call.args)
    return .watcher ⟨target, options, f⟩
  | some (.emit, call) => do
    let event ← malformed .emit name call (eventName name call.args)
    return .event ⟨name, event, f⟩
  | some (kind, call) => malformed kind name call (.error .onlyOnFields)
  | none =>
    .ok <|
      match kind with
      | .getter => .getter name f
      | .setter => .setter name f
      | .method =>
        match lifecycleTarget? name with
        | some hook => .lifecycle hook f
        | none => if isSetupHook name then .setupHook f else .method name f

/-- The role of a member, and the findings about its decorators. -/
def memberRole (source : List Char) : Member → Except MalformedDecorator (Role × List Finding)
  | .field span decorators isReadonly key type value =>
    match key.staticName? with
    | none => .ok (.unsupported "computed field name" span, [])
    | some name => do
      let (chosen, findings) := chooseDecorator source name decorators
      let role ← fieldRole name chosen isReadonly type value
      return (role, findings)
  | .method span decorators kind key f _ =>
    match key.staticName? with
    | none => .ok (.unsupported "computed method name" span, [])
    | some name => do
      let (chosen, findings) := chooseDecorator source name decorators
      let role ← methodRole name chosen kind f
      return (role, findings)
  | .classOnly what span _ => .ok (.unsupported what.text span, [])
  | .empty => .ok (.nothing, [])

/-! ## Filling the tables -/

/-- Replaces the first entry with the same name, or adds a new one at the end. -/
def upsert {α : Type} (name : α → String) (entry : α) : List α → List α
  | [] => [entry]
  | a :: rest => if name a = name entry then entry :: rest else a :: upsert name entry rest

/-- Changes the accessor of a name, which is added at the end when there is none. -/
def updateAccessor (name : String) (change : Accessor → Accessor) :
    List Accessor → List Accessor
  | [] => [change { name }]
  | a :: rest =>
    if a.name = name then change a :: rest else a :: updateAccessor name change rest

/-- Adds a text at the end unless it is there. -/
def insertNew (name : String) (names : List String) : List String :=
  if names.contains name then names else names ++ [name]

namespace Tables

/-- Leaves a placeholder and says why. -/
def unsupported (t : Tables) (what : String) (span : Span) : Tables :=
  { t with
    findings := t.findings ++ [⟨.noEquivalent what, span⟩]
    body := t.body ++ [.unsupported] }

/-- Folds a role into the tables. -/
def place (t : Tables) : Role → Tables
  | .ref field => { t with refs := upsert (·.name) field t.refs }
  | .input input => { t with inputs := upsert (·.name) input t.inputs }
  | .watcher w => { t with watchers := t.watchers ++ [w] }
  | .event e => { t with body := t.body ++ [.emit t.events.length], events := t.events ++ [e] }
  | .lifecycle hook f =>
    { t with hooks := insertNew hook t.hooks, body := t.body ++ [.lifecycle hook f] }
  | .setupHook f => { t with body := t.body ++ if f.hasBody then [.hoisted f.body] else [] }
  | .getter name f =>
    { t with accessors := updateAccessor name ({ · with getter := some f }) t.accessors }
  | .setter name f =>
    { t with accessors := updateAccessor name ({ · with setter := some f }) t.accessors }
  | .field name isReadonly type value =>
    { t with body := t.body ++ [.field name isReadonly type value] }
  | .method name f => { t with body := t.body ++ [.method name f] }
  | .nothing => t
  | .unsupported what span => t.unsupported what span

/-- Folds a member into the tables. -/
def addMember (source : List Char) (t : Tables) (m : Member) :
    Except MalformedDecorator Tables := do
  let (role, findings) ← memberRole source m
  return { t with findings := t.findings ++ findings }.place role

end Tables

/-- The name of a field or method. -/
def memberName? : Member → Option String
  | .field _ _ _ key _ _ | .method _ _ _ key _ _ => key.staticName?
  | _ => none

/-- The first access to each name. -/
def firstAccesses : List Ident → List Ident
  | [] => []
  | id :: rest => id :: (firstAccesses rest).filter (·.name != id.name)

/-- The accesses to names that no member declares. -/
def undeclaredAccesses (declared : List String) (members : List Member) : List Finding :=
  let accesses := firstAccesses (members.flatMap Member.selfNames)
  (accesses.filter fun id => id.name != "$refs" && !declared.contains id.name).map
    fun id => ⟨.undeclared id.name, id.span⟩

/-- The class builds on the result of a call. -/
def extendsCall (c : Script.Class) : Bool :=
  match c.superClass with
  | some (.call _ _ _ _) | some (.superCall _ _ _ _) | some (.importCall _ _) => true
  | _ => false

namespace Tables

/-- Folds the component into the tables. -/
def addComponent (source : List Char) (t : Tables) (c : Script.Class) :
    Except MalformedDecorator Tables := do
  let findings := if extendsCall c then [⟨.mixins, c.span⟩] else []
  let declared := (c.members.filterMap memberName?).foldl (fun ns n => insertNew n ns) t.declared
  let t ← c.members.foldlM (addMember source)
    { t with findings := t.findings ++ findings, declared }
  return { t with findings := t.findings ++ undeclaredAccesses t.declared c.members }

/-- Folds an import into the tables. An import whose last path segment is denied is dropped. -/
def addImport (denied : List String) (t : Tables) (decl : ImportDecl) : Tables :=
  let source := decl.source.value
  if denied.contains (Text.afterLast '/' source) then
    { t with findings := t.findings ++ [⟨.removedImport source, decl.span⟩] }
  else { t with imports := t.imports ++ [decl] }

/-- Folds an item of the module into the tables. -/
def addItem (source : List Char) (denied : List String) (t : Tables) :
    ModuleItem → Except MalformedDecorator Tables
  | .importDecl decl => .ok (t.addImport denied decl)
  | .component c => t.addComponent source c
  | .defaultDecl span => .ok (t.unsupported "default export" span)
  | .exportDecl span decl => .ok { t with body := t.body ++ [.exportDecl span decl] }
  | .moduleDecl span => .ok { t with body := t.body ++ [.moduleDecl span] }
  | .stmt s => .ok { t with body := t.body ++ [.stmt s] }

/-- The tables of a module. -/
def ofModule (source : List Char) (denied : List String) (items : List ModuleItem) :
    Except MalformedDecorator Tables :=
  items.foldlM (addItem source denied) {}

end Tables

end ScriptSetup.Component
