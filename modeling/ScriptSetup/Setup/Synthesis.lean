import ScriptSetup.Setup.Print

/-!
# Declarations from the tables

The parts of the output that no single statement of the source corresponds to: the declarations
of inputs and events, the registrations of watchers, the bindings of computed values and state,
and the import of what these use. Members that stay in place are written here too.
-/

set_option autoImplicit false

namespace ScriptSetup.Setup

open Script Component Written Text

/-! ## Imports -/

/-- A name in another module. -/
def exportNameText : ExportName → String
  | .ident name => name
  | .string value => quote value

/-- A name in the braces of an import. -/
def namedImportText (isType : Bool) (imported : Option ExportName) (binds : String) : String :=
  let type := if isType then "type " else ""
  match imported with
  | none => type ++ binds
  | some name =>
    let name := exportNameText name
    if name == binds then type ++ binds else type ++ name ++ " as " ++ binds

/-- What an import binds outside braces. -/
def importClause? : ImportSpecifier → Option String
  | .default binds => some binds
  | .namespace binds => some ("* as " ++ binds)
  | .named _ _ _ => none

/-- What an import binds in braces. -/
def importName? : ImportSpecifier → Option String
  | .named isType imported binds => some (namedImportText isType imported binds)
  | _ => none

/-- An import. -/
def importText (decl : ImportDecl) : String :=
  let source := quote decl.source.value
  if decl.specifiers.isEmpty then "import " ++ source ++ ";"
  else
    let named := decl.specifiers.filterMap importName?
    let braces := if named.isEmpty then [] else ["\x7b " ++ join ", " named ++ " \x7d"]
    "import " ++ (if decl.isType then "type " else "")
      ++ join ", " (decl.specifiers.filterMap importClause? ++ braces)
      ++ " from " ++ source ++ ";"

/-- The functions of the framework that the output uses, in the order of their import. -/
def frameworkNames (t : Tables) (templateRefs : List String) : List String :=
  (if t.refs.isEmpty && templateRefs.isEmpty then [] else ["ref"])
    ++ (if t.accessors.isEmpty then [] else ["computed"])
    ++ (if t.watchers.isEmpty then [] else ["watch"])
    ++ t.hooks

/-- The import of these functions, when there are any. -/
def frameworkImport (framework : String) (names : List String) : Option String :=
  if names.isEmpty then none
  else some ("import \x7b " ++ join ", " names ++ " \x7d from " ++ quote framework ++ ";")

/-! ## Inputs -/

/-- The type of the values that a constructor makes. -/
def constructorType : String → String
  | "String" => "string"
  | "Number" => "number"
  | "Boolean" => "boolean"
  | "Array" => "any[]"
  | "Object" => "object"
  | "Symbol" => "symbol"
  | "Function" => "(...args: any[]) => any"
  | other => other

/-- The type of an input. -/
def inputTypeText (s : Scope) : InputType → String
  | .written t => s.typeText t
  | .constructors names => join " | " (names.map constructorType)
  | .unknown => "any"

/-- The entry of an input. -/
def inputEntry (s : Scope) (i : Input) : String :=
  pad 1 ++ i.name ++ (if i.required then "" else "?") ++ ": " ++ inputTypeText s i.type ++ ","

/-- The default value of an input, when it has one. -/
def inputFallback (s : Scope) (i : Input) : Written (Option String) :=
  match i.fallback with
  | none => of none
  | some (.value e) => do return some (pad 1 ++ i.name ++ ": " ++ (← exprText s 1 e) ++ ",")
  | some (.factory f) => do
    return some (pad 1 ++ i.name ++ ": " ++ (← arrowFunction s 1 f) ++ ",")

/-- The interface of the inputs and their declaration. -/
def inputDeclarations (s : Scope) (inputs : List Input) : Written (List String) :=
  if inputs.isEmpty then of []
  else do
    let entries := inputs.map (inputEntry s)
    let fallbacks := (← all (inputFallback s) inputs).filterMap id
    let declaration :=
      if fallbacks.isEmpty then "const props = defineProps<Props>();"
      else "const props = withDefaults(defineProps<Props>(), \x7b\n" ++ join "\n" fallbacks
        ++ "\n\x7d);"
    return [join "\n" ("interface Props \x7b" :: entries ++ ["\x7d"]), declaration]

/-! ## Events -/

/-- The call signature of an event. -/
def eventEntry (s : Scope) (e : Event) : Written String := do
  let params ← patTexts s 1 e.handler.params
  let result :=
    match e.handler.returnType with
    | some t => s.typeText t
    | none => "void"
  return pad 1 ++ "(" ++ join ", " (("e: " ++ quote e.event) :: params) ++ "): " ++ result ++ ","

/-- The interface of the events and their declaration. -/
def eventDeclarations (s : Scope) (events : List Event) : Written (List String) :=
  if events.isEmpty then of []
  else do
    let entries ← all (eventEntry s) events
    return [join "\n" ("interface Emits \x7b" :: entries ++ ["\x7d"]),
      "const emit = defineEmits<Emits>();"]

/-- The expression that passes a parameter on. -/
def forwarded : Pat → Written String
  | .ident id _ _ => of id.name
  | .rest _ arg _ => do return "..." ++ (← forwarded arg)
  | .withDefault _ left _ => forwarded left
  | .array span _ _ | .object span _ _ => unsupportedExpr "destructured event parameter" span
  | .expr e => unsupportedExpr "destructured event parameter" e.span
  | .hole => unsupportedExpr "destructured event parameter" default

/-- The method of an event: its signature, and a body that raises the event with all
parameters. -/
def emitMethod (s : Scope) (e : Event) : Written String := do
  let f := e.handler
  let params ← patTexts s 0 f.params
  let args ← all forwarded f.params
  return asyncText f.isAsync ++ "function " ++ e.method ++ "(" ++ join ", " params ++ ")"
    ++ s.typeAnn f.returnType ++ " \x7b\n  emit(" ++ join ", " (quote e.event :: args)
    ++ ");\n\x7d"

/-! ## Watchers -/

/-- What is watched: a single name is the binding itself, a path needs a function. -/
def watchSource (s : Scope) : Expr → Written String
  | .string lit =>
    match splitOnce? '.' lit.value with
    | none => of lit.value
    | some (head, rest) => of ("() => " ++ s.selfAccess head ++ "." ++ rest)
  | e => exprText s 0 e

/-- The registration of a watcher. -/
def watchRegistration (s : Scope) (w : Watcher) : Written String := do
  let source ← watchSource s w.target
  let handler ← arrowFunction s 0 w.handler
  let options ←
    match w.options with
    | some e => do pure (", " ++ (← exprText s 0 e))
    | none => pure ""
  return "watch(" ++ source ++ ", " ++ handler ++ options ++ ");"

/-! ## Computed values and state -/

/-- The binding of a computed value, when there is anything to bind. -/
def computedBinding (s : Scope) (a : Accessor) : Written (Option String) :=
  match a.getter, a.setter with
  | none, none => of none
  | some getter, none => do
    return some ("const " ++ a.name ++ " = computed(" ++ (← arrowFunction s 0 getter) ++ ");")
  | getter, some setter => do
    let getLines ←
      match getter with
      | some getter => do pure [pad 1 ++ "get: " ++ (← arrowFunction s 1 getter) ++ ","]
      | none => do
        finding (.setterOnly a.name) setter.span
        pure []
    let setLine := pad 1 ++ "set: " ++ (← arrowFunction s 1 setter) ++ ","
    return some (join "\n"
      (("const " ++ a.name ++ " = computed(\x7b") :: getLines ++ [setLine, "\x7d);"]))

/-- The binding of a piece of state. -/
def refBinding (s : Scope) (f : RefField) : Written String := do
  let type :=
    match f.type with
    | some t => "<" ++ s.typeText t ++ ">"
    | none => ""
  let init ←
    match f.init with
    | some e => exprText s 0 e
    | none => pure ""
  return "const " ++ f.name ++ " = ref" ++ type ++ "(" ++ init ++ ");"

/-- The binding of a template reference. -/
def templateRefBinding (name : String) : String :=
  "const " ++ name ++ " = ref(null);"

/-! ## Members and items in place -/

/-- A field without a meaning of its own. -/
def fieldText (s : Scope) (name : String) (isReadonly : Bool) (type : Option TypeText) :
    Option Expr → Written String
  | none => of ("let " ++ name ++ s.typeAnn type ++ ";")
  | some e => do
    return (if isReadonly then "const " else "let ") ++ name ++ s.typeAnn type ++ " = "
      ++ (← exprText s 0 e) ++ ";"

/-- An exported declaration. Types keep their `export`; all else loses it. -/
def exportText (s : Scope) (span : Span) : Stmt → Written String
  | .typeDecl .interface _ _ | .typeDecl .alias _ _ =>
    match s.verbatim span with
    | some text => of text
    | none => unsupportedStmt "type export" span
  | decl => do
    finding .removedExport span
    stmtText s 0 decl

/-- An item of the body. An empty text contributes nothing. -/
def bodyText (s : Scope) (events : List Event) : BodyItem → Written String
  | .stmt stmt => stmtText s 0 stmt
  | .exportDecl span decl => exportText s span decl
  | .moduleDecl span => unsupportedStmt "module declaration" span
  | .field name isReadonly type value => fieldText s name isReadonly type value
  | .method name f => functionDecl s 0 name f
  | .lifecycle hook f => do return hook ++ "(" ++ (← arrowFunction s 0 f) ++ ");"
  | .hoisted body => do return join "\n" ((← all (stmtText s 0) body).filter (· != ";"))
  | .emit index =>
    match events[index]? with
    | some e => emitMethod s e
    | none => of ""
  | .unsupported => of stmtPlaceholder

end ScriptSetup.Setup
