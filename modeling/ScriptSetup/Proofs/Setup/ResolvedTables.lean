import ScriptSetup.Proofs.Setup.SelfAccess
import ScriptSetup.Setup.Convert

/-!
# Tables with their self accesses resolved

The document of a component is written from its tables. Writing the tables is writing their
resolved form, piece by piece: the inputs, the events, the watchers, the accessors, what stays in
place and the state. `writtenUses` are the uses in all that is written; what is noted are the
template references among them, but for those with the name of state, which is a binding already.
-/

set_option autoImplicit false

namespace ScriptSetup.Setup

open Script Component Written

/-! ## Resolving tables -/

/-- State with its initial value resolved. -/
def resolveRef (state : List String) (f : RefField) : RefField :=
  { f with init := resolveOption state f.init }

/-- A default value with its self accesses resolved. -/
def resolveDefault (state : List String) : InputDefault → InputDefault
  | .value e => .value (resolveExpr state e)
  | .factory f => .factory (resolveFunc state f)

/-- An input with its default value resolved. -/
def resolveInput (state : List String) (i : Input) : Input :=
  { i with fallback := i.fallback.map (resolveDefault state) }

/-- An accessor with its functions resolved. -/
def resolveAccessor (state : List String) (a : Accessor) : Accessor :=
  { a with
    getter := a.getter.map (resolveFunc state)
    setter := a.setter.map (resolveFunc state) }

/-- A watcher with what it watches and its code resolved. -/
def resolveWatcher (state : List String) (w : Watcher) : Watcher :=
  ⟨resolveExpr state w.target, resolveOption state w.options, resolveFunc state w.handler⟩

/-- An event with its method resolved. -/
def resolveEvent (state : List String) (e : Event) : Event :=
  { e with handler := resolveFunc state e.handler }

/-- An item of the body with its self accesses resolved. -/
def resolveItem (state : List String) : BodyItem → BodyItem
  | .stmt s => .stmt (resolveStmt state s)
  | .exportDecl span decl => .exportDecl span (resolveStmt state decl)
  | .moduleDecl span => .moduleDecl span
  | .field name isReadonly type value => .field name isReadonly type (resolveOption state value)
  | .method name f => .method name (resolveFunc state f)
  | .lifecycle hook f => .lifecycle hook (resolveFunc state f)
  | .hoisted body => .hoisted (resolveStmts state body)
  | .emit index => .emit index
  | .unsupported => .unsupported

/-- The tables with all their code resolved. -/
def resolveTables (state : List String) (t : Tables) : Tables :=
  { t with
    refs := t.refs.map (resolveRef state)
    inputs := t.inputs.map (resolveInput state)
    accessors := t.accessors.map (resolveAccessor state)
    watchers := t.watchers.map (resolveWatcher state)
    events := t.events.map (resolveEvent state)
    body := t.body.map (resolveItem state) }

/-! ## The uses in the members of a component -/

/-- The uses in the initial value of state. -/
def refUses (locals : List String) (f : RefField) : List Use :=
  optionUses locals f.init

/-- The uses in the default value of an input. -/
def inputUses (locals : List String) (i : Input) : List Use :=
  match i.fallback with
  | none => []
  | some (.value e) => exprUses locals e
  | some (.factory f) => funcUses locals f

/-- The uses in the parameters of a function. -/
def paramUses (locals : List String) (f : Func) : List Use :=
  patsUses true (patsNames f.params ++ locals) f.params

/-- The uses in the signature of an event. -/
def signatureUses (locals : List String) (e : Event) : List Use :=
  paramUses ("e" :: locals) e.handler

/-- The uses in a watcher. -/
def watcherUses (locals : List String) (w : Watcher) : List Use :=
  exprUses locals w.target ++ funcUses locals w.handler ++ optionUses locals w.options

/-- The uses in a function, when there is one. -/
def accessUses (locals : List String) : Option Func → List Use
  | none => []
  | some f => funcUses locals f

/-- The uses in an accessor. -/
def accessorUses (locals : List String) (a : Accessor) : List Use :=
  accessUses locals a.getter ++ accessUses locals a.setter

/-- The uses in a member that stays in place. The method of an event keeps its parameters only. -/
def itemUses (events : List Event) (locals : List String) : BodyItem → List Use
  | .field _ _ _ value => optionUses locals value
  | .method _ f | .lifecycle _ f => funcUses locals f
  | .hoisted body => stmtsUses locals body
  | .emit index =>
    match events[index]? with
    | some e => paramUses locals e.handler
    | none => []
  | .stmt _ | .exportDecl _ _ | .moduleDecl _ | .unsupported => []

/-- The names that an item declares beside all other code, though a member declared them for
itself. -/
def setupNames : BodyItem → List String
  | .hoisted body => bodyNames body
  | _ => []

/-- The uses in the members of a component, in the order in which they are written. -/
def memberUses (t : Tables) : List Use :=
  let locals := t.body.flatMap setupNames
  t.inputs.flatMap (inputUses locals) ++ t.events.flatMap (signatureUses locals)
    ++ t.watchers.flatMap (watcherUses locals) ++ t.accessors.flatMap (accessorUses locals)
    ++ t.body.flatMap (itemUses t.events locals) ++ t.refs.flatMap (refUses locals)

/-! ## The uses in all that is written -/

/-- The uses in an item of the body, be it a member or code beside the component. -/
def writtenItemUses (events : List Event) : BodyItem → List Use
  | .stmt stmt | .exportDecl _ stmt => stmtUses [] stmt
  | item => itemUses events [] item

/-- The uses in all that is written from the tables, in the order in which it is written. -/
def writtenUses (t : Tables) : List Use :=
  t.inputs.flatMap (inputUses []) ++ t.events.flatMap (signatureUses [])
    ++ t.watchers.flatMap (watcherUses []) ++ t.accessors.flatMap (accessorUses [])
    ++ t.body.flatMap (writtenItemUses t.events) ++ t.refs.flatMap (refUses [])

theorem mem_templateNames {state : List String} {uses : List Use} {n : String} :
    n ∈ templateNames state uses ↔ n ∉ state ∧ ∃ u ∈ uses, u.reference = .templateRef n := by
  have hname (u : Use) : u.templateName? state = some n ↔
      n ∉ state ∧ u.reference = .templateRef n := by
    obtain ⟨reference, locals, -, -⟩ := u
    cases reference with
    | templateRef name =>
      simp only [Use.templateName?, Reference.templateRef.injEq]
      constructor
      · intro h
        split at h
        · cases h
        · rename_i hout
          cases h
          exact ⟨by simpa using hout, rfl⟩
      · rintro ⟨hout, rfl⟩
        simp [hout]
    | name _ | self _ _ _ => simp [Use.templateName?]
  simp only [templateNames, List.mem_filterMap, hname]
  constructor
  · rintro ⟨u, hu, hout, href⟩
    exact ⟨hout, u, hu, href⟩
  · rintro ⟨hout, u, hu, href⟩
    exact ⟨u, hu, hout, href⟩

/-! ## Writing resolved tables -/

/-- Lists are written item by item. -/
theorem all_settles {α β : Type} {state : List String} {f f' : α → Written β} {g : α → α}
    {uses uses' : α → List Use} (h : ∀ a, Settles state (uses a) (uses' (g a)) (f a) (f' (g a)))
    (as : List α) :
    Settles state (as.flatMap uses) ((as.map g).flatMap uses') (all f as) (all f' (as.map g)) := by
  induction as with
  | nil => exact ⟨rfl, rfl, rfl⟩
  | cons a as ih => exact (h a).bind fun _ => ih.last fun _ => rfl

/-- A step that uses nothing. -/
theorem Settles.skip {α β : Type} {state : List String} {us us' : List Use} {w w' : Written α}
    {f f' : α → Written β} (hw : w' = w) (hnone : w.templateRefs = [])
    (hf : ∀ a, Settles state us us' (f a) (f' a)) : Settles state us us' (w >>= f) (w' >>= f') := by
  have hstep : Settles state [] [] w w' := by
    refine ⟨?_, hnone, rfl⟩
    rw [hw, Written.settled, ← hnone]
  exact hstep.bind hf

theorem params_resolveFunc (state : List String) (f : Func) :
    (resolveFunc state f).params = resolvePats state f.params := by
  cases f
  rfl

theorem returnType_resolveFunc (state : List String) (f : Func) :
    (resolveFunc state f).returnType = f.returnType := by
  cases f
  rfl

theorem span_resolveFunc (state : List String) (f : Func) :
    (resolveFunc state f).span = f.span := by
  cases f
  rfl

theorem span_resolveExpr (state : List String) (e : Expr) :
    (resolveExpr state e).span = e.span := by
  cases e with
  | member span obj key =>
    rcases access_cases obj key with ⟨hobj, name, hkey⟩ | ⟨hobj, hkey⟩ |
      ⟨hobj, hrefs, name, hkey⟩ | hplain
    · rw [resolveExpr_member_this hobj hkey, selfBinding]
      split
      · rfl
      · rfl
    · rw [resolveExpr_member_dynamic hobj hkey]
    · rw [resolveExpr_member_refs hobj hrefs hkey]
      rfl
    · rw [resolveExpr_member_plain hplain]
      rfl
  | func name f => exact span_resolveFunc state f
  | _ => rfl

theorem resolvePats_eq_map (state : List String) (ps : List Pat) :
    resolvePats state ps = ps.map (resolvePat state) := by
  induction ps with
  | nil => rfl
  | cons p ps ih => rw [resolvePats, ih, List.map_cons]

theorem resolveStmts_eq_map (state : List String) (body : List Stmt) :
    resolveStmts state body = body.map (resolveStmt state) := by
  induction body with
  | nil => rfl
  | cons stmt rest ih => rw [resolveStmts, ih, List.map_cons]

theorem stmtsUses_eq_flatMap (locals : List String) (body : List Stmt) :
    stmtsUses locals body = body.flatMap (stmtUses locals) := by
  induction body with
  | nil => rfl
  | cons stmt body ih => rw [stmtsUses, ih, List.flatMap_cons]

section

variable (s : Scope) (locals : List String)

theorem arrowFunction_settles (level : Nat) (f : Func) :
    Settles s.reactive (funcUses locals f) (funcUses locals (resolveFunc s.reactive f))
      (arrowFunction s level f) (arrowFunction s level (resolveFunc s.reactive f)) :=
  (func_settles s f).last fun _ => by
    rw [isAsync_resolveFunc]

theorem inputFallback_settles (i : Input) :
    Settles s.reactive (inputUses locals i) (inputUses locals (resolveInput s.reactive i))
      (inputFallback s i) (inputFallback s (resolveInput s.reactive i)) := by
  obtain ⟨name, type, required, fallback⟩ := i
  match fallback with
  | none => exact ⟨rfl, rfl, rfl⟩
  | some (.value e) => exact (expr_settles s e).last fun _ => rfl
  | some (.factory f) => exact (arrowFunction_settles s locals 1 f).last fun _ => rfl

theorem inputDeclarations_settles (inputs : List Input) :
    Settles s.reactive (inputs.flatMap (inputUses locals))
      ((inputs.map (resolveInput s.reactive)).flatMap (inputUses locals))
      (inputDeclarations s inputs)
      (inputDeclarations s (inputs.map (resolveInput s.reactive))) := by
  cases inputs with
  | nil => exact ⟨rfl, rfl, rfl⟩
  | cons i inputs =>
    have hentries : ((i :: inputs).map (resolveInput s.reactive)).map (inputEntry s) =
        (i :: inputs).map (inputEntry s) := by
      rw [List.map_map]
      rfl
    refine (all_settles (inputFallback_settles s locals) (i :: inputs)).last fun _ => ?_
    rw [hentries]

theorem paramUses_resolve (state : List String) (f : Func) :
    paramUses locals (resolveFunc state f) =
      patsUses true (patsNames f.params ++ locals) (resolvePats state f.params) := by
  rw [paramUses, params_resolveFunc, patsNames_resolve]

theorem eventEntry_settles (e : Event) :
    Settles s.reactive (signatureUses locals e) (signatureUses locals (resolveEvent s.reactive e))
      (eventEntry s e) (eventEntry s (resolveEvent s.reactive e)) := by
  rw [signatureUses, signatureUses, eventEntry, eventEntry, resolveEvent, paramUses_resolve,
    params_resolveFunc, returnType_resolveFunc]
  exact (pats_settles s e.handler.params).last fun _ => rfl

theorem eventDeclarations_settles (events : List Event) :
    Settles s.reactive (events.flatMap (signatureUses locals))
      ((events.map (resolveEvent s.reactive)).flatMap (signatureUses locals))
      (eventDeclarations s events)
      (eventDeclarations s (events.map (resolveEvent s.reactive))) := by
  cases events with
  | nil => exact ⟨rfl, rfl, rfl⟩
  | cons e events =>
    exact (all_settles (eventEntry_settles s locals) (e :: events)).last fun _ => rfl

theorem forwarded_settles (state : List String) : ∀ p : Pat,
    Settles state [] [] (forwarded p) (forwarded (resolvePat state p))
  | .rest _ arg _ => (forwarded_settles state arg).last fun _ => rfl
  | .withDefault _ left _ => forwarded_settles state left
  | .expr e =>
    ⟨congrArg (unsupportedExpr "destructured event parameter") (span_resolveExpr state e), rfl, rfl⟩
  | .ident _ _ _ | .array _ _ _ | .object _ _ _ | .hole => ⟨rfl, rfl, rfl⟩

theorem emitMethod_settles (e : Event) :
    Settles s.reactive (paramUses locals e.handler)
      (paramUses locals (resolveEvent s.reactive e).handler)
      (emitMethod s e) (emitMethod s (resolveEvent s.reactive e)) := by
  have hargs : Settles s.reactive (e.handler.params.flatMap fun _ => [])
      ((e.handler.params.map (resolvePat s.reactive)).flatMap fun _ => [])
      (all forwarded e.handler.params)
      (all forwarded (e.handler.params.map (resolvePat s.reactive))) :=
    all_settles (forwarded_settles s.reactive) e.handler.params
  rw [List.flatMap_eq_nil_iff.2 fun _ _ => rfl, List.flatMap_eq_nil_iff.2 fun _ _ => rfl,
    ← resolvePats_eq_map] at hargs
  rw [emitMethod, emitMethod, resolveEvent, paramUses_resolve, params_resolveFunc,
    returnType_resolveFunc, isAsync_resolveFunc]
  exact (pats_settles s e.handler.params).rest fun _ => hargs.last fun _ => rfl

theorem watchSource_settles (e : Expr) :
    Settles s.reactive (exprUses locals e) (exprUses locals (resolveExpr s.reactive e))
      (watchSource s e) (watchSource s (resolveExpr s.reactive e)) := by
  have htext := @expr_settles s 0 locals e
  rw [SettlesCode] at htext
  cases e with
  | string lit =>
    refine ⟨?_, ?_, rfl⟩
    · show watchSource s (.string lit) = _
      rw [watchSource]
      split <;> rfl
    · rw [watchSource]
      split <;> rfl
  | member span obj key =>
    rcases resolveExpr_member_shape s.reactive span obj key with ⟨id, h⟩ | ⟨span', obj', key', h⟩
    · rw [h] at htext ⊢
      exact htext
    · rw [h] at htext ⊢
      exact htext
  | _ => exact htext

theorem watchRegistration_settles (w : Watcher) :
    Settles s.reactive (watcherUses locals w) (watcherUses locals (resolveWatcher s.reactive w))
      (watchRegistration s w) (watchRegistration s (resolveWatcher s.reactive w)) := by
  obtain ⟨target, options, handler⟩ := w
  rw [watcherUses, watcherUses, List.append_assoc, List.append_assoc]
  refine (watchSource_settles s locals target).bind fun _ =>
    (arrowFunction_settles s locals 0 handler).bind fun _ => ?_
  cases options with
  | none => exact ⟨rfl, rfl, rfl⟩
  | some e => exact (expr_settles s e).last fun _ => rfl

theorem computedBinding_settles (a : Accessor) :
    Settles s.reactive (accessorUses locals a) (accessorUses locals (resolveAccessor s.reactive a))
      (computedBinding s a) (computedBinding s (resolveAccessor s.reactive a)) := by
  obtain ⟨name, getter, setter⟩ := a
  match getter, setter with
  | none, none => exact ⟨rfl, rfl, rfl⟩
  | some getter, none =>
    exact (arrowFunction_settles s locals 0 getter).bind fun _ => ⟨rfl, rfl, rfl⟩
  | none, some setter =>
    exact .skip (congrArg (finding (.setterOnly name)) (span_resolveFunc s.reactive setter)) rfl
      fun _ => .skip rfl rfl fun _ => (arrowFunction_settles s locals 1 setter).last fun _ => rfl
  | some getter, some setter =>
    exact (arrowFunction_settles s locals 1 getter).bind fun _ => .skip rfl rfl fun _ =>
      (arrowFunction_settles s locals 1 setter).last fun _ => rfl

theorem refBinding_settles (f : RefField) :
    Settles s.reactive (refUses locals f) (refUses locals (resolveRef s.reactive f))
      (refBinding s f) (refBinding s (resolveRef s.reactive f)) := by
  obtain ⟨name, type, init⟩ := f
  cases init with
  | none => exact ⟨rfl, rfl, rfl⟩
  | some e => exact (expr_settles s e).last fun _ => rfl

/-- A declaration that keeps its `export`. -/
def keepsExport : Stmt → Bool
  | .typeDecl .interface _ _ | .typeDecl .alias _ _ => true
  | _ => false

theorem exportText_eq (span : Span) (decl : Stmt) :
    exportText s span decl =
      if keepsExport decl then
        match s.verbatim span with
        | some text => of text
        | none => unsupportedStmt "type export" span
      else finding .removedExport span >>= fun _ => stmtText s 0 decl := by
  cases decl with
  | typeDecl kind => cases kind <;> rfl
  | _ => rfl

theorem keepsExport_resolve (state : List String) (decl : Stmt) :
    keepsExport (resolveStmt state decl) = keepsExport decl := by
  cases decl with
  | _ => rfl

theorem exportText_settles (span : Span) (decl : Stmt) :
    Settles s.reactive (stmtUses locals decl) (stmtUses locals (resolveStmt s.reactive decl))
      (exportText s span decl) (exportText s span (resolveStmt s.reactive decl)) := by
  rw [exportText_eq, exportText_eq, keepsExport_resolve]
  cases hkeeps : keepsExport decl with
  | true =>
    cases decl with
    | typeDecl kind span' name => exact settles_copied s.reactive s "type export" span
    | _ => cases hkeeps
  | false => exact .skip rfl rfl fun _ => stmt_settles s decl

/-- A member that stays in place is written in its resolved form. -/
theorem bodyText_settles (events : List Event) (item : BodyItem) :
    Settles s.reactive (writtenItemUses events item)
      (writtenItemUses (events.map (resolveEvent s.reactive)) (resolveItem s.reactive item))
      (bodyText s events item)
      (bodyText s (events.map (resolveEvent s.reactive)) (resolveItem s.reactive item)) := by
  cases item with
  | stmt stmt => exact stmt_settles s stmt
  | exportDecl span decl => exact exportText_settles s [] span decl
  | field name isReadonly type value =>
    cases value with
    | none => exact ⟨rfl, rfl, rfl⟩
    | some e => exact (expr_settles s e).last fun _ => rfl
  | method name f =>
    refine (func_settles s f).last fun _ => ?_
    rw [isAsync_resolveFunc, isGenerator_resolveFunc]
  | lifecycle hook f => exact (arrowFunction_settles s [] 0 f).last fun _ => rfl
  | hoisted body =>
    show Settles _ (stmtsUses [] body) (stmtsUses [] (resolveStmts s.reactive body)) _
      (all (stmtText s 0) (resolveStmts s.reactive body) >>= _)
    rw [resolveStmts_eq_map, stmtsUses_eq_flatMap, stmtsUses_eq_flatMap]
    exact (all_settles (stmt_settles s) body).last fun _ => rfl
  | emit index =>
    show Settles _ (itemUses events [] (.emit index))
      (itemUses (events.map (resolveEvent s.reactive)) [] (.emit index)) _ _
    rw [resolveItem, itemUses, itemUses, bodyText, bodyText, List.getElem?_map]
    cases events[index]? with
    | none => exact ⟨rfl, rfl, rfl⟩
    | some e => exact emitMethod_settles s [] e
  | moduleDecl span | unsupported => exact ⟨rfl, rfl, rfl⟩

/-- Writing the tables is writing their resolved form and noting their template references. -/
theorem writeParts_settles (t : Tables) :
    Settles s.reactive (writtenUses t) (writtenUses (resolveTables s.reactive t))
      (writeParts s t) (writeParts s (resolveTables s.reactive t)) := by
  simp only [writtenUses, List.append_assoc]
  exact (inputDeclarations_settles s [] t.inputs).bind fun _ =>
    (eventDeclarations_settles s [] t.events).bind fun _ =>
    (all_settles (watchRegistration_settles s []) t.watchers).bind fun _ =>
    (all_settles (computedBinding_settles s []) t.accessors).bind fun _ =>
    (all_settles (bodyText_settles s t.events) t.body).bind fun _ =>
    (all_settles (refBinding_settles s []) t.refs).last fun _ => rfl

/-- The template references that are noted while the tables are written are not state. -/
theorem writeParts_notesNoState (t : Tables) :
    ∀ n ∈ (writeParts s t).templateRefs, n ∉ s.reactive := by
  intro n hn
  rw [(writeParts_settles s t).noted] at hn
  exact (mem_templateNames.1 hn).1

end

end ScriptSetup.Setup
