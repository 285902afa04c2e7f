import ScriptSetup.Proofs.Component.Roles
import ScriptSetup.Proofs.Script.Relocation

/-!
# Members in another place

The role of a member does not depend on where the member stands, and neither does the table that
it fills. So the tables of a module that was moved are the tables of the module, with every place
in them moved. What they copy from the source is what the items of the module copy.
-/

set_option autoImplicit false

namespace ScriptSetup.Component

open Script

/-! ## Moving what tables hold -/

/-- State in its new place. -/
def relocateRef (ρ : Span → Span) (f : RefField) : RefField :=
  ⟨f.name, f.type.map (relocateType ρ), relocateOption ρ f.init⟩

/-- The type of an input in its new place. -/
def relocateInputType (ρ : Span → Span) : InputType → InputType
  | .written t => .written (relocateType ρ t)
  | .constructors names => .constructors names
  | .unknown => .unknown

/-- A default value in its new place. -/
def relocateDefault (ρ : Span → Span) : InputDefault → InputDefault
  | .value e => .value (relocateExpr ρ e)
  | .factory f => .factory (relocateFunc ρ f)

/-- An input in its new place. -/
def relocateInput (ρ : Span → Span) (i : Input) : Input :=
  ⟨i.name, relocateInputType ρ i.type, i.required, i.fallback.map (relocateDefault ρ)⟩

/-- An accessor in its new place. -/
def relocateAccessor (ρ : Span → Span) (a : Accessor) : Accessor :=
  ⟨a.name, a.getter.map (relocateFunc ρ), a.setter.map (relocateFunc ρ)⟩

/-- A watcher in its new place. -/
def relocateWatcher (ρ : Span → Span) (w : Watcher) : Watcher :=
  ⟨relocateExpr ρ w.target, relocateOption ρ w.options, relocateFunc ρ w.handler⟩

/-- An event in its new place. -/
def relocateEvent (ρ : Span → Span) (e : Event) : Event :=
  ⟨e.method, e.event, relocateFunc ρ e.handler⟩

/-- What stays in place, moved with it. -/
def relocateBody (ρ : Span → Span) : BodyItem → BodyItem
  | .stmt stmt => .stmt (relocateStmt ρ stmt)
  | .exportDecl span decl => .exportDecl (ρ span) (relocateStmt ρ decl)
  | .moduleDecl span => .moduleDecl (ρ span)
  | .field name isReadonly type value =>
    .field name isReadonly (type.map (relocateType ρ)) (relocateOption ρ value)
  | .method name f => .method name (relocateFunc ρ f)
  | .lifecycle hook f => .lifecycle hook (relocateFunc ρ f)
  | .hoisted body => .hoisted (relocateStmts ρ body)
  | .emit index => .emit index
  | .unsupported => .unsupported

/-- A role in its new place. -/
def relocateRole (ρ : Span → Span) : Role → Role
  | .ref field => .ref (relocateRef ρ field)
  | .input input => .input (relocateInput ρ input)
  | .watcher w => .watcher (relocateWatcher ρ w)
  | .event e => .event (relocateEvent ρ e)
  | .lifecycle hook f => .lifecycle hook (relocateFunc ρ f)
  | .setupHook f => .setupHook (relocateFunc ρ f)
  | .getter name f => .getter name (relocateFunc ρ f)
  | .setter name f => .setter name (relocateFunc ρ f)
  | .field name isReadonly type value =>
    .field name isReadonly (type.map (relocateType ρ)) (relocateOption ρ value)
  | .method name f => .method name (relocateFunc ρ f)
  | .nothing => .nothing
  | .unsupported what span => .unsupported what (ρ span)

/-- What is written of the tables, in its new place. -/
def relocateTables (ρ : Span → Span) (t : Tables) : Tables where
  imports := t.imports.map (relocateImport ρ)
  refs := t.refs.map (relocateRef ρ)
  inputs := t.inputs.map (relocateInput ρ)
  accessors := t.accessors.map (relocateAccessor ρ)
  watchers := t.watchers.map (relocateWatcher ρ)
  events := t.events.map (relocateEvent ρ)
  hooks := t.hooks
  body := t.body.map (relocateBody ρ)

/-! ## What tables copy -/

/-- What a default value copies, when there is one. -/
def defaultKeeps (P : Span → Prop) : Option InputDefault → Prop
  | none => True
  | some (.value e) => exprKeeps P e
  | some (.factory f) => funcKeeps P f

/-- What the type of an input copies. -/
def inputTypeKeeps (P : Span → Prop) : InputType → Prop
  | .written t => P t.span
  | .constructors _ | .unknown => True

/-- What state copies. -/
def refKeeps (P : Span → Prop) (f : RefField) : Prop :=
  typeKeeps P f.type ∧ optionKeeps P f.init

/-- What an input copies. -/
def inputKeeps (P : Span → Prop) (i : Input) : Prop :=
  inputTypeKeeps P i.type ∧ defaultKeeps P i.fallback

/-- What a watcher copies. -/
def watcherKeeps (P : Span → Prop) (w : Watcher) : Prop :=
  exprKeeps P w.target ∧ optionKeeps P w.options ∧ funcKeeps P w.handler

/-- What an item of the body copies. -/
def bodyKeeps (P : Span → Prop) : BodyItem → Prop
  | .stmt stmt => stmtKeeps P stmt
  | .exportDecl span decl => P span ∧ stmtKeeps P decl
  | .field _ _ type value => typeKeeps P type ∧ optionKeeps P value
  | .method _ f | .lifecycle _ f => funcKeeps P f
  | .hoisted body => stmtsKeep P body
  | .moduleDecl _ | .emit _ | .unsupported => True

/-- What a role copies. -/
def roleKeeps (P : Span → Prop) : Role → Prop
  | .ref f => refKeeps P f
  | .input i => inputKeeps P i
  | .watcher w => watcherKeeps P w
  | .event e => funcKeeps P e.handler
  | .lifecycle _ f | .setupHook f | .getter _ f | .setter _ f | .method _ f => funcKeeps P f
  | .field _ _ type value => typeKeeps P type ∧ optionKeeps P value
  | .nothing | .unsupported _ _ => True

/-- What the tables copy stands in places with the property. -/
structure TablesKeep (P : Span → Prop) (t : Tables) : Prop where
  refs : ∀ f ∈ t.refs, refKeeps P f
  inputs : ∀ i ∈ t.inputs, inputKeeps P i
  getters : ∀ a ∈ t.accessors, ∀ f ∈ a.getter, funcKeeps P f
  setters : ∀ a ∈ t.accessors, ∀ f ∈ a.setter, funcKeeps P f
  watchers : ∀ w ∈ t.watchers, watcherKeeps P w
  events : ∀ e ∈ t.events, funcKeeps P e.handler
  body : ∀ item ∈ t.body, bodyKeeps P item

/-! ## Arguments of decorators -/

section

variable (ρ : Span → Span)

theorem staticName?_relocate (key : Key) : (relocateKey ρ key).staticName? = key.staticName? := by
  cases key <;> rfl

theorem exprName?_relocate (e : Expr) : exprName? (relocateExpr ρ e) = exprName? e := by
  cases e with
  | _ => rfl

theorem constructors?_relocate (e : Expr) :
    constructors? (relocateExpr ρ e) = constructors? e := by
  cases e with
  | array span es =>
    show (relocateExprs ρ es).mapM exprName? = es.mapM exprName?
    rw [relocateExprs_eq_map, List.mapM_map]
    exact congrArg es.mapM (funext (exprName?_relocate ρ))
  | _ => rfl

theorem isTruthyLiteral_relocate (e : Expr) :
    isTruthyLiteral (relocateExpr ρ e) = isTruthyLiteral e := by
  cases e with
  | _ => rfl

/-- What the argument of an input says, in its new place. -/
def relocateOptions (o : InputOptions) : InputOptions :=
  ⟨o.constructors, o.required, o.fallback.map (relocateDefault ρ)⟩

theorem inputOption_relocate (o : InputOptions) (p : Property) :
    inputOption (relocateOptions ρ o) (relocateProperty ρ p) =
      (inputOption o p).map (relocateOptions ρ) := by
  cases p with
  | keyValue key value =>
    show inputOption _ (.keyValue (relocateKey ρ key) (relocateExpr ρ value)) = _
    rw [inputOption, inputOption, staticName?_relocate, constructors?_relocate,
      isTruthyLiteral_relocate]
    split
    · rfl
    · split <;> rfl
    · rfl
    · rfl
    · rfl
  | method span key f =>
    show inputOption _ (.method (ρ span) (relocateKey ρ key) (relocateFunc ρ f)) = _
    rw [inputOption, inputOption, staticName?_relocate]
    split <;> rfl
  | _ => rfl

theorem foldlM_inputOption_relocate (o : InputOptions) (props : List Property) :
    (relocateProperties ρ props).foldlM inputOption (relocateOptions ρ o) =
      (props.foldlM inputOption o).map (relocateOptions ρ) := by
  rw [relocateProperties_eq_map]
  induction props generalizing o with
  | nil => rfl
  | cons p props ih =>
    rw [List.map_cons, List.foldlM_cons, List.foldlM_cons, inputOption_relocate]
    cases inputOption o p with
    | error fault => rfl
    | ok o' => exact ih o'

/-- The options of an input whose type alone is given. -/
def typeOptions : Option (List String) → Except DecoratorFault InputOptions
  | some cs => .ok { constructors := some cs }
  | none => .error .badArgument

theorem inputOptions_relocate (args : List Expr) :
    inputOptions (relocateExprs ρ args) = (inputOptions args).map (relocateOptions ρ) := by
  cases args with
  | nil => rfl
  | cons e es =>
    have hother : typeOptions (constructors? (relocateExpr ρ e)) =
        (typeOptions (constructors? e)).map (relocateOptions ρ) := by
      rw [constructors?_relocate]
      cases constructors? e <;> rfl
    cases e with
    | object span props => exact foldlM_inputOption_relocate ρ {} props
    | spread span e => rfl
    | _ => exact hother

/-- A spread. -/
def isSpread : Expr → Bool
  | .spread _ _ => true
  | _ => false

theorem isSpread_relocate (e : Expr) : isSpread (relocateExpr ρ e) = isSpread e := by
  cases e with
  | _ => rfl

theorem eventName_relocate (method : String) (args : List Expr) :
    eventName method (relocateExprs ρ args) = eventName method args := by
  cases args with
  | nil => rfl
  | cons e es =>
    cases e with
    | _ => rfl

end

variable {args : List Expr} {o : InputOptions}

/-- What is watched comes first, and options are an object. -/
theorem watchArguments_eq_ok {target : Expr} {options : Option Expr} :
    watchArguments args = .ok (target, options) ↔
      isSpread target = false ∧ ((args = [target] ∧ options = none) ∨
        ∃ span props rest, args = target :: .object span props :: rest ∧
          options = some (.object span props)) := by
  constructor
  · intro h
    rw [watchArguments.eq_def] at h
    split at h
    · cases h
    · cases h
    · rename_i hspread
      cases h
      refine ⟨?_, .inl ⟨rfl, rfl⟩⟩
      cases target with
      | spread span e => exact (hspread span e rfl).elim
      | _ => rfl
    · rename_i span props rest hspread
      cases h
      refine ⟨?_, .inr ⟨span, props, rest, rfl, rfl⟩⟩
      cases target with
      | spread span e => exact (hspread span e rfl).elim
      | _ => rfl
    · cases h
  · rintro ⟨hspread, ⟨rfl, rfl⟩ | ⟨span, props, rest, rfl, rfl⟩⟩
    · cases target with
      | spread span e => cases hspread
      | _ => rfl
    · cases target with
      | spread span e => cases hspread
      | _ => rfl

theorem watchArguments_relocate (ρ : Span → Span) {target : Expr} {options : Option Expr}
    (h : watchArguments args = .ok (target, options)) : watchArguments (relocateExprs ρ args) =
      .ok (relocateExpr ρ target, relocateOption ρ options) := by
  obtain ⟨hspread, ⟨rfl, rfl⟩ | ⟨span, props, rest, rfl, rfl⟩⟩ := watchArguments_eq_ok.1 h
  · exact watchArguments_eq_ok.2 ⟨(isSpread_relocate ρ target).trans hspread, .inl ⟨rfl, rfl⟩⟩
  · exact watchArguments_eq_ok.2 ⟨(isSpread_relocate ρ target).trans hspread,
      .inr ⟨ρ span, relocateProperties ρ props, relocateExprs ρ rest, rfl, rfl⟩⟩

/-- A property gives this default value. -/
inductive GivesDefault (props : List Property) : InputDefault → Prop
  | value (key : Key) (e : Expr) (h : .keyValue key e ∈ props) : GivesDefault props (.value e)
  | factory (span : Span) (key : Key) (f : Func) (h : .method span key f ∈ props) :
    GivesDefault props (.factory f)

/-- A property gives these constructors. -/
def GivesConstructors (props : List Property) (cs : List String) : Prop :=
  ∃ key e, .keyValue key e ∈ props ∧ constructors? e = some cs

/-- What the later options say, the earlier ones say or a property does. -/
structure ReadFrom (props : List Property) (o o' : InputOptions) : Prop where
  fallback : ∀ d, o'.fallback = some d → o.fallback = some d ∨ GivesDefault props d
  constructors : ∀ cs, o'.constructors = some cs →
    o.constructors = some cs ∨ GivesConstructors props cs

theorem inputOption_readFrom {props : List Property} {o' : InputOptions} {p : Property}
    (hp : p ∈ props) (h : inputOption o p = .ok o') : ReadFrom props o o' := by
  cases p with
  | keyValue key value =>
    rw [inputOption] at h
    split at h
    · cases h
    · split at h
      · next cs hcs =>
        cases h
        refine ⟨fun _ => .inl, fun cs' hcs' => ?_⟩
        cases hcs'
        exact .inr ⟨key, value, hp, hcs⟩
      · cases h
    · cases h
      exact ⟨fun _ => .inl, fun _ => .inl⟩
    · cases h
      refine ⟨fun d hd => ?_, fun _ => .inl⟩
      cases hd
      exact .inr (.value key value hp)
    · cases h
      exact ⟨fun _ => .inl, fun _ => .inl⟩
  | method span key f =>
    rw [inputOption] at h
    split at h
    · cases h
    · cases h
      refine ⟨fun d hd => ?_, fun _ => .inl⟩
      cases hd
      exact .inr (.factory span key f hp)
    · cases h
      exact ⟨fun _ => .inl, fun _ => .inl⟩
  | _ => cases h

theorem foldlM_inputOption_readFrom {all props : List Property} {o' : InputOptions}
    (hall : props ⊆ all) (h : props.foldlM inputOption o = .ok o') : ReadFrom all o o' := by
  induction props generalizing o with
  | nil =>
    cases h
    exact ⟨fun _ => .inl, fun _ => .inl⟩
  | cons p props ih =>
    obtain ⟨o₁, hp, h⟩ := bind_eq_ok.1 h
    obtain ⟨hpall, hall⟩ := List.cons_subset.1 hall
    have hfirst := inputOption_readFrom hpall hp
    have hrest := ih hall h
    exact ⟨fun d hd => (hrest.fallback d hd).elim (hfirst.fallback d) .inr,
      fun cs hcs => (hrest.constructors cs hcs).elim (hfirst.constructors cs) .inr⟩

/-- The options of an input come from the properties of its first argument, or it is a type. -/
theorem inputOptions_eq_ok (h : inputOptions args = .ok o) :
    (∃ span props rest, args = .object span props :: rest ∧ ReadFrom props {} o) ∨
      o.fallback = none ∧ ∀ cs, o.constructors = some cs →
        ∃ e rest, args = e :: rest ∧ constructors? e = some cs := by
  rw [inputOptions.eq_def] at h
  split at h
  · cases h
    exact .inr ⟨rfl, by rintro cs ⟨⟩⟩
  · cases h
  · next span props rest =>
    exact .inl ⟨span, props, rest, rfl, foldlM_inputOption_readFrom (List.Subset.refl props) h⟩
  · next e rest _ _ =>
    split at h
    · next cs hcs =>
      cases h
      refine .inr ⟨rfl, fun cs' hcs' => ?_⟩
      cases hcs'
      exact ⟨e, rest, rfl, hcs⟩
    · cases h

theorem inputOptions_fallback {d : InputDefault} (h : inputOptions args = .ok o)
    (hd : o.fallback = some d) :
    ∃ span props rest, args = .object span props :: rest ∧ GivesDefault props d := by
  obtain ⟨span, props, rest, hargs, hread⟩ | ⟨hnone, -⟩ := inputOptions_eq_ok h
  · obtain hempty | hgives := hread.fallback d hd
    · cases hempty
    · exact ⟨span, props, rest, hargs, hgives⟩
  · rw [hnone] at hd
    cases hd

section

variable {P : Span → Prop}

theorem watchArguments_keeps {args : List Expr} {target : Expr} {options : Option Expr}
    (h : watchArguments args = .ok (target, options)) (hargs : exprsKeep P args) :
    exprKeeps P target ∧ optionKeeps P options := by
  obtain ⟨-, ⟨rfl, rfl⟩ | ⟨span, props, rest, rfl, rfl⟩⟩ := watchArguments_eq_ok.1 h
  · exact ⟨hargs.1, trivial⟩
  · exact ⟨hargs.1, hargs.2.1⟩

theorem propertyKeeps_of_mem {props : List Property} {p : Property} (h : propertiesKeep P props)
    (hp : p ∈ props) : propertyKeeps P p := by
  induction hp with
  | head => exact h.1
  | tail _ _ ih => exact ih h.2

theorem inputOptions_keeps {args : List Expr} {o : InputOptions} (h : inputOptions args = .ok o)
    (hargs : exprsKeep P args) : defaultKeeps P o.fallback := by
  cases hd : o.fallback with
  | none => trivial
  | some d =>
    obtain ⟨span, props, rest, rfl, hd⟩ := inputOptions_fallback h hd
    cases hd with
    | value key e hmem | factory span key f hmem => exact (propertyKeeps_of_mem hargs.1 hmem).2

end

/-! ## Decorators -/

/-- A decorator with its arguments in their new place. -/
def relocateCall (ρ : Span → Span) (call : DecoratorCall) : DecoratorCall :=
  ⟨call.name, relocateExprs ρ call.args, ρ call.span⟩

/-- A chosen decorator in its new place. -/
def relocateChoice (ρ : Span → Span) (choice : DecoratorKind × DecoratorCall) :
    DecoratorKind × DecoratorCall :=
  (choice.1, relocateCall ρ choice.2)

theorem of?_relocate (ρ : Span → Span) (d : Decorator) :
    DecoratorCall.of? (relocateDecorator ρ d) = (DecoratorCall.of? d).map (relocateCall ρ) := by
  obtain ⟨span, e⟩ := d
  cases e with
  | call span callee types args =>
    cases callee with
    | _ => rfl
  | _ => rfl

theorem recognized?_relocate (ρ : Span → Span) (d : Decorator) :
    recognized? (relocateDecorator ρ d) = (recognized? d).map (relocateChoice ρ) := by
  rw [recognized?, recognized?, of?_relocate]
  cases DecoratorCall.of? d with
  | none => rfl
  | some call =>
    show (DecoratorKind.ofName? call.name >>= fun kind => some (kind, relocateCall ρ call)) =
      (DecoratorKind.ofName? call.name >>= fun kind => some (kind, call)).map (relocateChoice ρ)
    cases DecoratorKind.ofName? call.name with
    | none | some kind => rfl

section

variable {ρ : Span → Span} {P : Span → Prop} {ds : List Decorator} {d : Decorator}
  {kind : DecoratorKind} {args : List Expr} {m : Member} {r : Role}

theorem chosen_relocate (ρ : Span → Span) (ds : List Decorator) :
    (ds.map (relocateDecorator ρ)).findSome? recognized? =
      (ds.findSome? recognized?).map (relocateChoice ρ) := by
  rw [List.findSome?_map, List.map_findSome?]
  exact congrArg (List.findSome? · ds) (funext (recognized?_relocate ρ))

theorem NoMeaning.relocate (h : NoMeaning ds) : NoMeaning (ds.map (relocateDecorator ρ)) := by
  rw [← findSome?_recognized?_eq_none, chosen_relocate, findSome?_recognized?_eq_none.2 h]
  rfl

theorem FirstMeaning.relocate (h : FirstMeaning ds d kind args) :
    ∃ d', FirstMeaning (ds.map (relocateDecorator ρ)) d' kind (relocateExprs ρ args) := by
  have hchosen : (ds.map (relocateDecorator ρ)).findSome? recognized? =
      some (kind, relocateCall ρ ⟨kind.name, args, d.span⟩) := by
    rw [chosen_relocate, h.findSome?]
    rfl
  obtain ⟨d', hfirst, -⟩ := findSome?_recognized?.1 hchosen
  exact ⟨d', hfirst⟩

/-- What the arguments of the first decorator with a meaning copy. -/
theorem FirstMeaning.args_keep (h : FirstMeaning ds d kind args) (hds : decoratorsKeep P ds) :
    exprsKeep P args := by
  obtain ⟨hd, hmeans⟩ := h.mem
  have hexpr := hds d hd
  cases hmeans with
  | name => trivial
  | call heq =>
    rw [heq] at hexpr
    exact hexpr.2.2

/-! ## Roles -/

theorem inputType_relocate (type : Option TypeText) (constructors : Option (List String)) :
    inputType (type.map (relocateType ρ)) constructors =
      relocateInputType ρ (inputType type constructors) := by
  cases type with
  | some t => rfl
  | none => cases constructors <;> rfl

/-- What becomes of a member moves with it. -/
theorem Becomes.relocate (h : Becomes m r) : Becomes (relocateMember ρ m) (relocateRole ρ r) := by
  have hstatic {key : Key} {name : Option String} (hkey : key.staticName? = name) :
      (relocateKey ρ key).staticName? = name :=
    (staticName?_relocate ρ key).trans hkey
  cases h with
  | unnamedField hkey => exact .unnamedField (hstatic hkey) ..
  | field hkey hplain => exact .field (hstatic hkey) hplain.relocate ..
  | ref hkey hfirst =>
    obtain ⟨d, hfirst⟩ := hfirst.relocate
    exact .ref (hstatic hkey) hfirst ..
  | @input _ _ _ _ args o hkey hfirst hargs span isReadonly type =>
    obtain ⟨d, hfirst⟩ := hfirst.relocate
    have hoptions : inputOptions (relocateExprs ρ args) = .ok (relocateOptions ρ o) := by
      rw [inputOptions_relocate, hargs]
      rfl
    rw [relocateRole, relocateInput, ← inputType_relocate]
    exact .input (hstatic hkey) hfirst hoptions ..
  | unnamedMethod hkey => exact .unnamedMethod (hstatic hkey) ..
  | watcher hkey hfirst hargs =>
    obtain ⟨d, hfirst⟩ := hfirst.relocate
    exact .watcher (hstatic hkey) hfirst (watchArguments_relocate ρ hargs) ..
  | event hkey hfirst hargs =>
    obtain ⟨d, hfirst⟩ := hfirst.relocate
    exact .event (hstatic hkey) hfirst ((eventName_relocate ρ ..).trans hargs) ..
  | getter hkey hplain => exact .getter (hstatic hkey) hplain.relocate ..
  | setter hkey hplain => exact .setter (hstatic hkey) hplain.relocate ..
  | lifecycle hkey hplain hhook => exact .lifecycle (hstatic hkey) hplain.relocate hhook ..
  | setupHook hkey hplain hsetup => exact .setupHook (hstatic hkey) hplain.relocate hsetup ..
  | method hkey hplain hhook hsetup => exact .method (hstatic hkey) hplain.relocate hhook hsetup ..
  | classOnly => exact .classOnly ..
  | empty => exact .empty

/-- A role copies what its member copies. -/
theorem Becomes.keeps (h : Becomes m r) (hm : memberKeeps P m) : roleKeeps P r := by
  cases h with
  | unnamedField | unnamedMethod | classOnly | empty => trivial
  | field | ref => exact hm.2
  | @input _ _ _ _ _ o _ hfirst hargs _ _ type =>
    refine ⟨?_, inputOptions_keeps hargs (hfirst.args_keep hm.1)⟩
    cases type with
    | some t => exact hm.2.1
    | none => cases o.constructors <;> trivial
  | watcher _ hfirst hargs =>
    obtain ⟨htarget, hoptions⟩ := watchArguments_keeps hargs (hfirst.args_keep hm.1)
    exact ⟨htarget, hoptions, hm.2⟩
  | event | getter | setter | lifecycle | setupHook | method => exact hm.2

end

/-! ## Tables -/

theorem upsert_map {α β : Type} {name : α → String} {name' : β → String} {f : α → β}
    (h : ∀ a, name' (f a) = name a) (entry : α) (as : List α) :
    upsert name' (f entry) (as.map f) = (upsert name entry as).map f := by
  induction as with
  | nil => rfl
  | cons a as ih =>
    rw [List.map_cons, upsert, upsert, h, h, ih]
    split <;> rfl

theorem updateAccessor_map {f change change' : Accessor → Accessor}
    (hname : ∀ a, (f a).name = a.name) (hempty : ∀ name, f { name } = { name })
    (hchange : ∀ a, change' (f a) = f (change a))
    (name : String) (as : List Accessor) :
    updateAccessor name change' (as.map f) = (updateAccessor name change as).map f := by
  induction as with
  | nil => rw [List.map_nil, updateAccessor, updateAccessor, List.map_singleton, ← hchange, hempty]
  | cons a as ih =>
    rw [List.map_cons, updateAccessor, updateAccessor, hname, hchange, ih]
    split <;> rfl

theorem hasBody_relocate (ρ : Span → Span) (f : Func) :
    (relocateFunc ρ f).hasBody = f.hasBody := by
  cases f
  rfl

theorem body_relocate (ρ : Span → Span) (f : Func) :
    (relocateFunc ρ f).body = relocateStmts ρ f.body := by
  cases f
  rfl

theorem stmtsKeep_body {P : Span → Prop} {f : Func} (h : funcKeeps P f) : stmtsKeep P f.body := by
  cases f
  exact h.2.2.2

namespace Tables

variable {ρ : Span → Span} {P : Span → Prop}

variable {t t' : Tables}

/-- A role that moved fills the tables that moved in the same way. -/
theorem code_place_relocate (t : Tables) (r : Role) :
    ((relocateTables ρ t).place (relocateRole ρ r)).code = relocateTables ρ (t.place r) := by
  cases r with
  | ref f =>
    simp only [relocateRole, place, relocateTables, code, Tables.mk.injEq, true_and, and_true]
    exact upsert_map (by intro; rfl) f t.refs
  | input i =>
    simp only [relocateRole, place, relocateTables, code, Tables.mk.injEq, true_and, and_true]
    exact upsert_map (by intro; rfl) i t.inputs
  | getter name f | setter name f =>
    simp only [relocateRole, place, relocateTables, code, Tables.mk.injEq, true_and, and_true]
    exact updateAccessor_map (by intro; rfl) (by intro; rfl) (by intro; rfl) name t.accessors
  | setupHook f =>
    simp only [relocateRole, place, hasBody_relocate, body_relocate]
    split <;> simp [relocateTables, code, relocateBody]
  | _ => simp [relocateRole, place, relocateTables, code, relocateBody, unsupported]

theorem code_foldl_place_relocate (t : Tables) (roles : List Role) :
    ((roles.map (relocateRole ρ)).foldl place (relocateTables ρ t)).code =
      relocateTables ρ (roles.foldl place t) := by
  induction roles generalizing t with
  | nil => rfl
  | cons r roles ih =>
    rw [List.map_cons, List.foldl_cons, List.foldl_cons, ← ih]
    exact code_foldl_place_congr (code_place_relocate t r) _

theorem relocateTables_congr (h : t.code = t'.code) : relocateTables ρ t = relocateTables ρ t' := by
  show relocateTables ρ t.code = relocateTables ρ t'.code
  rw [h]

/-! ## Modules -/

variable {source source' : List Char} {denied : List String}

/-- The tables copy what the items copy. -/
theorem MadeOf.keeps {items : List ModuleItem} (hitems : ∀ item ∈ items, itemKeeps P item)
    (h : t.MadeOf (fun r => ∃ m ∈ moduleMembers items, Becomes m r)
      (· ∈ items.flatMap besideItems)) : TablesKeep P t := by
  have hrole {r : Role} (hr : ∃ m ∈ moduleMembers items, Becomes m r) : roleKeeps P r := by
    obtain ⟨m, hm, hr⟩ := hr
    obtain ⟨item, hitem, hm⟩ := List.mem_flatMap.1 hm
    have hkeeps := hitems item hitem
    cases item with
    | component c => exact hr.keeps (hkeeps m hm)
    | _ => cases hm
  have hhalf {role : String → Func → Role} {f : Func}
      (heq : ∀ n, roleKeeps P (role n f) = funcKeeps P f)
      (hf : ∃ name, ∃ m ∈ moduleMembers items, Becomes m (role name f)) : funcKeeps P f := by
    obtain ⟨name, hf⟩ := hf
    exact heq name ▸ hrole hf
  refine ⟨fun f hf => hrole (h.refs f hf), fun i hi => hrole (h.inputs i hi),
    fun a ha f hf => hhalf (fun _ => rfl) (h.getters a ha f hf),
    fun a ha f hf => hhalf (fun _ => rfl) (h.setters a ha f hf),
    fun w hw => hrole (h.watchers w hw), fun e he => hrole (h.events e he), fun b hb => ?_⟩
  rcases h.body b hb with ⟨r, hr, hitem⟩ | ⟨index, rfl⟩ | hb
  · have hr := hrole hr
    cases r with
    | setupHook f =>
      rw [Role.item?] at hitem
      split at hitem
      · cases hitem
        exact stmtsKeep_body hr
      · cases hitem
    | lifecycle | field | method | unsupported =>
      cases hitem
      exact hr
    | _ => cases hitem
  · trivial
  · obtain ⟨item, hitem, hb⟩ := List.mem_flatMap.1 hb
    have hkeeps := hitems item hitem
    cases item with
    | importDecl | component => cases hb
    | _ =>
      cases List.mem_singleton.1 hb
      exact hkeeps

/-- An item that moved adds to the tables what the item added, moved. -/
theorem addItem_relocate {item : ModuleItem} (h : t.addItem source denied item = .ok t') :
    ∃ u, (relocateTables ρ t).addItem source' denied (relocateItem ρ item) =
      .ok u ∧ u.code = relocateTables ρ t' := by
  cases item with
  | component c =>
    obtain ⟨hroles, hcode⟩ := code_addComponent h
    have hroles' : ∀ m ∈ (relocateClass ρ c).members, HasRole source' m :=
      List.forall_mem_map.2 fun m hm => (becomes_roleOf (hroles m hm)).relocate.hasRole
    have hmap : (relocateClass ρ c).members.map (roleOf source') =
        (c.members.map (roleOf source)).map (relocateRole ρ) := by
      rw [relocateClass, List.map_map, List.map_map]
      exact List.map_congr_left fun m hm => (becomes_roleOf (hroles m hm)).relocate.roleOf_eq
    obtain ⟨u, hu⟩ := exists_addComponent hroles' (relocateTables ρ t)
    refine ⟨u, hu, ?_⟩
    rw [(code_addComponent hu).2, hmap, relocateTables_congr hcode, code_foldl_place_relocate]
  | importDecl decl =>
    cases h
    rw [addImport]
    refine ⟨_, rfl, ?_⟩
    show (if denied.contains (Text.afterLast '/' decl.source.value) then _ else _ : Tables).code = _
    split <;> simp [relocateTables, code]
  | _ =>
    cases h
    exact ⟨_, rfl, by simp [relocateTables, code, unsupported, relocateBody]⟩

theorem foldlM_addItem_relocate {items : List ModuleItem}
    (h : items.foldlM (addItem source denied) t = .ok t') :
    ∃ u, (items.map (relocateItem ρ)).foldlM (addItem source' denied) (relocateTables ρ t) =
      .ok u ∧ u.code = relocateTables ρ t' := by
  induction items generalizing t with
  | nil =>
    cases h
    exact ⟨_, rfl, rfl⟩
  | cons item items ih =>
    obtain ⟨t₁, hadd, h⟩ := bind_eq_ok.1 h
    obtain ⟨u₁, hadd', hcode₁⟩ := @addItem_relocate ρ _ _ source source' _ _ hadd
    obtain ⟨u, hfold, hcode⟩ := ih h
    obtain ⟨u', hfold', hcode'⟩ :=
      foldlM_addItem_congr (show (relocateTables ρ t₁).code = u₁.code from hcode₁.symm) hfold
    refine ⟨u', ?_, hcode'.trans hcode⟩
    rw [List.map_cons, List.foldlM_cons]
    exact bind_eq_ok.2 ⟨u₁, hadd', hfold'⟩

/-- The tables of a module that moved are its tables, moved. -/
theorem ofModule_relocate {items : List ModuleItem} (hitems : ∀ item ∈ items, itemKeeps P item)
    (h : ofModule source denied items = .ok t) :
    TablesKeep P t ∧ ∃ u, ofModule source' denied (items.map (relocateItem ρ)) = .ok u ∧
      u.code = relocateTables ρ t :=
  ⟨(ofModule_madeOf h).keeps hitems, foldlM_addItem_relocate h⟩

end Tables

end ScriptSetup.Component
