import ScriptSetup.Proofs.Component.MemberNames

/-!
# Decorators that cannot mean anything

What makes the decorator of a member a fault of the whole component is said here by the shapes of
the decorator and of its arguments. Only the first decorator of a member that has a meaning counts,
and only members with a name are looked at. An accessor counts as a method. The tables of a module
cannot be filled exactly when a member has such a decorator, and the first of these is reported.
-/

set_option autoImplicit false

namespace ScriptSetup.Component

open Script

variable {e : MalformedDecorator} {fault : DecoratorFault} {kind : DecoratorKind} {name : String}
  {args : List Expr} {call : DecoratorCall}

/-! ## Arguments that cannot mean anything -/

/-- The expression is a name, or an array of names and nothing else. -/
inductive NamesConstructors : Expr → Prop where
  | one (id : Ident) : NamesConstructors (.ident id)
  | many (span : Span) (ids : List Ident) : NamesConstructors (.array span (ids.map .ident))

/-- A property that cannot be an option of an input, with what is wrong. -/
inductive BadOption : Property → DecoratorFault → Prop where
  | spread (span : Span) (e : Expr) : BadOption (.spread span e) .spreadOption
  | shorthand (id : Ident) : BadOption (.shorthand id) .unsupportedOption
  | initialized (id : Ident) (value : Expr) :
    BadOption (.initialized id value) .unsupportedOption
  | getter (span : Span) (key : Key) (type : Option TypeText) (body : List Stmt) :
    BadOption (.getter span key type body) .unsupportedOption
  | setter (span : Span) (key : Key) (param : Pat) (body : List Stmt) :
    BadOption (.setter span key param body) .unsupportedOption
  | unnamedValue {key : Key} (hkey : key.staticName? = none) (value : Expr) :
    BadOption (.keyValue key value) .computedOption
  | unnamedMethod {key : Key} (hkey : key.staticName? = none) (span : Span) (f : Func) :
    BadOption (.method span key f) .computedOption
  | type {key : Key} {value : Expr} (hkey : key.staticName? = some "type")
      (hvalue : ¬ NamesConstructors value) : BadOption (.keyValue key value) .badType

/-- Arguments that cannot describe an input, with what is wrong. -/
inductive BadInput : List Expr → DecoratorFault → Prop where
  | spread (span : Span) (e : Expr) (rest : List Expr) :
    BadInput (.spread span e :: rest) .spreadArgument
  | option {props : List Property} {fault : DecoratorFault}
      (hprops : IsFirst BadOption props fault) (span : Span) (rest : List Expr) :
    BadInput (.object span props :: rest) fault
  | other {e : Expr} (hspread : ∀ span arg, e ≠ .spread span arg)
      (hobject : ∀ span props, e ≠ .object span props) (hnames : ¬ NamesConstructors e)
      (rest : List Expr) : BadInput (e :: rest) .badArgument

/-- Arguments that cannot describe a watcher, with what is wrong. -/
inductive BadWatch : List Expr → DecoratorFault → Prop where
  | missing : BadWatch [] .noWatchedPath
  | spread (span : Span) (e : Expr) (rest : List Expr) :
    BadWatch (.spread span e :: rest) .noWatchedPath
  | options {target options : Expr} (htarget : ∀ span arg, target ≠ .spread span arg)
      (hoptions : ∀ span props, options ≠ .object span props) (rest : List Expr) :
    BadWatch (target :: options :: rest) .badWatchOptions

/-- Arguments that cannot name an event, with what is wrong. -/
inductive BadEvent : List Expr → DecoratorFault → Prop where
  | notString {e : Expr} (hstring : ∀ lit, e ≠ .string lit) (rest : List Expr) :
    BadEvent (e :: rest) .badEventName

theorem exprName?_eq_some {e : Expr} :
    exprName? e = some name ↔ ∃ id : Ident, e = .ident id ∧ id.name = name := by
  constructor
  · intro h
    rw [exprName?.eq_def] at h
    split at h
    · rename_i id
      exact ⟨id, rfl, Option.some.inj h⟩
    · cases h
  · rintro ⟨id, rfl, rfl⟩
    rfl

theorem mapM_exprName? (es : List Expr) :
    (∃ names, es.mapM exprName? = some names) ↔ ∃ ids : List Ident, es = ids.map .ident := by
  induction es with
  | nil => exact iff_of_true ⟨[], rfl⟩ ⟨[], rfl⟩
  | cons e es ih =>
    rw [List.mapM_cons]
    constructor
    · rintro ⟨names, h⟩
      obtain ⟨name, hname, h⟩ := Option.bind_eq_some_iff.1 h
      obtain ⟨rest, hrest, -⟩ := Option.bind_eq_some_iff.1 h
      obtain ⟨id, rfl, -⟩ := exprName?_eq_some.1 hname
      obtain ⟨ids, rfl⟩ := ih.1 ⟨rest, hrest⟩
      exact ⟨id :: ids, rfl⟩
    · rintro ⟨ids, h⟩
      cases ids with
      | nil => cases h
      | cons id ids =>
        cases h
        obtain ⟨rest, hrest⟩ := ih.2 ⟨ids, rfl⟩
        exact ⟨id.name :: rest, Option.bind_eq_some_iff.2
          ⟨id.name, rfl, Option.bind_eq_some_iff.2 ⟨rest, hrest, rfl⟩⟩⟩

theorem constructors?_eq_none {e : Expr} : constructors? e = none ↔ ¬ NamesConstructors e := by
  rw [← Option.not_isSome_iff_eq_none, Option.isSome_iff_exists]
  refine not_congr ⟨?_, ?_⟩
  · rintro ⟨names, h⟩
    rw [constructors?.eq_def] at h
    split at h
    · exact .one _
    · obtain ⟨ids, rfl⟩ := (mapM_exprName? _).1 ⟨names, h⟩
      exact .many _ ids
    · cases h
  · rintro (⟨id⟩ | ⟨span, ids⟩)
    · exact ⟨[id.name], rfl⟩
    · exact (mapM_exprName? _).2 ⟨ids, rfl⟩

/-! ## Reading the arguments fails on these -/

theorem inputOption_eq_error {o : InputOptions} {p : Property} :
    inputOption o p = .error fault ↔ BadOption p fault := by
  constructor
  · intro h
    rw [inputOption.eq_def] at h
    split at h
    · split at h
      · rename_i hkey
        cases h
        exact .unnamedValue hkey _
      · rename_i hkey
        split at h
        · cases h
        · rename_i hvalue
          cases h
          exact .type hkey (constructors?_eq_none.1 hvalue)
      · cases h
      · cases h
      · cases h
    · split at h
      · rename_i hkey
        cases h
        exact .unnamedMethod hkey _ _
      · cases h
      · cases h
    · cases h
      exact .spread _ _
    · rename_i hvalue hmethod hspread
      cases h
      cases p with
      | spread span e => exact (hspread span e rfl).elim
      | keyValue key value => exact (hvalue key value rfl).elim
      | method span key f => exact (hmethod span key f rfl).elim
      | shorthand id => exact .shorthand id
      | initialized id value => exact .initialized id value
      | getter span key type body => exact .getter span key type body
      | setter span key param body => exact .setter span key param body
  · intro h
    cases h with
    | spread | shorthand | initialized | getter | setter => rfl
    | unnamedValue hkey | unnamedMethod hkey => simp [inputOption, hkey]
    | type hkey hvalue => simp [inputOption, hkey, constructors?_eq_none.2 hvalue]

theorem foldlM_inputOption (props : List Property) (o : InputOptions) :
    props.foldlM inputOption o = .error fault ↔ IsFirst BadOption props fault := by
  refine foldlM_eq_error (fun o p fault => ?_) props o
  exact inputOption_eq_error

theorem inputOptions_eq_error : inputOptions args = .error fault ↔ BadInput args fault := by
  constructor
  · intro h
    rw [inputOptions.eq_def] at h
    split at h
    · cases h
    · cases h
      exact .spread _ _ _
    · exact .option ((foldlM_inputOption _ _).1 h) _ _
    · rename_i hspread hobject
      split at h
      · cases h
      · rename_i hnames
        cases h
        exact .other (fun span arg => hspread span arg) (fun span props => hobject span props)
          (constructors?_eq_none.1 hnames) _
  · intro h
    cases h with
    | spread => rfl
    | option hprops => exact (foldlM_inputOption _ _).2 hprops
    | other hspread hobject hnames =>
      rw [inputOptions.eq_4 _ _ hspread hobject, constructors?_eq_none.2 hnames]

theorem watchArguments_eq_error : watchArguments args = .error fault ↔ BadWatch args fault := by
  constructor
  · intro h
    rw [watchArguments.eq_def] at h
    split at h
    · cases h
      exact .missing
    · cases h
      exact .spread _ _ _
    · cases h
    · cases h
    · rename_i hspread hobject
      cases h
      exact .options (fun span arg => hspread span arg) (fun span props => hobject span props) _
  · intro h
    cases h with
    | missing | spread => rfl
    | options htarget hoptions => rw [watchArguments.eq_5 _ _ _ htarget hoptions]

theorem eventName_eq_error {method : String} :
    eventName method args = .error fault ↔ BadEvent args fault := by
  constructor
  · intro h
    rw [eventName.eq_def] at h
    split at h
    · cases h
    · cases h
    · rename_i hnil hstring
      cases h
      cases args with
      | nil => exact (hnil rfl).elim
      | cons e rest => exact .notString (fun lit heq => hstring lit rest (heq ▸ rfl)) rest
  · rintro ⟨hstring, rest⟩
    rw [eventName.eq_3]
    · exact nofun
    · intro lit rest' heq
      cases heq
      exact hstring lit rfl

/-! ## Members with such a decorator -/

/-- A decorator that cannot mean anything on a field, with what is wrong. -/
inductive FieldMisuse : DecoratorKind → List Expr → DecoratorFault → Prop where
  | watch (args : List Expr) : FieldMisuse .watch args .onlyOnMethods
  | emit (args : List Expr) : FieldMisuse .emit args .onlyOnMethods
  | prop {args : List Expr} {fault : DecoratorFault} (hargs : BadInput args fault) :
    FieldMisuse .prop args fault

/-- A decorator that cannot mean anything on a method or accessor, with what is wrong. -/
inductive MethodMisuse : DecoratorKind → List Expr → DecoratorFault → Prop where
  | ref (args : List Expr) : MethodMisuse .ref args .onlyOnFields
  | prop (args : List Expr) : MethodMisuse .prop args .onlyOnFields
  | watch {args : List Expr} {fault : DecoratorFault} (hargs : BadWatch args fault) :
    MethodMisuse .watch args fault
  | emit {args : List Expr} {fault : DecoratorFault} (hargs : BadEvent args fault) :
    MethodMisuse .emit args fault

/-- The member has a name, and its first decorator with a meaning cannot mean anything there. The
report names both and stands at the decorator. -/
inductive Malformed : Member → MalformedDecorator → Prop where
  | field {ds : List Decorator} {key : Key} {name : String} {d : Decorator} {kind : DecoratorKind}
      {args : List Expr} {fault : DecoratorFault} (hkey : key.staticName? = some name)
      (hfirst : FirstMeaning ds d kind args) (hmisuse : FieldMisuse kind args fault)
      (span : Span) (isReadonly : Bool) (type : Option TypeText) (value : Option Expr) :
    Malformed (.field span ds isReadonly key type value) ⟨kind, name, fault, d.span⟩
  | method {ds : List Decorator} {key : Key} {name : String} {d : Decorator} {kind : DecoratorKind}
      {args : List Expr} {fault : DecoratorFault} (hkey : key.staticName? = some name)
      (hfirst : FirstMeaning ds d kind args) (hmisuse : MethodMisuse kind args fault)
      (span : Span) (methodKind : MethodKind) (f : Func)
      (paramDecorators : List (List Decorator)) :
    Malformed (.method span ds methodKind key f paramDecorators) ⟨kind, name, fault, d.span⟩

/-- A step that goes on from the arguments of a decorator fails when they cannot be read. -/
theorem bind_malformed_eq_error {α β : Type} {member : String} {r : Except DecoratorFault α}
    {f : α → β} : (malformed kind member call r >>= fun a => .ok (f a)) = .error e ↔
      ∃ fault, r = .error fault ∧ e = ⟨kind, member, fault, call.span⟩ := by
  rw [bind_eq_error, malformed, mapError_eq_error]
  simp [eq_comm]

theorem fieldRole_eq_error {chosen : Option (DecoratorKind × DecoratorCall)} {isReadonly : Bool}
    {type : Option TypeText} {value : Option Expr} :
    fieldRole name chosen isReadonly type value = .error e ↔
      ∃ kind call fault, chosen = some (kind, call) ∧ FieldMisuse kind call.args fault ∧
        e = ⟨kind, name, fault, call.span⟩ := by
  constructor
  · intro h
    match chosen with
    | none => cases h
    | some (.ref, call) => cases h
    | some (.prop, call) =>
      obtain ⟨fault, hargs, rfl⟩ := bind_malformed_eq_error.1 h
      exact ⟨.prop, call, fault, rfl, .prop (inputOptions_eq_error.1 hargs), rfl⟩
    | some (.watch, call) =>
      cases h
      exact ⟨.watch, call, _, rfl, .watch call.args, rfl⟩
    | some (.emit, call) =>
      cases h
      exact ⟨.emit, call, _, rfl, .emit call.args, rfl⟩
  · rintro ⟨kind, call, fault, rfl, hmisuse, rfl⟩
    cases hmisuse with
    | watch | emit => rfl
    | prop hargs =>
      exact bind_malformed_eq_error.2 ⟨fault, inputOptions_eq_error.2 hargs, rfl⟩

theorem methodRole_eq_error {chosen : Option (DecoratorKind × DecoratorCall)}
    {methodKind : MethodKind} {f : Func} : methodRole name chosen methodKind f = .error e ↔
      ∃ kind call fault, chosen = some (kind, call) ∧ MethodMisuse kind call.args fault ∧
        e = ⟨kind, name, fault, call.span⟩ := by
  constructor
  · intro h
    match chosen with
    | none => cases h
    | some (.ref, call) =>
      cases h
      exact ⟨.ref, call, _, rfl, .ref call.args, rfl⟩
    | some (.prop, call) =>
      cases h
      exact ⟨.prop, call, _, rfl, .prop call.args, rfl⟩
    | some (.watch, call) =>
      obtain ⟨fault, hargs, rfl⟩ := bind_malformed_eq_error.1 h
      exact ⟨.watch, call, fault, rfl, .watch (watchArguments_eq_error.1 hargs), rfl⟩
    | some (.emit, call) =>
      obtain ⟨fault, hargs, rfl⟩ := bind_malformed_eq_error.1 h
      exact ⟨.emit, call, fault, rfl, .emit (eventName_eq_error.1 hargs), rfl⟩
  · rintro ⟨kind, call, fault, rfl, hmisuse, rfl⟩
    cases hmisuse with
    | ref | prop => rfl
    | watch hargs =>
      exact bind_malformed_eq_error.2 ⟨fault, watchArguments_eq_error.2 hargs, rfl⟩
    | emit hargs =>
      exact bind_malformed_eq_error.2 ⟨fault, eventName_eq_error.2 hargs, rfl⟩

/-- A member has no role exactly when its decorator cannot mean anything. -/
theorem memberRole_eq_error {source : List Char} {m : Member} :
    memberRole source m = .error e ↔ Malformed m e := by
  have hnamed {role : Except MalformedDecorator Role} {findings : List Finding} :
      (role >>= fun role => .ok (role, findings)) = Except.error e ↔ role = .error e := by
    cases role <;> simp [bind, Except.bind]
  constructor
  · intro h
    cases m with
    | field span ds isReadonly key type value =>
      cases hkey : key.staticName? with
      | none =>
        rw [memberRole, hkey] at h
        cases h
      | some name =>
        rw [memberRole_field hkey, hnamed, fieldRole_eq_error] at h
        obtain ⟨kind, call, fault, hchosen, hmisuse, rfl⟩ := h
        obtain ⟨d, hfirst, hcall⟩ := findSome?_recognized?.1 hchosen
        rw [hcall]
        exact .field hkey hfirst hmisuse ..
    | method span ds kind key f ps =>
      cases hkey : key.staticName? with
      | none =>
        rw [memberRole, hkey] at h
        cases h
      | some name =>
        rw [memberRole_method hkey, hnamed, methodRole_eq_error] at h
        obtain ⟨kind, call, fault, hchosen, hmisuse, rfl⟩ := h
        obtain ⟨d, hfirst, hcall⟩ := findSome?_recognized?.1 hchosen
        rw [hcall]
        exact .method hkey hfirst hmisuse ..
    | classOnly | empty => cases h
  · intro h
    cases h with
    | field hkey hfirst hmisuse =>
      rw [memberRole_field hkey, hnamed, fieldRole_eq_error]
      exact ⟨_, _, _, hfirst.findSome?, hmisuse, rfl⟩
    | method hkey hfirst hmisuse =>
      rw [memberRole_method hkey, hnamed, methodRole_eq_error]
      exact ⟨_, _, _, hfirst.findSome?, hmisuse, rfl⟩

/-! ## Modules with such a member -/

section

variable {source : List Char} {denied : List String} {e : MalformedDecorator}

theorem Tables.addMember_eq_error {t : Tables} {m : Member} :
    t.addMember source m = .error e ↔ Malformed m e := by
  rw [Tables.addMember, bind_eq_error, memberRole_eq_error]
  refine or_iff_left ?_
  rintro ⟨found, -, h⟩
  cases h

theorem Tables.addItem_eq_error {t : Tables} {item : ModuleItem} :
    t.addItem source denied item = .error e ↔ IsFirst Malformed (itemMembers item) e := by
  cases item with
  | component c =>
    rw [Tables.addItem, Tables.addComponent, bind_eq_error, itemMembers]
    refine (or_iff_left ?_).trans (foldlM_eq_error (fun t m e => ?_) c.members _)
    · rintro ⟨t', -, h⟩
      cases h
    · exact Tables.addMember_eq_error
  | _ => exact iff_of_false (by rintro ⟨⟩) not_isFirst_nil

/-- The tables of a module cannot be filled exactly when a member of the component has a decorator
that cannot mean anything. What is reported is then the first such decorator, with the name of its
member and its place. -/
theorem ofModule_fails_iff (source : List Char) (denied : List String) (items : List ModuleItem) :
    ((∃ e, Tables.ofModule source denied items = .error e) ↔
      ∃ m ∈ moduleMembers items, ∃ e, Malformed m e) ∧
    ∀ e, Tables.ofModule source denied items = .error e ↔
      IsFirst Malformed (moduleMembers items) e := by
  have hfirst (e : MalformedDecorator) : Tables.ofModule source denied items = .error e ↔
      IsFirst Malformed (moduleMembers items) e := by
    rw [moduleMembers, isFirst_flatMap]
    refine foldlM_eq_error (fun t item e => ?_) items ({} : Tables)
    exact Tables.addItem_eq_error
  refine ⟨?_, hfirst⟩
  simp only [hfirst, exists_isFirst]

end

end ScriptSetup.Component
