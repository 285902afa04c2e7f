import ScriptSetup.Proofs.Component.RoleOrder

/-!
# What becomes of a member

What becomes of a member is decided by its first decorator with a meaning, then by whether it is an
accessor, then by its name. `Becomes` lists the cases, and a member has a role exactly in one of
them.
-/

set_option autoImplicit false

namespace ScriptSetup.Component

open Script

variable {kind : DecoratorKind} {name : String} {args : List Expr} {call : DecoratorCall}
  {ds : List Decorator} {d : Decorator} {source : List Char} {m : Member} {r : Role}

/-! ## Decorators with a meaning -/

/-- The decorator is the name of a kind, without arguments, or a call of it with arguments. -/
inductive Means (d : Decorator) (kind : DecoratorKind) : List Expr → Prop where
  | name {id : Ident} (hexpr : d.expr = .ident id) (hname : id.name = kind.name) : Means d kind []
  | call {span : Span} {id : Ident} {types : Option TypeText} {args : List Expr}
      (hexpr : d.expr = .call span (.ident id) types args) (hname : id.name = kind.name) :
      Means d kind args

/-- The first decorator with a meaning. -/
def FirstMeaning (ds : List Decorator) (d : Decorator) (kind : DecoratorKind) (args : List Expr) :
    Prop :=
  ∃ before after, ds = before ++ d :: after ∧
    (∀ d' ∈ before, ∀ kind' args', ¬ Means d' kind' args') ∧ Means d kind args

theorem DecoratorKind.ofName?_eq_some : ofName? name = some kind ↔ name = kind.name := by
  constructor
  · intro h
    rw [ofName?.eq_def] at h
    split at h
    · cases h
      rfl
    · cases h
      rfl
    · cases h
      rfl
    · cases h
      rfl
    · cases h
  · rintro rfl
    cases kind <;> rfl

theorem recognized?_eq_some {d : Decorator} : recognized? d = some (kind, call) ↔
      Means d kind call.args ∧ call = ⟨kind.name, call.args, d.span⟩ := by
  constructor
  · intro h
    obtain ⟨call', hcall, h⟩ := Option.bind_eq_some_iff.1 h
    obtain ⟨kind', hkind, h⟩ := Option.bind_eq_some_iff.1 h
    cases h
    have hname := DecoratorKind.ofName?_eq_some.1 hkind
    rw [DecoratorCall.of?] at hcall
    split at hcall
    · rename_i id hexpr
      cases hcall
      exact ⟨.name hexpr hname, by rw [← hname]⟩
    · rename_i span id types args hexpr
      cases hcall
      exact ⟨.call hexpr hname, by rw [← hname]⟩
    · cases hcall
  · obtain ⟨name, args, span⟩ := call
    rintro ⟨hmeans, hcall⟩
    obtain ⟨rfl, -, rfl⟩ := DecoratorCall.mk.inj hcall
    have hof : DecoratorCall.of? d = some ⟨kind.name, args, d.span⟩ := by
      rw [DecoratorCall.of?]
      cases hmeans with
      | name hexpr hname | call hexpr hname => rw [hexpr, ← hname]
    have hkind := DecoratorKind.ofName?_eq_some.2 (rfl : kind.name = kind.name)
    exact Option.bind_eq_some_iff.2 ⟨_, hof, Option.bind_eq_some_iff.2 ⟨kind, hkind, rfl⟩⟩

theorem recognized?_eq_none {d : Decorator} :
    recognized? d = none ↔ ∀ kind args, ¬ Means d kind args := by
  constructor
  · intro h kind args hmeans
    have hsome : recognized? d = some (kind, ⟨kind.name, args, d.span⟩) :=
      recognized?_eq_some.2 ⟨hmeans, rfl⟩
    cases h.symm.trans hsome
  · intro h
    cases hd : recognized? d with
    | none => rfl
    | some found => exact (h found.1 found.2.args (recognized?_eq_some.1 hd).1).elim

theorem findSome?_recognized? {ds : List Decorator} : ds.findSome? recognized? = some (kind, call) ↔
      ∃ d, FirstMeaning ds d kind call.args ∧ call = ⟨kind.name, call.args, d.span⟩ := by
  rw [List.findSome?_eq_some_iff]
  simp only [recognized?_eq_some, recognized?_eq_none]
  constructor
  · rintro ⟨before, d, after, rfl, ⟨hmeans, hcall⟩, hbefore⟩
    exact ⟨d, ⟨before, after, rfl, hbefore, hmeans⟩, hcall⟩
  · rintro ⟨d, ⟨before, after, rfl, hbefore, hmeans⟩, hcall⟩
    exact ⟨before, d, after, rfl, ⟨hmeans, hcall⟩, hbefore⟩

/-- No decorator has a meaning. -/
def NoMeaning (ds : List Decorator) : Prop :=
  ∀ d ∈ ds, ∀ kind args, ¬ Means d kind args

theorem findSome?_recognized?_eq_none : ds.findSome? recognized? = none ↔ NoMeaning ds := by
  simp only [List.findSome?_eq_none_iff, recognized?_eq_none, NoMeaning]

theorem FirstMeaning.findSome? (h : FirstMeaning ds d kind args) :
    ds.findSome? recognized? = some (kind, ⟨kind.name, args, d.span⟩) :=
  findSome?_recognized?.2 ⟨d, h, rfl⟩

theorem FirstMeaning.unique {d' : Decorator} {kind' : DecoratorKind} {args' : List Expr}
    (h : FirstMeaning ds d kind args) (h' : FirstMeaning ds d' kind' args') : kind = kind' :=
  congrArg Prod.fst (Option.some.inj (h.findSome?.symm.trans h'.findSome?))

theorem FirstMeaning.not_noMeaning (h : FirstMeaning ds d kind args) : ¬ NoMeaning ds := by
  intro hplain
  cases h.findSome?.symm.trans (findSome?_recognized?_eq_none.2 hplain)

theorem FirstMeaning.mem (h : FirstMeaning ds d kind args) : d ∈ ds ∧ Means d kind args := by
  obtain ⟨before, after, rfl, -, hmeans⟩ := h
  exact ⟨List.mem_append_right before List.mem_cons_self, hmeans⟩

/-- What becomes of a member. -/
inductive Becomes : Member → Role → Prop where
  | unnamedField {key : Key} (hkey : key.staticName? = none) (span : Span) (ds : List Decorator)
      (isReadonly : Bool) (type : Option TypeText) (value : Option Expr) :
    Becomes (.field span ds isReadonly key type value) (.unsupported "computed field name" span)
  | field {key : Key} {name : String} {ds : List Decorator} (hkey : key.staticName? = some name)
      (hplain : NoMeaning ds) (span : Span) (isReadonly : Bool) (type : Option TypeText)
      (value : Option Expr) :
    Becomes (.field span ds isReadonly key type value) (.field name isReadonly type value)
  | ref {key : Key} {name : String} {ds : List Decorator} {d : Decorator} {args : List Expr}
      (hkey : key.staticName? = some name) (hfirst : FirstMeaning ds d .ref args) (span : Span)
      (isReadonly : Bool) (type : Option TypeText) (value : Option Expr) :
    Becomes (.field span ds isReadonly key type value) (.ref ⟨name, type, value⟩)
  | input {key : Key} {name : String} {ds : List Decorator} {d : Decorator} {args : List Expr}
      {o : InputOptions} (hkey : key.staticName? = some name)
      (hfirst : FirstMeaning ds d .prop args) (hargs : inputOptions args = .ok o) (span : Span)
      (isReadonly : Bool) (type : Option TypeText) (value : Option Expr) :
    Becomes (.field span ds isReadonly key type value)
      (.input ⟨name, inputType type o.constructors, o.required, o.fallback⟩)
  | unnamedMethod {key : Key} (hkey : key.staticName? = none) (span : Span) (ds : List Decorator)
      (kind : MethodKind) (f : Func) (ps : List (List Decorator)) :
    Becomes (.method span ds kind key f ps) (.unsupported "computed method name" span)
  | watcher {key : Key} {name : String} {ds : List Decorator} {d : Decorator} {args : List Expr}
      {target : Expr} {options : Option Expr} (hkey : key.staticName? = some name)
      (hfirst : FirstMeaning ds d .watch args) (hargs : watchArguments args = .ok (target, options))
      (span : Span) (kind : MethodKind) (f : Func) (ps : List (List Decorator)) :
    Becomes (.method span ds kind key f ps) (.watcher ⟨target, options, f⟩)
  | event {key : Key} {name : String} {ds : List Decorator} {d : Decorator} {args : List Expr}
      {event : String} (hkey : key.staticName? = some name)
      (hfirst : FirstMeaning ds d .emit args) (hargs : eventName name args = .ok event)
      (span : Span) (kind : MethodKind) (f : Func) (ps : List (List Decorator)) :
    Becomes (.method span ds kind key f ps) (.event ⟨name, event, f⟩)
  | getter {key : Key} {name : String} {ds : List Decorator} (hkey : key.staticName? = some name)
      (hplain : NoMeaning ds) (span : Span) (f : Func) (ps : List (List Decorator)) :
    Becomes (.method span ds .getter key f ps) (.getter name f)
  | setter {key : Key} {name : String} {ds : List Decorator} (hkey : key.staticName? = some name)
      (hplain : NoMeaning ds) (span : Span) (f : Func) (ps : List (List Decorator)) :
    Becomes (.method span ds .setter key f ps) (.setter name f)
  | lifecycle {key : Key} {name hook : String} {ds : List Decorator}
      (hkey : key.staticName? = some name) (hplain : NoMeaning ds)
      (hhook : lifecycleTarget? name = some hook) (span : Span) (f : Func)
      (ps : List (List Decorator)) :
    Becomes (.method span ds .method key f ps) (.lifecycle hook f)
  | setupHook {key : Key} {name : String} {ds : List Decorator}
      (hkey : key.staticName? = some name) (hplain : NoMeaning ds)
      (hsetup : isSetupHook name = true) (span : Span) (f : Func) (ps : List (List Decorator)) :
    Becomes (.method span ds .method key f ps) (.setupHook f)
  | method {key : Key} {name : String} {ds : List Decorator} (hkey : key.staticName? = some name)
      (hplain : NoMeaning ds) (hhook : lifecycleTarget? name = none)
      (hsetup : isSetupHook name = false) (span : Span) (f : Func) (ps : List (List Decorator)) :
    Becomes (.method span ds .method key f ps) (.method name f)
  | classOnly (what : ClassOnly) (span : Span) (inside : List Ident) :
    Becomes (.classOnly what span inside) (.unsupported what.text span)
  | empty : Becomes .empty .nothing

/-- The first decorator with a meaning is chosen. -/
theorem fst_chooseDecorator (source : List Char) (member : String) (ds : List Decorator) :
    (chooseDecorator source member ds).1 = ds.findSome? recognized? := by
  have hfold (step : Option (DecoratorKind × DecoratorCall) × List Finding → Decorator →
        Option (DecoratorKind × DecoratorCall) × List Finding)
      (hstep : ∀ state d, (step state d).1 = state.1.or (recognized? d)) (ds : List Decorator)
      (state : Option (DecoratorKind × DecoratorCall) × List Finding) :
      (ds.foldl step state).1 = state.1.or (ds.findSome? recognized?) := by
    induction ds generalizing state with
    | nil => exact (Option.or_none).symm
    | cons d ds ih =>
      rw [List.foldl_cons, ih, hstep, List.findSome?_cons]
      cases state.1 with
      | some choice => rfl
      | none => cases recognized? d <;> rfl
  refine (hfold _ (fun state d => ?_) ds (none, [])).trans (Option.none_or)
  obtain ⟨chosen, findings⟩ := state
  cases chosen with
  | some choice => rfl
  | none => cases recognized? d <;> rfl

/-- What is found about decorators is that they are dropped. -/
theorem mem_chooseDecorator {member : String} {f : Finding}
    (h : f ∈ (chooseDecorator source member ds).2) :
    ∃ name, f.cause = .droppedDecorator name member := by
  have hfold (step : Option (DecoratorKind × DecoratorCall) × List Finding → Decorator →
        Option (DecoratorKind × DecoratorCall) × List Finding)
      (hstep : ∀ state d, ∃ dropped, (step state d).2 = state.2 ++ dropped ∧
        ∀ f ∈ dropped, ∃ name, f.cause = .droppedDecorator name member)
      (ds : List Decorator) (state : Option (DecoratorKind × DecoratorCall) × List Finding)
      (hstate : ∀ f ∈ state.2, ∃ name, f.cause = .droppedDecorator name member) :
      ∀ f ∈ (ds.foldl step state).2, ∃ name, f.cause = .droppedDecorator name member := by
    induction ds generalizing state with
    | nil => exact hstate
    | cons d ds ih =>
      obtain ⟨dropped, happend, hdropped⟩ := hstep state d
      exact ih _ (happend ▸ List.forall_mem_append.2 ⟨hstate, hdropped⟩)
  refine hfold _ (fun state d => ?_) ds (none, []) (fun _ => nofun) f h
  obtain ⟨chosen, findings⟩ := state
  cases chosen with
  | some choice => exact ⟨_, rfl, List.forall_mem_singleton.2 ⟨_, rfl⟩⟩
  | none =>
    cases recognized? d with
    | some found => exact ⟨[], (List.append_nil _).symm, fun _ => nofun⟩
    | none => exact ⟨_, rfl, List.forall_mem_singleton.2 ⟨_, rfl⟩⟩

/-! ## Roles -/

section

variable {span : Span} {isReadonly : Bool} {key : Key} {type : Option TypeText}
  {value : Option Expr} {methodKind : MethodKind} {f : Func} {ps : List (List Decorator)}

theorem memberRole_field (hkey : key.staticName? = some name) :
    memberRole source (.field span ds isReadonly key type value) =
      fieldRole name (ds.findSome? recognized?) isReadonly type value >>= fun role =>
        .ok (role, (chooseDecorator source name ds).2) := by
  rw [memberRole, hkey, ← fst_chooseDecorator source name]
  rfl

theorem memberRole_method (hkey : key.staticName? = some name) :
    memberRole source (.method span ds methodKind key f ps) =
      methodRole name (ds.findSome? recognized?) methodKind f >>= fun role =>
        .ok (role, (chooseDecorator source name ds).2) := by
  rw [memberRole, hkey, ← fst_chooseDecorator source name]
  rfl

theorem becomes_of_fieldRole (hkey : key.staticName? = some name)
    (h : fieldRole name (ds.findSome? recognized?) isReadonly type value = .ok r) :
    Becomes (.field span ds isReadonly key type value) r := by
  cases hchosen : ds.findSome? recognized? with
  | none =>
    rw [hchosen] at h
    cases h
    exact .field hkey (findSome?_recognized?_eq_none.1 hchosen) ..
  | some choice =>
    obtain ⟨kind, call⟩ := choice
    obtain ⟨d, hfirst, -⟩ := findSome?_recognized?.1 hchosen
    rw [hchosen] at h
    cases kind with
    | ref =>
      cases h
      exact .ref hkey hfirst ..
    | prop =>
      obtain ⟨o, hargs, h⟩ := bind_eq_ok.1 h
      cases h
      exact .input hkey hfirst (mapError_eq_ok.1 hargs) ..
    | watch | emit => cases h

theorem becomes_of_methodRole (hkey : key.staticName? = some name)
    (h : methodRole name (ds.findSome? recognized?) methodKind f = .ok r) :
    Becomes (.method span ds methodKind key f ps) r := by
  cases hchosen : ds.findSome? recognized? with
  | none =>
    have hplain := findSome?_recognized?_eq_none.1 hchosen
    rw [hchosen] at h
    cases methodKind with
    | getter =>
      cases h
      exact .getter hkey hplain ..
    | setter =>
      cases h
      exact .setter hkey hplain ..
    | method =>
      rw [methodRole] at h
      cases h
      split
      · rename_i hook hhook
        exact .lifecycle hkey hplain hhook ..
      · rename_i hhook
        split
        · rename_i hsetup
          exact .setupHook hkey hplain hsetup ..
        · rename_i hsetup
          exact .method hkey hplain hhook (by simpa using hsetup) ..
  | some choice =>
    obtain ⟨kind, call⟩ := choice
    obtain ⟨d, hfirst, -⟩ := findSome?_recognized?.1 hchosen
    rw [hchosen] at h
    cases kind with
    | ref | prop => cases h
    | watch =>
      obtain ⟨⟨target, options⟩, hargs, h⟩ := bind_eq_ok.1 h
      cases h
      exact .watcher hkey hfirst (mapError_eq_ok.1 hargs) ..
    | emit =>
      obtain ⟨event, hargs, h⟩ := bind_eq_ok.1 h
      cases h
      exact .event hkey hfirst (mapError_eq_ok.1 hargs) ..

end

/-- The role of a member is one of the cases, and what is found about it is that decorators are
dropped. -/
theorem becomes_of_memberRole {findings : List Finding}
    (h : memberRole source m = .ok (r, findings)) :
    Becomes m r ∧ ∀ f ∈ findings, ∃ name member, f.cause = .droppedDecorator name member := by
  have hdropped (member : String) (ds : List Decorator) :
      ∀ f ∈ (chooseDecorator source member ds).2,
        ∃ name member, f.cause = .droppedDecorator name member := by
    intro f hf
    obtain ⟨name, hname⟩ := mem_chooseDecorator hf
    exact ⟨name, member, hname⟩
  cases m with
  | field span ds isReadonly key type value =>
    cases hkey : key.staticName? with
    | none =>
      rw [memberRole, hkey] at h
      cases h
      exact ⟨.unnamedField hkey .., nofun⟩
    | some name =>
      rw [memberRole_field hkey] at h
      obtain ⟨role, hrole, h⟩ := bind_eq_ok.1 h
      cases h
      exact ⟨becomes_of_fieldRole hkey hrole, hdropped name ds⟩
  | method span ds kind key f ps =>
    cases hkey : key.staticName? with
    | none =>
      rw [memberRole, hkey] at h
      cases h
      exact ⟨.unnamedMethod hkey .., nofun⟩
    | some name =>
      rw [memberRole_method hkey] at h
      obtain ⟨role, hrole, h⟩ := bind_eq_ok.1 h
      cases h
      exact ⟨becomes_of_methodRole hkey hrole, hdropped name ds⟩
  | classOnly what span inside =>
    cases h
    exact ⟨.classOnly .., nofun⟩
  | empty =>
    cases h
    exact ⟨.empty, nofun⟩

theorem becomes_roleOf (h : HasRole source m) : Becomes m (roleOf source m) := by
  obtain ⟨⟨role, findings⟩, hrole⟩ := h
  rw [roleOf, hrole]
  exact (becomes_of_memberRole hrole).1

theorem not_isSetupHook_of_lifecycle {name hook : String}
    (h : lifecycleTarget? name = some hook) : isSetupHook name = false := by
  have hapart : ∀ n ∈ setupHooks, lifecycleTarget? n = none := by decide
  cases hsetup : isSetupHook name with
  | false => rfl
  | true =>
    have hmem : name ∈ setupHooks := by simpa [isSetupHook] using hsetup
    cases h.symm.trans (hapart name hmem)

/-- In each of the cases the member has the role. -/
theorem Becomes.memberRole (h : Becomes m r) (source : List Char) :
    ∃ findings, memberRole source m = .ok (r, findings) := by
  have hnamed {role : Except MalformedDecorator Role} {findings : List Finding}
      (hrole : role = .ok r) : ∃ findings', (role >>= fun role => .ok (role, findings)) =
        Except.ok (r, findings') :=
    ⟨findings, bind_eq_ok.2 ⟨r, hrole, rfl⟩⟩
  cases h with
  | unnamedField hkey | unnamedMethod hkey => exact ⟨[], by rw [Component.memberRole, hkey]⟩
  | classOnly | empty => exact ⟨[], rfl⟩
  | field hkey hplain =>
    rw [memberRole_field hkey, findSome?_recognized?_eq_none.2 hplain]
    exact hnamed rfl
  | ref hkey hfirst =>
    rw [memberRole_field hkey, hfirst.findSome?]
    exact hnamed rfl
  | input hkey hfirst hargs =>
    rw [memberRole_field hkey, hfirst.findSome?]
    exact hnamed (bind_eq_ok.2 ⟨_, mapError_eq_ok.2 hargs, rfl⟩)
  | watcher hkey hfirst hargs | event hkey hfirst hargs =>
    rw [memberRole_method hkey, hfirst.findSome?]
    exact hnamed (bind_eq_ok.2 ⟨_, mapError_eq_ok.2 hargs, rfl⟩)
  | getter hkey hplain | setter hkey hplain =>
    rw [memberRole_method hkey, findSome?_recognized?_eq_none.2 hplain]
    exact hnamed rfl
  | lifecycle hkey hplain hhook =>
    rw [memberRole_method hkey, findSome?_recognized?_eq_none.2 hplain, methodRole, hhook]
    exact hnamed rfl
  | @setupHook _ name _ hkey hplain hsetup =>
    rw [memberRole_method hkey, findSome?_recognized?_eq_none.2 hplain, methodRole, hsetup]
    cases hhook : lifecycleTarget? name with
    | none => exact hnamed rfl
    | some hook => cases (not_isSetupHook_of_lifecycle hhook).symm.trans hsetup
  | method hkey hplain hhook hsetup =>
    rw [memberRole_method hkey, findSome?_recognized?_eq_none.2 hplain, methodRole, hhook, hsetup]
    exact hnamed rfl

theorem Becomes.hasRole (h : Becomes m r) : HasRole source m := by
  obtain ⟨findings, hrole⟩ := h.memberRole source
  exact ⟨_, hrole⟩

theorem Becomes.roleOf_eq (h : Becomes m r) : roleOf source m = r := by
  obtain ⟨findings, hrole⟩ := h.memberRole source
  rw [roleOf, hrole]

/-! ## What the tables are made of -/

/-- The members of an item of a module. -/
def itemMembers : ModuleItem → List Member
  | .component c => c.members
  | _ => []

/-- The members of the component of a module. -/
def moduleMembers (items : List ModuleItem) : List Member :=
  items.flatMap itemMembers

/-- What an item of a module adds to the body that is no component. -/
def besideItems : ModuleItem → List BodyItem
  | .defaultDecl _ => [.unsupported]
  | .exportDecl span decl => [.exportDecl span decl]
  | .moduleDecl span => [.moduleDecl span]
  | .stmt stmt => [.stmt stmt]
  | .importDecl _ | .component _ => []

/-- What stays in place, other than the method of an event. -/
def Role.item? : Role → Option BodyItem
  | lifecycle hook f => some (.lifecycle hook f)
  | setupHook f => if f.hasBody then some (.hoisted f.body) else none
  | field name isReadonly type value => some (.field name isReadonly type value)
  | method name f => some (.method name f)
  | unsupported _ _ => some .unsupported
  | _ => none

theorem forall_mem_upsert {α : Type} {name : α → String} {p : α → Prop} {entry : α} {as : List α}
    (has : ∀ a ∈ as, p a) (hentry : p entry) : ∀ a ∈ upsert name entry as, p a := by
  induction as with
  | nil => exact List.forall_mem_singleton.2 hentry
  | cons a as ih =>
    obtain ⟨ha, has⟩ := List.forall_mem_cons.1 has
    rw [upsert]
    split
    · exact List.forall_mem_cons.2 ⟨hentry, has⟩
    · exact List.forall_mem_cons.2 ⟨ha, ih has⟩

theorem forall_mem_updateAccessor {p : Accessor → Prop} {change : Accessor → Accessor}
    {name : String} {as : List Accessor} (has : ∀ a ∈ as, p a) (hempty : p { name })
    (hchange : ∀ a, p a → p (change a)) : ∀ a ∈ updateAccessor name change as, p a := by
  induction as with
  | nil => exact List.forall_mem_singleton.2 (hchange _ hempty)
  | cons a as ih =>
    obtain ⟨ha, has⟩ := List.forall_mem_cons.1 has
    rw [updateAccessor]
    split
    · exact List.forall_mem_cons.2 ⟨hchange a ha, has⟩
    · exact List.forall_mem_cons.2 ⟨ha, ih has⟩

theorem forall_mem_concat {α : Type} {p : α → Prop} {as : List α} {a : α} (has : ∀ x ∈ as, p x)
    (ha : p a) : ∀ x ∈ as ++ [a], p x :=
  List.forall_mem_append.2 ⟨has, List.forall_mem_singleton.2 ha⟩

namespace Tables

/-- Every entry of the tables is a role with `P`. An item of the body is one, or the method of an
event, or an item with `Q`. -/
structure MadeOf (P : Role → Prop) (Q : BodyItem → Prop) (t : Tables) : Prop where
  refs : ∀ f ∈ t.refs, P (.ref f)
  inputs : ∀ i ∈ t.inputs, P (.input i)
  getters : ∀ a ∈ t.accessors, ∀ f ∈ a.getter, ∃ name, P (.getter name f)
  setters : ∀ a ∈ t.accessors, ∀ f ∈ a.setter, ∃ name, P (.setter name f)
  watchers : ∀ w ∈ t.watchers, P (.watcher w)
  events : ∀ e ∈ t.events, P (.event e)
  body : ∀ item ∈ t.body, (∃ r, P r ∧ r.item? = some item) ∨ (∃ index, item = .emit index) ∨ Q item

namespace MadeOf

variable {P : Role → Prop} {Q : BodyItem → Prop} {t t' : Tables} {denied : List String}

theorem place (h : t.MadeOf P Q) (hr : P r) : (t.place r).MadeOf P Q := by
  have hitem {item : BodyItem} (hitem : r.item? = some item) := forall_mem_concat h.body
    (.inl ⟨r, hr, hitem⟩)
  cases r with
  | ref f => exact { h with refs := forall_mem_upsert h.refs hr }
  | input i => exact { h with inputs := forall_mem_upsert h.inputs hr }
  | watcher w => exact { h with watchers := forall_mem_concat h.watchers hr }
  | event e =>
    exact { h with
      events := forall_mem_concat h.events hr
      body := forall_mem_concat h.body (.inr (.inl ⟨_, rfl⟩)) }
  | getter name f =>
    refine { h with getters := ?_, setters := ?_ }
    · refine forall_mem_updateAccessor h.getters nofun fun a ha g hg => ?_
      cases hg
      exact ⟨name, hr⟩
    · exact forall_mem_updateAccessor h.setters nofun fun a ha => ha
  | setter name f =>
    refine { h with getters := ?_, setters := ?_ }
    · exact forall_mem_updateAccessor h.getters nofun fun a ha => ha
    · refine forall_mem_updateAccessor h.setters nofun fun a ha g hg => ?_
      cases hg
      exact ⟨name, hr⟩
  | setupHook f =>
    refine { h with body := List.forall_mem_append.2 ⟨h.body, fun item hmem => ?_⟩ }
    split at hmem
    · rename_i hbody
      exact .inl ⟨_, hr, List.mem_singleton.1 hmem ▸ if_pos hbody⟩
    · cases hmem
  | lifecycle | field | method | unsupported => exact { h with body := hitem rfl }
  | nothing => exact h

theorem foldl_place {roles : List Role} (h : t.MadeOf P Q) (hroles : ∀ r ∈ roles, P r) :
    (roles.foldl Tables.place t).MadeOf P Q := by
  induction roles generalizing t with
  | nil => exact h
  | cons r roles ih =>
    obtain ⟨hr, hroles⟩ := List.forall_mem_cons.1 hroles
    exact ih (h.place hr) hroles

theorem addItem {item : ModuleItem} (h : t.MadeOf P Q)
    (hroles : ∀ m ∈ itemMembers item, ∀ r, Becomes m r → P r)
    (hbeside : ∀ b ∈ besideItems item, Q b) (hitem : t.addItem source denied item = .ok t') :
    t'.MadeOf P Q := by
  have hlast {item : BodyItem} (hitem : Q item) := forall_mem_concat h.body (.inr (.inr hitem))
  cases item with
  | component c =>
    obtain ⟨hhas, hcode⟩ := code_addComponent hitem
    have hplaced := h.foldl_place (List.forall_mem_map.2 fun m hm =>
      hroles m hm _ (becomes_roleOf (hhas m hm)))
    have hsame : t'.code.MadeOf P Q := hcode ▸ { hplaced with }
    exact { hsame with }
  | importDecl decl =>
    cases hitem
    rw [addImport]
    split
    · exact { h with }
    · exact { h with }
  | _ =>
    cases hitem
    exact { h with body := hlast (hbeside _ List.mem_cons_self) }

theorem foldlM_addItem {items : List ModuleItem} (h : t.MadeOf P Q)
    (hroles : ∀ m ∈ moduleMembers items, ∀ r, Becomes m r → P r)
    (hbeside : ∀ b ∈ items.flatMap besideItems, Q b)
    (hitems : items.foldlM (Tables.addItem source denied) t = .ok t') : t'.MadeOf P Q := by
  induction items generalizing t with
  | nil =>
    cases hitems
    exact h
  | cons item items ih =>
    obtain ⟨t₁, hitem, hitems⟩ := bind_eq_ok.1 hitems
    obtain ⟨hfirst, hroles⟩ := List.forall_mem_append.1 hroles
    obtain ⟨hbeside₁, hbeside⟩ := List.forall_mem_append.1 hbeside
    exact ih (h.addItem hfirst hbeside₁ hitem) hroles hbeside hitems

end MadeOf

/-- The tables of a module are made of what its members become and of what stands beside them. -/
theorem ofModule_madeOf {items : List ModuleItem} {denied : List String} {t : Tables}
    (h : ofModule source denied items = .ok t) :
    t.MadeOf (fun r => ∃ m ∈ moduleMembers items, Becomes m r)
      (· ∈ items.flatMap besideItems) := by
  have hempty : ({} : Tables).MadeOf (fun r => ∃ m ∈ moduleMembers items, Becomes m r)
      (· ∈ items.flatMap besideItems) := by constructor <;> nofun
  exact hempty.foldlM_addItem (fun m hm r hr => ⟨m, hm, hr⟩) (fun _ hb => hb) h

end Tables

end ScriptSetup.Component
