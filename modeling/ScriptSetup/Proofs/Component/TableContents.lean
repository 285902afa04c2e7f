import Mathlib.Data.List.Forall2
import ScriptSetup.Proofs.Component.DistinctNames
import ScriptSetup.Proofs.Component.MalformedDecorators
import ScriptSetup.Script.Grammar.Module

/-!
# What the tables hold

What becomes of a member is decided by its first decorator with a meaning, then by whether it is an
accessor, then by its name. `Becomes` lists the cases. From it follows what each table holds: the
body has, in order, one item for each member that stays in place, the methods of events count
through the table of events, and the other tables have the names of the members that belong there.
-/

set_option autoImplicit false

namespace ScriptSetup.Component

open Script

variable {ds : List Decorator} {args : List Expr} {d : Decorator} {kind : DecoratorKind}

/-! ## Names of the tables -/

/-- The member is a field of this name, and its first decorator with a meaning is of this kind. -/
inductive DecoratedField (kind : DecoratorKind) (name : String) : Member → Prop where
  | mk {key : Key} {ds : List Decorator} {d : Decorator} {args : List Expr}
      (hkey : key.staticName? = some name) (hfirst : FirstMeaning ds d kind args) (span : Span)
      (isReadonly : Bool) (type : Option TypeText) (value : Option Expr) :
    DecoratedField kind name (.field span ds isReadonly key type value)

/-- The member is the getter or the setter of an accessor of this name, and no decorator of it has
a meaning. -/
inductive PlainAccessor (name : String) : Member → Prop where
  | mk {key : Key} {ds : List Decorator} {kind : MethodKind} (hkey : key.staticName? = some name)
      (hplain : NoMeaning ds) (hkind : kind ≠ .method) (span : Span) (f : Func)
      (ps : List (List Decorator)) :
    PlainAccessor name (.method span ds kind key f ps)

theorem DecoratedField.memberName? {kind : DecoratorKind} {name : String} {m : Member}
    (h : DecoratedField kind name m) : memberName? m = some name := by
  obtain ⟨hkey, -⟩ := h
  exact hkey

theorem PlainAccessor.memberName? {name : String} {m : Member} (h : PlainAccessor name m) :
    memberName? m = some name := by
  obtain ⟨hkey, -, -⟩ := h
  exact hkey

/-- The name of an input. -/
def Role.inputName? : Role → Option String
  | .input i => some i.name
  | _ => none

section

variable {m : Member} {r : Role} {name : String}

theorem Becomes.refName?_iff (h : Becomes m r) :
    r.refName? = some name ↔ DecoratedField .ref name m := by
  constructor
  · intro hname
    cases h with
    | ref hkey hfirst span isReadonly type value =>
      cases hname
      exact .mk hkey hfirst span isReadonly type value
    | _ => cases hname
  · rintro ⟨hkey, hfirst⟩
    cases h with
    | ref hkey' => exact hkey'.symm.trans hkey
    | unnamedField hkey' => cases hkey'.symm.trans hkey
    | field _ hplain => exact (hfirst.not_noMeaning hplain).elim
    | input _ hfirst' => cases hfirst'.unique hfirst

theorem Becomes.inputName?_iff (h : Becomes m r) :
    r.inputName? = some name ↔ DecoratedField .prop name m := by
  constructor
  · intro hname
    cases h with
    | input hkey hfirst hargs span isReadonly type value =>
      cases hname
      exact .mk hkey hfirst span isReadonly type value
    | _ => cases hname
  · rintro ⟨hkey, hfirst⟩
    cases h with
    | input hkey' => exact hkey'.symm.trans hkey
    | unnamedField hkey' => cases hkey'.symm.trans hkey
    | field _ hplain => exact (hfirst.not_noMeaning hplain).elim
    | ref _ hfirst' => cases hfirst'.unique hfirst

theorem Becomes.accessorName?_iff (h : Becomes m r) :
    r.accessorName? = some name ↔ PlainAccessor name m := by
  constructor
  · intro hname
    cases h with
    | getter hkey hplain span f ps | setter hkey hplain span f ps =>
      cases hname
      exact .mk hkey hplain (by decide) span f ps
    | _ => cases hname
  · rintro ⟨hkey, hplain, hkind⟩
    cases h with
    | getter hkey' | setter hkey' => exact hkey'.symm.trans hkey
    | unnamedMethod hkey' => cases hkey'.symm.trans hkey
    | watcher _ hfirst | event _ hfirst => exact (hfirst.not_noMeaning hplain).elim
    | lifecycle | setupHook | method => exact (hkind rfl).elim

end

namespace Tables

theorem inputNames_view :
    RoleView (fun t => t.inputs.map (·.name)) (fun seen r => insertSome seen r.inputName?) where
  code _ := rfl
  imports _ _ := rfl
  item _ _ _ := rfl
  place {t} _ r := by
    obtain ⟨-, -, hinputs, -⟩ := place_eq t r
    rw [hinputs]
    cases r with
    | input i => exact map_upsert _ i t.inputs
    | _ => rfl

section

variable {source : List Char} {denied : List String} {items : List ModuleItem} {t : Tables}

theorem inputNames_ofModule (h : ofModule source denied items = .ok t) :
    t.inputs.map (·.name) = ((moduleRoles source items).filterMap Role.inputName?).foldl
      (fun seen name => insertNew name seen) [] := by
  rw [inputNames_view.ofModule h, foldl_insertSome]
  rfl

theorem mem_inputNames (h : ofModule source denied items = .ok t) {n : String} :
    n ∈ t.inputs.map (·.name) ↔
      ∃ m ∈ moduleMembers items, (roleOf source m).inputName? = some n := by
  rw [inputNames_ofModule h, mem_foldl_insertNew, or_iff_right List.not_mem_nil,
    mem_filterMap_moduleRoles]

/-- A member is known by what becomes of it. -/
theorem exists_member_congr (h : ofModule source denied items = .ok t) {P : Role → Prop}
    {Q : Member → Prop} (hPQ : ∀ {m r}, Becomes m r → (P r ↔ Q m)) :
    (∃ m ∈ moduleMembers items, P (roleOf source m)) ↔ ∃ m ∈ moduleMembers items, Q m :=
  exists_congr fun m => and_congr_right fun hm => hPQ (becomes_roleOf (hasRole_ofModule h m hm))

end

end Tables

variable {events events' : List Event}

/-! ## The body -/

/-- The member is written where it stood. Nothing is known of a member without a name. Otherwise
its first decorator with a meaning has to raise an event, or it has none: then it is a field, or a
method that is not an accessor and, where it runs during set-up, has a body. -/
def staysInPlace : Member → Bool
  | .field _ ds _ key _ _ => key.staticName?.isNone || (ds.findSome? recognized?).isNone
  | .method _ ds kind key f _ =>
    match key.staticName?, ds.findSome? recognized? with
    | none, _ => true
    | some _, some (decorator, _) => decorator == .emit
    | some name, none => kind == .method && (!isSetupHook name || f.hasBody)
  | .classOnly _ _ _ => true
  | .empty => false

/-- What a member in place is in the body. The method of an event stands for its event by the
number of the event. -/
inductive StandsAs (events : List Event) : Member → BodyItem → Prop where
  | field {key : Key} {name : String} {ds : List Decorator} (hkey : key.staticName? = some name)
      (hplain : NoMeaning ds) (span : Span) (isReadonly : Bool) (type : Option TypeText)
      (value : Option Expr) :
    StandsAs events (.field span ds isReadonly key type value) (.field name isReadonly type value)
  | method {key : Key} {name : String} {ds : List Decorator} (hkey : key.staticName? = some name)
      (hplain : NoMeaning ds) (hhook : lifecycleTarget? name = none)
      (hsetup : isSetupHook name = false) (span : Span) (f : Func) (ps : List (List Decorator)) :
    StandsAs events (.method span ds .method key f ps) (.method name f)
  | emit {key : Key} {name event : String} {ds : List Decorator} {d : Decorator}
      {args : List Expr} {f : Func} {index : Nat} (hkey : key.staticName? = some name)
      (hfirst : FirstMeaning ds d .emit args) (hindex : events[index]? = some ⟨name, event, f⟩)
      (span : Span) (kind : MethodKind) (ps : List (List Decorator)) :
    StandsAs events (.method span ds kind key f ps) (.emit index)
  | lifecycle {key : Key} {name hook : String} {ds : List Decorator}
      (hkey : key.staticName? = some name) (hplain : NoMeaning ds)
      (hhook : lifecycleTarget? name = some hook) (span : Span) (f : Func)
      (ps : List (List Decorator)) :
    StandsAs events (.method span ds .method key f ps) (.lifecycle hook f)
  | hoisted {key : Key} {name : String} {ds : List Decorator} {f : Func}
      (hkey : key.staticName? = some name) (hplain : NoMeaning ds)
      (hsetup : isSetupHook name = true) (hbody : f.hasBody = true) (span : Span)
      (ps : List (List Decorator)) :
    StandsAs events (.method span ds .method key f ps) (.hoisted f.body)
  | unnamedField {key : Key} (hkey : key.staticName? = none) (span : Span) (ds : List Decorator)
      (isReadonly : Bool) (type : Option TypeText) (value : Option Expr) :
    StandsAs events (.field span ds isReadonly key type value) .unsupported
  | unnamedMethod {key : Key} (hkey : key.staticName? = none) (span : Span) (ds : List Decorator)
      (kind : MethodKind) (f : Func) (ps : List (List Decorator)) :
    StandsAs events (.method span ds kind key f ps) .unsupported
  | classOnly (what : ClassOnly) (span : Span) (inside : List Ident) :
    StandsAs events (.classOnly what span inside) .unsupported

/-- What an item of a module is in the body. -/
inductive ItemStandsAs (events : List Event) : ModuleItem → List BodyItem → Prop where
  | importDecl (decl : ImportDecl) : ItemStandsAs events (.importDecl decl) []
  | component {c : Script.Class} {part : List BodyItem}
      (hmembers : List.Forall₂ (StandsAs events) (c.members.filter staysInPlace) part) :
    ItemStandsAs events (.component c) part
  | defaultDecl (span : Span) : ItemStandsAs events (.defaultDecl span) [.unsupported]
  | exportDecl (span : Span) (decl : Stmt) :
    ItemStandsAs events (.exportDecl span decl) [.exportDecl span decl]
  | moduleDecl (span : Span) : ItemStandsAs events (.moduleDecl span) [.moduleDecl span]
  | stmt (s : Stmt) : ItemStandsAs events (.stmt s) [.stmt s]

/-- The role leaves an item in the body. -/
def Role.isPlaced (r : Role) : Bool := r.item?.isSome || r.event?.isSome

/-- What a role is in the body. -/
inductive RoleStandsAs (events : List Event) : Role → BodyItem → Prop where
  | item {r : Role} {item : BodyItem} (h : r.item? = some item) : RoleStandsAs events r item
  | emit {e : Event} {index : Nat} (h : events[index]? = some e) :
    RoleStandsAs events (.event e) (.emit index)

theorem getElem?_of_isPrefix {α : Type} {as bs : List α} {i : Nat} {a : α} (h : as <+: bs)
    (ha : as[i]? = some a) : bs[i]? = some a := by
  obtain ⟨cs, rfl⟩ := h
  rw [List.getElem?_append_left (List.getElem?_eq_some_iff.1 ha).1, ha]

theorem RoleStandsAs.mono (hle : events <+: events') {r : Role} {item : BodyItem}
    (h : RoleStandsAs events r item) : RoleStandsAs events' r item := by
  cases h with
  | item h => exact .item h
  | emit h => exact .emit (getElem?_of_isPrefix hle h)

theorem StandsAs.mono (hle : events <+: events') {m : Member} {item : BodyItem}
    (h : StandsAs events m item) : StandsAs events' m item := by
  cases h with
  | emit hkey hfirst hindex => exact .emit hkey hfirst (getElem?_of_isPrefix hle hindex) ..
  | field hkey hplain => exact .field hkey hplain ..
  | method hkey hplain hhook hsetup => exact .method hkey hplain hhook hsetup ..
  | lifecycle hkey hplain hhook => exact .lifecycle hkey hplain hhook ..
  | hoisted hkey hplain hsetup hbody => exact .hoisted hkey hplain hsetup hbody ..
  | unnamedField hkey => exact .unnamedField hkey ..
  | unnamedMethod hkey => exact .unnamedMethod hkey ..
  | classOnly => exact .classOnly ..

theorem ItemStandsAs.mono (hle : events <+: events') {item : ModuleItem} {part : List BodyItem}
    (h : ItemStandsAs events item part) : ItemStandsAs events' item part := by
  cases h with
  | component hmembers => exact .component (hmembers.imp fun _ _ h => h.mono hle)
  | _ => constructor

/-! ### Roles in the body -/

namespace Tables

theorem exists_part_place (t : Tables) (r : Role) :
    ∃ part, (t.place r).body = t.body ++ part ∧
      List.Forall₂ (RoleStandsAs (t.place r).events) ([r].filter Role.isPlaced) part := by
  cases hevent : r.event? with
  | some e =>
    cases r with
    | event e =>
      refine ⟨[.emit t.events.length], rfl, .cons (.emit ?_) .nil⟩
      exact List.getElem?_concat_length
    | _ => cases hevent
  | none =>
    refine ⟨r.item?.toList, body_place hevent t, ?_⟩
    cases hitem : r.item? with
    | none =>
      rw [List.filter_cons_of_neg (by simp [Role.isPlaced, hitem, hevent])]
      exact .nil
    | some item =>
      rw [List.filter_cons_of_pos (by simp [Role.isPlaced, hitem])]
      exact .cons (.item hitem) .nil

theorem body_foldl_place (t : Tables) (roles : List Role) :
    t.events <+: (roles.foldl place t).events ∧
    ∃ part, (roles.foldl place t).body = t.body ++ part ∧
      List.Forall₂ (RoleStandsAs (roles.foldl place t).events) (roles.filter Role.isPlaced)
        part := by
  induction roles generalizing t with
  | nil => exact ⟨List.prefix_rfl, [], (List.append_nil _).symm, .nil⟩
  | cons r roles ih =>
    obtain ⟨hle, part, hbody, hpart⟩ := ih (t.place r)
    obtain ⟨first, hbody₁, hfirst⟩ := exists_part_place t r
    have hstep : t.events <+: (t.place r).events := events_place t r ▸ List.prefix_append ..
    refine ⟨hstep.trans hle, first ++ part, ?_, ?_⟩
    · rw [List.foldl_cons, hbody, hbody₁, List.append_assoc]
    · rw [← List.singleton_append, List.filter_append]
      exact List.rel_append (hfirst.imp fun _ _ h => h.mono hle) hpart

end Tables

/-! ### Members in the body -/

section

variable {m : Member} {r : Role}

attribute [local simp] staysInPlace Role.isPlaced Role.item? Role.event? in
theorem Becomes.staysInPlace_eq (h : Becomes m r) : staysInPlace m = r.isPlaced := by
  have hnone {ds : List Decorator} (hplain : NoMeaning ds) : ds.findSome? recognized? = none :=
    findSome?_recognized?_eq_none.2 hplain
  cases h with
  | unnamedField hkey | unnamedMethod hkey => simp [hkey]
  | field _ hplain => simp [hnone hplain]
  | ref hkey hfirst | input hkey hfirst | watcher hkey hfirst | event hkey hfirst =>
    simp [hkey, hfirst.findSome?]
  | getter hkey hplain | setter hkey hplain => simp [hkey, hnone hplain]
  | lifecycle hkey hplain hhook =>
    simp [hkey, hnone hplain, not_isSetupHook_of_lifecycle hhook]
  | setupHook hkey hplain hsetup span f =>
    cases hbody : f.hasBody <;> simp [hkey, hnone hplain, hsetup, hbody]
  | method hkey hplain hhook hsetup => simp [hkey, hnone hplain, hsetup]
  | classOnly | empty => rfl

theorem Becomes.standsAs (h : Becomes m r) {events : List Event} {item : BodyItem}
    (hitem : RoleStandsAs events r item) : StandsAs events m item := by
  cases hitem with
  | emit hindex =>
    cases h with
    | event hkey hfirst => exact .emit hkey hfirst hindex ..
  | item hitem =>
    cases h with
    | setupHook hkey hplain hsetup =>
      rw [Role.item?] at hitem
      split at hitem
      · rename_i hbody
        cases hitem
        exact .hoisted hkey hplain hsetup hbody ..
      · cases hitem
    | _ => cases hitem <;> constructor <;> assumption

end

/-- The number of the event that an item stands for. -/
def emitIndex? : BodyItem → Option Nat
  | .emit index => some index
  | _ => none

namespace Tables

variable {source : List Char} {denied : List String} {items : List ModuleItem} {t t' : Tables}

theorem body_addComponent {c : Script.Class} (h : t.addComponent source c = .ok t') :
    t.events <+: t'.events ∧ ∃ part, t'.body = t.body ++ part ∧
      List.Forall₂ (StandsAs t'.events) (c.members.filter staysInPlace) part := by
  obtain ⟨hroles, hcode⟩ := code_addComponent h
  obtain ⟨-, -, -, -, -, hitems⟩ := code_eq_iff.1 hcode
  obtain ⟨hbody, hevents, -⟩ := InPlace.mk.inj hitems
  obtain ⟨hle, part, hbody', hpart⟩ := body_foldl_place t (c.members.map (roleOf source))
  have hstays : c.members.filter staysInPlace =
      c.members.filter (Role.isPlaced ∘ roleOf source) :=
    List.filter_congr fun m hm => (becomes_roleOf (hroles m hm)).staysInPlace_eq
  rw [hbody, hevents]
  refine ⟨hle, part, hbody', ?_⟩
  rw [List.filter_map, List.forall₂_map_left_iff, ← hstays] at hpart
  have hbecomes : ∀ m ∈ c.members.filter staysInPlace, Becomes m (roleOf source m) :=
    fun m hm => becomes_roleOf (hroles m (List.mem_of_mem_filter hm))
  exact ((List.forall₂_and_left _ _).2 ⟨hbecomes, hpart⟩).imp fun _ _ h => h.1.standsAs h.2

theorem body_addItem {item : ModuleItem} (h : t.addItem source denied item = .ok t') :
    t.events <+: t'.events ∧ ∃ part, t'.body = t.body ++ part ∧
      ItemStandsAs t'.events item part := by
  cases item with
  | component c =>
    obtain ⟨hle, part, hbody, hpart⟩ := body_addComponent h
    exact ⟨hle, part, hbody, .component hpart⟩
  | importDecl decl =>
    cases h
    rw [addImport]
    split
    · exact ⟨List.prefix_rfl, [], (List.append_nil _).symm, .importDecl decl⟩
    · exact ⟨List.prefix_rfl, [], (List.append_nil _).symm, .importDecl decl⟩
  | defaultDecl span =>
    cases h
    exact ⟨List.prefix_rfl, _, rfl, .defaultDecl span⟩
  | exportDecl span decl =>
    cases h
    exact ⟨List.prefix_rfl, _, rfl, .exportDecl span decl⟩
  | moduleDecl span =>
    cases h
    exact ⟨List.prefix_rfl, _, rfl, .moduleDecl span⟩
  | stmt s =>
    cases h
    exact ⟨List.prefix_rfl, _, rfl, .stmt s⟩

theorem body_foldlM_addItem (h : items.foldlM (addItem source denied) t = .ok t') :
    t.events <+: t'.events ∧ ∃ parts : List (List BodyItem), t'.body = t.body ++ parts.flatten ∧
      List.Forall₂ (ItemStandsAs t'.events) items parts := by
  induction items generalizing t with
  | nil =>
    cases h
    exact ⟨List.prefix_rfl, [], (List.append_nil _).symm, .nil⟩
  | cons item items ih =>
    obtain ⟨t₁, hitem, h⟩ := bind_eq_ok.1 h
    obtain ⟨hle₁, part, hbody₁, hpart⟩ := body_addItem hitem
    obtain ⟨hle, parts, hbody, hparts⟩ := ih h
    refine ⟨hle₁.trans hle, part :: parts, ?_, .cons (hpart.mono hle) hparts⟩
    rw [hbody, hbody₁, List.flatten_cons, List.append_assoc]

/-- The methods of events and the events, counted together. -/
theorem emitIndices_view :
    RoleView (fun t => (t.body.filterMap emitIndex?, t.events.length))
      (fun (seen : List Nat × Nat) r =>
        if r.event?.isSome then (seen.1 ++ [seen.2], seen.2 + 1) else seen) where
  code _ := rfl
  imports _ _ := rfl
  item t item hitem := by
    cases item with
    | stmt | exportDecl | moduleDecl | unsupported => simp [emitIndex?]
    | _ => cases hitem
  place {t} _ r := by
    cases r with
    | setupHook f =>
      rw [place]
      split <;> simp [emitIndex?, Role.event?]
    | _ => simp [place, unsupported, emitIndex?, Role.event?]

theorem foldl_emitIndices (roles : List Role) (n : Nat) :
    ∃ n', roles.foldl (fun (seen : List Nat × Nat) r =>
        if r.event?.isSome then (seen.1 ++ [seen.2], seen.2 + 1) else seen) (List.range n, n) =
      (List.range n', n') := by
  induction roles generalizing n with
  | nil => exact ⟨n, rfl⟩
  | cons r roles ih =>
    rw [List.foldl_cons]
    split
    · rw [← List.range_succ]
      exact ih (n + 1)
    · exact ih n

theorem emitIndices_ofModule (h : ofModule source denied items = .ok t) :
    t.body.filterMap emitIndex? = List.range t.events.length := by
  obtain ⟨n, hn⟩ := foldl_emitIndices (moduleRoles source items) 0
  obtain ⟨hindices, hlength⟩ := Prod.mk.inj ((emitIndices_view.ofModule h).trans hn)
  rw [hindices, hlength]

theorem hooks_eq_eraseDups (h : ofModule source denied items = .ok t) :
    t.hooks = (t.body.filterMap registration?).eraseDups := by
  rw [hooks_ofModule h, ← registrations_ofModule h, foldl_insertNew]
  simp

/-! ## All tables -/

/-- The tables hold what the members of the module say. -/
structure WellFormed (items : List ModuleItem) (t : Tables) : Prop where
  /-- the body is made of what each item of the module is in it -/
  body : ∃ parts : List (List BodyItem), t.body = parts.flatten ∧
    List.Forall₂ (ItemStandsAs t.events) items parts
  /-- the methods of events are numbered in order -/
  emitIndices : t.body.filterMap emitIndex? = List.range t.events.length
  /-- every number is that of an event -/
  lookup : ∀ index, .emit index ∈ t.body → ∃ e, t.events[index]? = some e
  refs : ∀ n, n ∈ t.refs.map (·.name) ↔ ∃ m ∈ moduleMembers items, DecoratedField .ref n m
  inputs : ∀ n, n ∈ t.inputs.map (·.name) ↔ ∃ m ∈ moduleMembers items, DecoratedField .prop n m
  accessors : ∀ n, n ∈ t.accessors.map (·.name) ↔ ∃ m ∈ moduleMembers items, PlainAccessor n m
  /-- an accessor can be read or written -/
  halves : ∀ a ∈ t.accessors, a.getter ≠ none ∨ a.setter ≠ none
  /-- the hooks are those of the body, by first use -/
  hooks : t.hooks = (t.body.filterMap registration?).eraseDups
  declared : ∀ n ∈ t.refs.map (·.name) ++ t.inputs.map (·.name) ++ t.accessors.map (·.name),
    n ∈ t.declared

/-- The tables of a module are well formed. -/
theorem ofModule_wellFormed (h : ofModule source denied items = .ok t) : t.WellFormed items := by
  obtain ⟨-, parts, hbody, hparts⟩ := body_foldlM_addItem h
  have hrefs (n : String) : n ∈ t.refs.map (·.name) ↔
      ∃ m ∈ moduleMembers items, DecoratedField .ref n m :=
    (mem_refNames h).trans (exists_member_congr h Becomes.refName?_iff)
  have hinputs (n : String) : n ∈ t.inputs.map (·.name) ↔
      ∃ m ∈ moduleMembers items, DecoratedField .prop n m :=
    (mem_inputNames h).trans (exists_member_congr h Becomes.inputName?_iff)
  have haccessors (n : String) : n ∈ t.accessors.map (·.name) ↔
      ∃ m ∈ moduleMembers items, PlainAccessor n m :=
    (mem_accessorNames h).trans (exists_member_congr h Becomes.accessorName?_iff)
  have hconsistent := consistent_ofModule h
  refine ⟨⟨parts, hbody, hparts⟩, emitIndices_ofModule h, fun index hindex => ?_, hrefs, hinputs,
    haccessors, hconsistent.accessors, hooks_eq_eraseDups h, fun n hn => ?_⟩
  · exact ⟨_, List.getElem?_eq_getElem (hconsistent.events index hindex)⟩
  · rw [mem_declared_ofModule h]
    rw [List.mem_append, List.mem_append, hrefs, hinputs, haccessors] at hn
    rcases hn with (⟨m, hm, hn⟩ | ⟨m, hm, hn⟩) | ⟨m, hm, hn⟩
    · exact ⟨m, hm, hn.memberName?⟩
    · exact ⟨m, hm, hn.memberName?⟩
    · exact ⟨m, hm, hn.memberName?⟩

/-- A component with members of most kinds. -/
def manyMembersSource : String :=
  "export default class A \x7b @Ref a; @Prop b; get c() \x7b\x7d @Emit d() \x7b\x7d created(); " ++
    "unmounted() \x7b\x7d @Emit e() \x7b\x7d destroyed() \x7b\x7d mounted; [x]; \x7d"

theorem tables_of_many_members :
    ∃ items t, parseModule .typeScript manyMembersSource = .ok items ∧
      ofModule manyMembersSource.toList [] items = .ok t ∧ t.WellFormed items ∧
      t.body.length = 6 ∧ t.body.filterMap emitIndex? = [0, 1] ∧
      t.refs.map (·.name) = ["a"] ∧ t.inputs.map (·.name) = ["b"] ∧
      t.accessors.map (·.name) = ["c"] ∧ t.hooks = ["onUnmounted"] := by
  have hchars : manyMembersSource.toList = _ := toList_append_ofList String.toList_ofList
  obtain ⟨items, hitems, h⟩ := exists_ok_of_any
    (x := parseModule .typeScript manyMembersSource)
    (p := fun items => (ofModule manyMembersSource.toList [] items).toOption.any fun t =>
      t.body.length = 6 ∧ t.body.filterMap emitIndex? = [0, 1] ∧
      t.refs.map (·.name) = ["a"] ∧ t.inputs.map (·.name) = ["b"] ∧
      t.accessors.map (·.name) = ["c"] ∧ t.hooks = ["onUnmounted"])
    (by rw [parseModule, hchars]; decide +kernel)
  obtain ⟨t, ht, h⟩ := exists_ok_of_any h
  exact ⟨items, t, hitems, ht, ofModule_wellFormed ht, of_decide_eq_true h⟩

end Tables

end ScriptSetup.Component
