import ScriptSetup.Proofs.Component.Entries
import ScriptSetup.Proofs.Result

/-!
# The order of members

Each table is filled by roles of one category, and what stays in place by the roles of members
that stay in place. So the tables depend on the order of the members only within a category. Of
accessors, what counts is the order in which their names are first met and, for each name, the
last getter and the last setter.
-/

set_option autoImplicit false

namespace ScriptSetup.Component

open Script

/-! ## Categories -/

namespace Role

/-- State. -/
def isRef : Role → Bool
  | ref _ => true
  | _ => false

/-- An input. -/
def isInput : Role → Bool
  | input _ => true
  | _ => false

/-- Code that runs when a value changes. -/
def isWatcher : Role → Bool
  | watcher _ => true
  | _ => false

/-- The member is written where it stood. -/
def isInPlace : Role → Bool
  | event _ | lifecycle _ _ | setupHook _ | field _ _ _ _ | method _ _ | unsupported _ _ => true
  | _ => false

/-- The name of an accessor. -/
def accessorName? : Role → Option String
  | getter name _ | setter name _ => some name
  | _ => none

/-- The getter of a name. -/
def getterOf? (name : String) : Role → Option Func
  | getter n f => if n = name then some f else none
  | _ => none

/-- The setter of a name. -/
def setterOf? (name : String) : Role → Option Func
  | setter n f => if n = name then some f else none
  | _ => none

end Role

/-- Two lists of roles agree on the order within each category, on the order in which accessors
are first named, and on the last getter and the last setter of each name. -/
structure SameOrder (roles roles' : List Role) : Prop where
  refs : roles.filter Role.isRef = roles'.filter Role.isRef
  inputs : roles.filter Role.isInput = roles'.filter Role.isInput
  watchers : roles.filter Role.isWatcher = roles'.filter Role.isWatcher
  inPlace : roles.filter Role.isInPlace = roles'.filter Role.isInPlace
  accessorNames : (roles.filterMap Role.accessorName?).eraseDups =
    (roles'.filterMap Role.accessorName?).eraseDups
  getters : ∀ name, (roles.filterMap (Role.getterOf? name)).getLast? =
    (roles'.filterMap (Role.getterOf? name)).getLast?
  setters : ∀ name, (roles.filterMap (Role.setterOf? name)).getLast? =
    (roles'.filterMap (Role.setterOf? name)).getLast?

/-! ## Table by table -/

/-- What a role makes of the state. -/
def placeRef (refs : List RefField) : Role → List RefField
  | .ref f => upsert (·.name) f refs
  | _ => refs

/-- What a role makes of the inputs. -/
def placeInput (inputs : List Input) : Role → List Input
  | .input i => upsert (·.name) i inputs
  | _ => inputs

/-- What a role makes of the watchers. -/
def placeWatcher (watchers : List Watcher) : Role → List Watcher
  | .watcher w => watchers ++ [w]
  | _ => watchers

/-- What a role makes of the accessors. -/
def placeAccessor (accessors : List Accessor) : Role → List Accessor
  | .getter name f => updateAccessor name ({ · with getter := some f }) accessors
  | .setter name f => updateAccessor name ({ · with setter := some f }) accessors
  | _ => accessors

/-- What the members in place fill: the body, the events and the hooks. -/
structure InPlace where
  body : List BodyItem
  events : List Event
  hooks : List String

/-- What a role makes of the members in place. -/
def placeItem (p : InPlace) : Role → InPlace
  | .event e => { p with body := p.body ++ [.emit p.events.length], events := p.events ++ [e] }
  | .lifecycle hook f =>
    { p with body := p.body ++ [.lifecycle hook f], hooks := insertNew hook p.hooks }
  | .setupHook f => { p with body := p.body ++ if f.hasBody then [.hoisted f.body] else [] }
  | .field name isReadonly type value =>
    { p with body := p.body ++ [.field name isReadonly type value] }
  | .method name f => { p with body := p.body ++ [.method name f] }
  | .unsupported _ _ => { p with body := p.body ++ [.unsupported] }
  | _ => p

namespace Tables

/-- The members in place of the tables. -/
def inPlace (t : Tables) : InPlace := ⟨t.body, t.events, t.hooks⟩

/-- A role is folded into each table on its own. -/
theorem place_eq (t : Tables) (r : Role) :
    (t.place r).imports = t.imports ∧
    (t.place r).refs = placeRef t.refs r ∧
    (t.place r).inputs = placeInput t.inputs r ∧
    (t.place r).watchers = placeWatcher t.watchers r ∧
    (t.place r).accessors = placeAccessor t.accessors r ∧
    (t.place r).inPlace = placeItem t.inPlace r := by
  cases r <;> exact ⟨rfl, rfl, rfl, rfl, rfl, rfl⟩

/-- Roles are folded into each table on its own. -/
theorem foldl_place (t : Tables) (roles : List Role) :
    (roles.foldl place t).imports = t.imports ∧
    (roles.foldl place t).refs = roles.foldl placeRef t.refs ∧
    (roles.foldl place t).inputs = roles.foldl placeInput t.inputs ∧
    (roles.foldl place t).watchers = roles.foldl placeWatcher t.watchers ∧
    (roles.foldl place t).accessors = roles.foldl placeAccessor t.accessors ∧
    (roles.foldl place t).inPlace = roles.foldl placeItem t.inPlace := by
  induction roles generalizing t with
  | nil => exact ⟨rfl, rfl, rfl, rfl, rfl, rfl⟩
  | cons r roles ih =>
    obtain ⟨himports, hrefs, hinputs, hwatchers, haccessors, hitems⟩ := place_eq t r
    simp only [List.foldl_cons]
    rw [← himports, ← hrefs, ← hinputs, ← hwatchers, ← haccessors, ← hitems]
    exact ih (t.place r)

end Tables

variable {σ ρ : Type} {step : σ → ρ → σ}

/-! ## Only the order within a category counts -/

/-- Steps that change nothing can be left out. -/
theorem foldl_filter_of_skip {p : ρ → Bool} (hskip : ∀ r, p r = false → ∀ s, step s r = s)
    (rs : List ρ) (s : σ) : rs.foldl step s = (rs.filter p).foldl step s := by
  induction rs generalizing s with
  | nil => rfl
  | cons r rs ih =>
    cases hr : p r with
    | true => rw [List.filter_cons_of_pos hr, List.foldl_cons, List.foldl_cons, ih]
    | false => rw [List.filter_cons_of_neg (by simp [hr]), List.foldl_cons, hskip r hr s, ih]

/-- Folds over lists that agree on the steps which change something agree. -/
theorem foldl_eq_of_filter_eq {p : ρ → Bool} (hskip : ∀ r, p r = false → ∀ s, step s r = s)
    {rs rs' : List ρ} (h : rs.filter p = rs'.filter p) (s : σ) :
    rs.foldl step s = rs'.foldl step s := by
  rw [foldl_filter_of_skip hskip rs, foldl_filter_of_skip hskip rs', h]

/-- A role of another category leaves a table as it is. -/
theorem place_skip (r : Role) :
    (r.isRef = false → ∀ refs, placeRef refs r = refs) ∧
    (r.isInput = false → ∀ inputs, placeInput inputs r = inputs) ∧
    (r.isWatcher = false → ∀ watchers, placeWatcher watchers r = watchers) ∧
    (r.isInPlace = false → ∀ p, placeItem p r = p) := by
  cases r with
  | ref => exact ⟨nofun, fun _ _ => rfl, fun _ _ => rfl, fun _ _ => rfl⟩
  | input => exact ⟨fun _ _ => rfl, nofun, fun _ _ => rfl, fun _ _ => rfl⟩
  | watcher => exact ⟨fun _ _ => rfl, fun _ _ => rfl, nofun, fun _ _ => rfl⟩
  | getter | setter | nothing =>
    exact ⟨fun _ _ => rfl, fun _ _ => rfl, fun _ _ => rfl, fun _ _ => rfl⟩
  | _ => exact ⟨fun _ _ => rfl, fun _ _ => rfl, fun _ _ => rfl, nofun⟩

/-! ### Accessors -/

theorem map_name_placeAccessor (accessors : List Accessor) (r : Role) :
    (placeAccessor accessors r).map (·.name) =
      r.accessorName?.toList.foldl (fun seen name => insertNew name seen)
        (accessors.map (·.name)) := by
  cases r with
  | getter name f | setter name f => exact map_name_updateAccessor (by intro; rfl) accessors
  | _ => rfl

theorem map_name_foldl_placeAccessor (accessors : List Accessor) (roles : List Role) :
    (roles.foldl placeAccessor accessors).map (·.name) =
      (roles.filterMap Role.accessorName?).foldl (fun seen name => insertNew name seen)
        (accessors.map (·.name)) := by
  induction roles generalizing accessors with
  | nil => rfl
  | cons r roles ih =>
    rw [List.foldl_cons, ih, map_name_placeAccessor, List.filterMap_cons]
    cases r.accessorName? with
    | none | some name => rfl

/-- A role overrides the getter or the setter of its name and nothing else. -/
theorem placeAccessor_overrides (accessors : List Accessor) (r : Role) (name : String) :
    getterOf (placeAccessor accessors r) name =
        (r.getterOf? name).or (getterOf accessors name) ∧
      setterOf (placeAccessor accessors r) name =
        (r.setterOf? name).or (setterOf accessors name) := by
  cases r with
  | getter n f =>
    rw [placeAccessor, getterOf, setterOf, accessorOf_updateAccessor (by intro; rfl)]
    by_cases hn : name = n
    · cases hfound : accessorOf accessors n <;>
        simp [Role.getterOf?, Role.setterOf?, hn, hfound, setterOf]
    · simp [Role.getterOf?, Role.setterOf?, hn, Ne.symm hn, getterOf, setterOf]
  | setter n f =>
    rw [placeAccessor, getterOf, setterOf, accessorOf_updateAccessor (by intro; rfl)]
    by_cases hn : name = n
    · cases hfound : accessorOf accessors n <;>
        simp [Role.getterOf?, Role.setterOf?, hn, hfound, getterOf]
    · simp [Role.getterOf?, Role.setterOf?, hn, Ne.symm hn, getterOf, setterOf]
  | _ => exact ⟨rfl, rfl⟩

/-- Where each step overrides a value or leaves it, the last override stays. -/
theorem foldl_last {V : Type} {v : σ → Option V} {value? : ρ → Option V}
    (hstep : ∀ s r, v (step s r) = (value? r).or (v s)) (rs : List ρ) (s : σ) :
    v (rs.foldl step s) = (rs.filterMap value?).getLast?.or (v s) := by
  induction rs generalizing s with
  | nil => rfl
  | cons r rs ih =>
    rw [List.foldl_cons, ih, hstep, List.filterMap_cons]
    cases value? r with
    | none => rfl
    | some value =>
      rw [List.getLast?_cons]
      cases (rs.filterMap value?).getLast? with
      | none | some last => rfl

/-- Accessors are the same after roles in the same order. -/
theorem foldl_placeAccessor_of_sameOrder {roles roles' : List Role} (h : SameOrder roles roles')
    {accessors : List Accessor} (hnodup : (accessors.map (·.name)).Nodup) :
    roles.foldl placeAccessor accessors = roles'.foldl placeAccessor accessors := by
  have hnames : (roles.foldl placeAccessor accessors).map (·.name) =
      (roles'.foldl placeAccessor accessors).map (·.name) := by
    rw [map_name_foldl_placeAccessor, map_name_foldl_placeAccessor, foldl_insertNew,
      foldl_insertNew, eraseDups_filter, eraseDups_filter, h.accessorNames]
  have hnodup' : ((roles.foldl placeAccessor accessors).map (·.name)).Nodup := by
    rw [map_name_foldl_placeAccessor]
    exact nodup_foldl_insertNew _ hnodup
  refine accessors_ext hnodup' hnames fun name => accessorOf_ext hnames ?_ ?_
  · rw [foldl_last (v := (getterOf · name)) (fun as r => (placeAccessor_overrides as r name).1),
      foldl_last (v := (getterOf · name)) (fun as r => (placeAccessor_overrides as r name).1),
      h.getters]
  · rw [foldl_last (v := (setterOf · name)) (fun as r => (placeAccessor_overrides as r name).2),
      foldl_last (v := (setterOf · name)) (fun as r => (placeAccessor_overrides as r name).2),
      h.setters]

/-! ## Tables that write the same document -/

namespace Tables

/-- The tables without what is only reported. -/
def code (t : Tables) : Tables := { t with declared := [], findings := [] }

theorem code_eq_iff {t t' : Tables} :
    t.code = t'.code ↔ t.imports = t'.imports ∧ t.refs = t'.refs ∧ t.inputs = t'.inputs ∧
      t.watchers = t'.watchers ∧ t.accessors = t'.accessors ∧ t.inPlace = t'.inPlace := by
  simp only [code, inPlace, Tables.mk.injEq, InPlace.mk.injEq]
  constructor
  · rintro ⟨himports, hrefs, hinputs, haccessors, hwatchers, hevents, hhooks, -, hbody, -⟩
    exact ⟨himports, hrefs, hinputs, hwatchers, haccessors, hbody, hevents, hhooks⟩
  · rintro ⟨himports, hrefs, hinputs, hwatchers, haccessors, hbody, hevents, hhooks⟩
    exact ⟨himports, hrefs, hinputs, haccessors, hwatchers, hevents, hhooks, trivial, hbody,
      trivial⟩

/-- Roles in the same order give the same tables. -/
theorem code_foldl_place_of_sameOrder {roles roles' : List Role} (h : SameOrder roles roles')
    {t : Tables} (hnodup : (t.accessors.map (·.name)).Nodup) :
    (roles.foldl place t).code = (roles'.foldl place t).code := by
  obtain ⟨himports, hrefs, hinputs, hwatchers, haccessors, hitems⟩ := foldl_place t roles
  obtain ⟨himports', hrefs', hinputs', hwatchers', haccessors', hitems'⟩ := foldl_place t roles'
  refine code_eq_iff.2 ⟨?_, ?_, ?_, ?_, ?_, ?_⟩
  · rw [himports, himports']
  · rw [hrefs, hrefs', foldl_eq_of_filter_eq (fun r => (place_skip r).1) h.refs]
  · rw [hinputs, hinputs', foldl_eq_of_filter_eq (fun r => (place_skip r).2.1) h.inputs]
  · rw [hwatchers, hwatchers', foldl_eq_of_filter_eq (fun r => (place_skip r).2.2.1) h.watchers]
  · rw [haccessors, haccessors', foldl_placeAccessor_of_sameOrder h hnodup]
  · rw [hitems, hitems', foldl_eq_of_filter_eq (fun r => (place_skip r).2.2.2) h.inPlace]

theorem code_foldl_place_congr {t t' : Tables} (h : t.code = t'.code) (roles : List Role) :
    (roles.foldl place t).code = (roles.foldl place t').code := by
  obtain ⟨himports, hrefs, hinputs, hwatchers, haccessors, hitems⟩ := foldl_place t roles
  obtain ⟨himports', hrefs', hinputs', hwatchers', haccessors', hitems'⟩ := foldl_place t' roles
  obtain ⟨eimports, erefs, einputs, ewatchers, eaccessors, eitems⟩ := code_eq_iff.1 h
  refine code_eq_iff.2 ⟨?_, ?_, ?_, ?_, ?_, ?_⟩
  · rw [himports, himports', eimports]
  · rw [hrefs, hrefs', erefs]
  · rw [hinputs, hinputs', einputs]
  · rw [hwatchers, hwatchers', ewatchers]
  · rw [haccessors, haccessors', eaccessors]
  · rw [hitems, hitems', eitems]

end Tables

/-! ## Members and modules -/

/-- The role of a member. One that has none does nothing. -/
def roleOf (source : List Char) (m : Member) : Role :=
  match memberRole source m with
  | .ok (role, _) => role
  | .error _ => .nothing

/-- The member has a role. -/
def HasRole (source : List Char) (m : Member) : Prop :=
  ∃ found, memberRole source m = .ok found

namespace Tables

variable {source : List Char}

variable {t t' : Tables} {c : Script.Class} {members : List Member}

theorem code_foldlM_addMember (h : members.foldlM (addMember source) t = .ok t') :
    (∀ m ∈ members, HasRole source m) ∧
      t'.code = ((members.map (roleOf source)).foldl place t).code := by
  induction members generalizing t with
  | nil =>
    cases h
    exact ⟨fun m hm => (nomatch hm), rfl⟩
  | cons m members ih =>
    obtain ⟨t₁, hm, h⟩ := bind_eq_ok.1 h
    obtain ⟨⟨role, findings⟩, hrole, hm⟩ := bind_eq_ok.1 hm
    obtain ⟨hroles, hcode⟩ := ih h
    refine ⟨fun m' hm' => ?_, ?_⟩
    · rcases List.mem_cons.1 hm' with rfl | hm'
      · exact ⟨_, hrole⟩
      · exact hroles m' hm'
    · have hroleOf : roleOf source m = role := by rw [roleOf, hrole]
      have hplace : ({ t with findings := t.findings ++ findings }.place role).code =
          (t.place role).code :=
        code_foldl_place_congr
          (show { t with findings := t.findings ++ findings }.code = t.code from rfl) [role]
      rw [hcode, List.map_cons, List.foldl_cons, hroleOf, ← Except.ok.inj hm]
      exact code_foldl_place_congr hplace _

theorem exists_foldlM_addMember (h : ∀ m ∈ members, HasRole source m) (t : Tables) :
    ∃ t', members.foldlM (addMember source) t = .ok t' := by
  induction members generalizing t with
  | nil => exact ⟨t, rfl⟩
  | cons m members ih =>
    obtain ⟨⟨role, findings⟩, hrole⟩ := h m List.mem_cons_self
    have hm : addMember source t m =
        .ok ({ t with findings := t.findings ++ findings }.place role) :=
      bind_eq_ok.2 ⟨_, hrole, rfl⟩
    obtain ⟨t', ht'⟩ := ih (fun m' hm' => h m' (List.mem_cons_of_mem m hm')) _
    exact ⟨t', bind_eq_ok.2 ⟨_, hm, ht'⟩⟩

theorem code_addComponent (h : t.addComponent source c = .ok t') :
    (∀ m ∈ c.members, HasRole source m) ∧
      t'.code = ((c.members.map (roleOf source)).foldl place t).code := by
  obtain ⟨t₁, hmembers, h⟩ := bind_eq_ok.1 h
  obtain ⟨hroles, hcode⟩ := code_foldlM_addMember hmembers
  refine ⟨hroles, ?_⟩
  rw [← Except.ok.inj h]
  refine hcode.trans (code_foldl_place_congr ?_ _)
  rfl

theorem exists_addComponent (h : ∀ m ∈ c.members, HasRole source m) (t : Tables) :
    ∃ t', t.addComponent source c = .ok t' := by
  obtain ⟨t', ht'⟩ := exists_foldlM_addMember h _
  exact ⟨_, bind_eq_ok.2 ⟨t', ht', rfl⟩⟩

variable {denied : List String}

/-- What an item adds depends on the tables only as far as the document does. -/
theorem addItem_congr {item : ModuleItem} {u : Tables} (hcode : t.code = u.code)
    (h : t.addItem source denied item = .ok t') :
    ∃ u', u.addItem source denied item = .ok u' ∧ u'.code = t'.code := by
  cases item with
  | component c =>
    obtain ⟨hroles, ht'⟩ := code_addComponent h
    obtain ⟨u', hu'⟩ := exists_addComponent hroles u
    refine ⟨u', hu', ?_⟩
    rw [(code_addComponent hu').2, ht']
    exact code_foldl_place_congr hcode.symm _
  | importDecl decl =>
    cases h
    refine ⟨_, rfl, ?_⟩
    obtain ⟨himports, hrefs, hinputs, hwatchers, haccessors, hitems⟩ := code_eq_iff.1 hcode
    rw [addImport, addImport]
    split
    · exact hcode.symm
    · exact code_eq_iff.2 ⟨by rw [himports], hrefs.symm, hinputs.symm, hwatchers.symm,
        haccessors.symm, hitems.symm⟩
  | _ =>
    cases h
    refine ⟨_, rfl, ?_⟩
    obtain ⟨himports, hrefs, hinputs, hwatchers, haccessors, hitems⟩ := code_eq_iff.1 hcode
    obtain ⟨hbody, hevents, hhooks⟩ := InPlace.mk.inj hitems
    refine code_eq_iff.2 ⟨himports.symm, hrefs.symm, hinputs.symm, hwatchers.symm,
      haccessors.symm, ?_⟩
    simp only [inPlace, unsupported, hbody, hevents, hhooks]

theorem foldlM_addItem_congr {items : List ModuleItem} {u : Tables} (hcode : t.code = u.code)
    (h : items.foldlM (addItem source denied) t = .ok t') :
    ∃ u', items.foldlM (addItem source denied) u = .ok u' ∧ u'.code = t'.code := by
  induction items generalizing t u with
  | nil =>
    cases h
    exact ⟨u, rfl, hcode.symm⟩
  | cons item items ih =>
    obtain ⟨t₁, hitem, h⟩ := bind_eq_ok.1 h
    obtain ⟨u₁, hu₁, hcode₁⟩ := addItem_congr hcode hitem
    obtain ⟨u', hu', hcode'⟩ := ih hcode₁.symm h
    exact ⟨u', bind_eq_ok.2 ⟨u₁, hu₁, hu'⟩, hcode'⟩

/-- Every name has one accessor. -/
theorem nodup_accessors_addItem {item : ModuleItem} (hnodup : (t.accessors.map (·.name)).Nodup)
    (h : t.addItem source denied item = .ok t') : (t'.accessors.map (·.name)).Nodup := by
  cases item with
  | component c =>
    obtain ⟨-, hcode⟩ := code_addComponent h
    obtain ⟨-, -, -, -, haccessors, -⟩ := code_eq_iff.1 hcode
    obtain ⟨-, -, -, -, hfold, -⟩ := foldl_place t (c.members.map (roleOf source))
    rw [haccessors, hfold, map_name_foldl_placeAccessor]
    exact nodup_foldl_insertNew _ hnodup
  | importDecl decl =>
    cases h
    rw [addImport]
    split
    · exact hnodup
    · exact hnodup
  | _ =>
    cases h
    exact hnodup

theorem nodup_accessors_foldlM {items : List ModuleItem} (hnodup : (t.accessors.map (·.name)).Nodup)
    (h : items.foldlM (addItem source denied) t = .ok t') : (t'.accessors.map (·.name)).Nodup := by
  induction items generalizing t with
  | nil =>
    cases h
    exact hnodup
  | cons item items ih =>
    obtain ⟨t₁, hitem, h⟩ := bind_eq_ok.1 h
    exact ih (nodup_accessors_addItem hnodup hitem) h

/-- A module with the members of its component in another order, which is the same within each
category, has the same tables. -/
theorem ofModule_reordered {before after : List ModuleItem} (hperm : members.Perm c.members)
    (horder : SameOrder (c.members.map (roleOf source)) (members.map (roleOf source)))
    (h : ofModule source denied (before ++ .component c :: after) = .ok t) :
    ∃ t', ofModule source denied (before ++ .component { c with members } :: after) = .ok t' ∧
      t'.code = t.code := by
  rw [ofModule, List.foldlM_append] at h
  obtain ⟨t₀, hbefore, h⟩ := bind_eq_ok.1 h
  obtain ⟨t₁, hcomponent, hafter⟩ := bind_eq_ok.1 h
  obtain ⟨hroles, hcode⟩ := code_addComponent hcomponent
  have hnodup : (t₀.accessors.map (·.name)).Nodup :=
    nodup_accessors_foldlM (t := {}) List.nodup_nil hbefore
  obtain ⟨t₁', hcomponent'⟩ := exists_addComponent (c := { c with members })
    (fun m hm => hroles m (hperm.subset hm)) t₀
  have hcode' : t₁.code = t₁'.code := by
    rw [hcode, (code_addComponent hcomponent').2]
    exact code_foldl_place_of_sameOrder horder hnodup
  obtain ⟨t', hafter', hcode''⟩ := foldlM_addItem_congr hcode' hafter
  refine ⟨t', ?_, hcode''⟩
  rw [ofModule, List.foldlM_append]
  refine bind_eq_ok.2 ⟨t₀, hbefore, ?_⟩
  rw [List.foldlM_cons]
  exact bind_eq_ok.2 ⟨t₁', hcomponent', hafter'⟩

end Tables

end ScriptSetup.Component
