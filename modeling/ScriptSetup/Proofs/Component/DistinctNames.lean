import Mathlib.Data.List.Flatten
import Mathlib.Data.List.Nodup
import Mathlib.Data.List.Pairwise
import Mathlib.Data.List.Perm.Basic
import ScriptSetup.Proofs.Component.MemberNames

/-!
# Members with different names

Where the members of a component have different names, so have the declarations that they leave
behind, with one exception: of an accessor with a getter and a setter, one half can raise an
event. That half becomes a method of its own, beside the accessor of the same name.
-/

set_option autoImplicit false

namespace ScriptSetup.Component

open Script

/-! ## Views of the tables

What a view shows of the tables is built up role by role when each role adds to it and the items
beside the component leave it alone. -/

/-- The roles of the members of a module, in order. -/
def moduleRoles (source : List Char) (items : List ModuleItem) : List Role :=
  (moduleMembers items).map (roleOf source)

theorem moduleRoles_cons (source : List Char) (item : ModuleItem) (items : List ModuleItem) :
    moduleRoles source (item :: items) =
      (itemMembers item).map (roleOf source) ++ moduleRoles source items :=
  List.map_append

/-- The item stands beside the component. -/
def isBeside : BodyItem → Bool
  | .stmt _ | .exportDecl _ _ | .moduleDecl _ | .unsupported => true
  | .field _ _ _ _ | .method _ _ | .lifecycle _ _ | .hoisted _ | .emit _ => false

/-- What a view has to satisfy to be built up by the roles of members. -/
structure RoleView {σ : Type} (v : Tables → σ) (step : σ → Role → σ) : Prop where
  code : ∀ t : Tables, v t.code = v t
  place : ∀ {t : Tables}, t.Consistent → ∀ r, v (t.place r) = step (v t) r
  imports : ∀ (t : Tables) (imports : List ImportDecl), v { t with imports } = v t
  item : ∀ (t : Tables) (item : BodyItem), isBeside item = true →
    v { t with body := t.body ++ [item] } = v t

namespace RoleView

variable {σ : Type} {v : Tables → σ} {step : σ → Role → σ}

theorem foldl_place (h : RoleView v step) {t : Tables} (ht : t.Consistent) (roles : List Role) :
    v (roles.foldl Tables.place t) = roles.foldl step (v t) := by
  induction roles generalizing t with
  | nil => rfl
  | cons r roles ih =>
    rw [List.foldl_cons, List.foldl_cons, ih (ht.place r), h.place ht]

variable {source : List Char} {denied : List String} {t t' : Tables}

theorem addItem (h : RoleView v step) (ht : t.Consistent) {item : ModuleItem}
    (hitem : t.addItem source denied item = .ok t') :
    v t' = ((itemMembers item).map (roleOf source)).foldl step (v t) := by
  have hcongr {t u : Tables} (hcode : t.code = u.code) : v t = v u := by
    rw [← h.code, hcode, h.code]
  cases item with
  | component c =>
    rw [hcongr (Tables.code_addComponent hitem).2, h.foldl_place ht]
    rfl
  | importDecl decl =>
    cases hitem
    rw [Tables.addImport]
    split
    · exact hcongr rfl
    · exact h.imports t _
  | defaultDecl span =>
    cases hitem
    have hcode : (t.unsupported "default export" span).code =
        Tables.code { t with body := t.body ++ [.unsupported] } := rfl
    exact (hcongr hcode).trans (h.item t .unsupported rfl)
  | exportDecl span decl =>
    cases hitem
    exact h.item t (.exportDecl span decl) rfl
  | moduleDecl span =>
    cases hitem
    exact h.item t (.moduleDecl span) rfl
  | stmt s =>
    cases hitem
    exact h.item t (.stmt s) rfl

theorem foldlM_addItem (h : RoleView v step) (ht : t.Consistent) {items : List ModuleItem}
    (hitems : items.foldlM (Tables.addItem source denied) t = .ok t') :
    v t' = (moduleRoles source items).foldl step (v t) := by
  induction items generalizing t with
  | nil =>
    cases hitems
    rfl
  | cons item items ih =>
    obtain ⟨t₁, hitem, hitems⟩ := bind_eq_ok.1 hitems
    rw [ih (Tables.memberNames_addItem ht hitem).1 hitems, h.addItem ht hitem, moduleRoles_cons,
      List.foldl_append]

/-- The view of the tables of a module. -/
theorem ofModule (h : RoleView v step) {items : List ModuleItem}
    (hitems : Tables.ofModule source denied items = .ok t) :
    v t = (moduleRoles source items).foldl step (v {}) :=
  h.foldlM_addItem Tables.consistent_empty hitems

end RoleView

/-- Steps that each add what a role has list what the roles have. -/
theorem foldl_toList {α : Type} (f : Role → Option α) (roles : List Role) (seen : List α) :
    roles.foldl (fun seen r => seen ++ (f r).toList) seen = seen ++ roles.filterMap f := by
  induction roles generalizing seen with
  | nil => exact (List.append_nil seen).symm
  | cons r roles ih =>
    rw [List.foldl_cons, ih, List.filterMap_cons]
    cases f r with
    | none => rw [Option.toList_none, List.append_nil]
    | some a => rw [Option.toList_some, List.append_assoc, List.singleton_append]

/-- Adds a name, if there is one, at the end unless it is there. -/
def insertSome (names : List String) : Option String → List String
  | none => names
  | some name => insertNew name names

theorem foldl_insertSome (f : Role → Option String) (roles : List Role) (seen : List String) :
    roles.foldl (fun seen r => insertSome seen (f r)) seen =
      (roles.filterMap f).foldl (fun seen name => insertNew name seen) seen := by
  induction roles generalizing seen with
  | nil => rfl
  | cons r roles ih =>
    rw [List.foldl_cons, ih, List.filterMap_cons]
    cases f r with
    | none | some name => rfl

/-! ## Names by table -/

namespace Role

/-- The name of state. -/
def refName? : Role → Option String
  | ref f => some f.name
  | _ => none

/-- An event. -/
def event? : Role → Option Event
  | event e => some e
  | _ => none

/-- The name of a member that stays in place as a declaration. -/
def inPlaceName? : Role → Option String
  | event e => some e.method
  | field name _ _ _ | method name _ => some name
  | _ => none

end Role

theorem map_upsert {α : Type} (key : α → String) (entry : α) (entries : List α) :
    (upsert key entry entries).map key = insertNew (key entry) (entries.map key) := by
  induction entries with
  | nil => rfl
  | cons a rest ih =>
    rw [upsert]
    split
    · rename_i hkey
      simp [insertNew, hkey]
    · rename_i hkey
      rw [List.map_cons, ih]
      by_cases hrest : key entry ∈ rest.map key
      · simp [insertNew, hrest]
      · simp [insertNew, hrest, Ne.symm hkey]

/-- The statements of an item that run while the component is set up. -/
def setupBody? : BodyItem → Option (List Stmt)
  | .hoisted body => some body
  | _ => none

/-- The function that registers the code of an item. -/
def registration? : BodyItem → Option String
  | .lifecycle hook _ => some hook
  | _ => none

/-- The statements of a method that run while the component is set up. -/
def Role.setupBody? (r : Role) : Option (List Stmt) := r.item?.bind Component.setupBody?

/-- The function that registers the code of a method. -/
def Role.hook? (r : Role) : Option String := r.item?.bind registration?

namespace Tables

theorem filterMap_concat {α β : Type} (f : α → Option β) (as : List α) (a : α) :
    (as ++ [a]).filterMap f = as.filterMap f ++ (f a).toList := by
  rw [List.filterMap_append]
  cases h : f a with
  | none | some b => simp [h]

theorem filterMap_toList {α β : Type} (f : α → Option β) (a : Option α) :
    a.toList.filterMap f = (a.bind f).toList := by
  cases a with
  | none => rfl
  | some a => exact filterMap_concat f [] a

theorem refNames_view :
    RoleView (fun t => t.refs.map (·.name)) (fun seen r => insertSome seen r.refName?) where
  code _ := rfl
  imports _ _ := rfl
  item _ _ _ := rfl
  place {t} _ r := by
    obtain ⟨-, hrefs, -⟩ := place_eq t r
    rw [hrefs]
    cases r with
    | ref f => exact map_upsert _ f t.refs
    | _ => rfl

theorem accessorNames_view : RoleView (fun t => t.accessors.map (·.name))
      (fun seen r => insertSome seen r.accessorName?) where
  code _ := rfl
  imports _ _ := rfl
  item _ _ _ := rfl
  place {t} _ r := by
    obtain ⟨-, -, -, -, haccessors, -⟩ := place_eq t r
    rw [haccessors, map_name_placeAccessor]
    cases r.accessorName? with
    | none | some name => rfl

theorem hooks_view : RoleView (·.hooks) (fun seen r => insertSome seen r.hook?) where
  code _ := rfl
  imports _ _ := rfl
  item _ _ _ := rfl
  place {t} _ r := by
    cases r with
    | setupHook f =>
      rw [Role.hook?, Role.item?]
      split <;> rfl
    | _ => rfl

theorem events_place (t : Tables) (r : Role) :
    (t.place r).events = t.events ++ r.event?.toList := by
  cases r with
  | event e => rfl
  | _ => exact (List.append_nil _).symm

theorem events_view : RoleView (·.events) (fun seen r => seen ++ r.event?.toList) where
  code _ := rfl
  imports _ _ := rfl
  item _ _ _ := rfl
  place {t} _ r := events_place t r

/-- What stays in place is put at the end of the body. -/
theorem body_place {r : Role} (hr : r.event? = none) (t : Tables) :
    (t.place r).body = t.body ++ r.item?.toList := by
  cases r with
  | event e => cases hr
  | setupHook f =>
    rw [place, Role.item?]
    split <;> rfl
  | lifecycle | field | method | unsupported => rfl
  | _ => exact (List.append_nil _).symm

/-- What members other than the methods of events have in the body. -/
theorem items_view {α : Type} {g : BodyItem → Option α}
    (hbeside : ∀ item, isBeside item = true → g item = none) (hemit : ∀ i, g (.emit i) = none) :
    RoleView (·.body.filterMap g) (fun seen r => seen ++ (r.item?.bind g).toList) where
  code _ := rfl
  imports _ _ := rfl
  item t item hitem := by
    rw [filterMap_concat, hbeside item hitem]
    exact List.append_nil _
  place {t} _ r := by
    cases r with
    | event e => rw [place, filterMap_concat, hemit]; rfl
    | _ => rw [body_place rfl, List.filterMap_append, filterMap_toList]

theorem inPlaceNames_view : RoleView (fun t => t.body.filterMap (itemName? t.events))
      (fun seen r => seen ++ r.inPlaceName?.toList) where
  code _ := rfl
  imports _ _ := rfl
  item t item hitem := by
    have hname : itemName? t.events item = none := by
      cases item with
      | stmt | exportDecl | moduleDecl | unsupported => rfl
      | _ => cases hitem
    rw [filterMap_concat, hname]
    exact List.append_nil _
  place {t} ht r := by
    cases r with
    | event e =>
      have hold : t.body.filterMap (itemName? (t.events ++ [e])) =
          t.body.filterMap (itemName? t.events) := by
        refine List.filterMap_congr fun item hitem => itemName?_append [e] fun index hindex => ?_
        exact ht.events index (hindex ▸ hitem)
      have hnew : itemName? (t.events ++ [e]) (.emit t.events.length) = some e.method := by
        rw [itemName?, List.getElem?_concat_length, Option.map_some]
      rw [place, filterMap_concat, hold, hnew]
      rfl
    | setupHook f =>
      rw [body_place rfl, List.filterMap_append, filterMap_toList, Role.item?]
      split <;> rfl
    | _ => rw [body_place rfl, List.filterMap_append, filterMap_toList]; rfl

section

variable {source : List Char} {denied : List String} {items : List ModuleItem} {t : Tables}
  (h : ofModule source denied items = .ok t)

include h

theorem refNames_ofModule :
    t.refs.map (·.name) = ((moduleRoles source items).filterMap Role.refName?).foldl
      (fun seen name => insertNew name seen) [] := by
  rw [refNames_view.ofModule h, foldl_insertSome]
  rfl

/-- Each piece of state has one entry. -/
theorem nodup_refNames : (t.refs.map (·.name)).Nodup := by
  rw [refNames_ofModule h]
  exact nodup_foldl_insertNew _ List.nodup_nil

theorem accessorNames_ofModule :
    t.accessors.map (·.name) = ((moduleRoles source items).filterMap Role.accessorName?).foldl
      (fun seen name => insertNew name seen) [] := by
  rw [accessorNames_view.ofModule h, foldl_insertSome]
  rfl

theorem hooks_ofModule : t.hooks = ((moduleRoles source items).filterMap Role.hook?).foldl
      (fun seen name => insertNew name seen) [] := by
  rw [hooks_view.ofModule h, foldl_insertSome]

theorem events_ofModule : t.events = (moduleRoles source items).filterMap Role.event? := by
  rw [events_view.ofModule h, foldl_toList]
  rfl

theorem setupBodies_ofModule :
    t.body.filterMap setupBody? = (moduleRoles source items).filterMap Role.setupBody? := by
  have hview := items_view (g := setupBody?) (fun item hitem => by cases item <;> trivial)
    fun _ => rfl
  rw [hview.ofModule h, foldl_toList]
  rfl

theorem registrations_ofModule :
    t.body.filterMap registration? = (moduleRoles source items).filterMap Role.hook? := by
  have hview := items_view (g := registration?) (fun item hitem => by cases item <;> trivial)
    fun _ => rfl
  rw [hview.ofModule h, foldl_toList]
  rfl

theorem inPlaceNames_ofModule : t.body.filterMap (itemName? t.events) =
      (moduleRoles source items).filterMap Role.inPlaceName? := by
  rw [inPlaceNames_view.ofModule h, foldl_toList]
  rfl

theorem hasRole_ofModule : ∀ m ∈ moduleMembers items, HasRole source m :=
  (memberNames_foldlM_addItem consistent_empty h).2.1

theorem becomes_members : List.Forall₂ Becomes (moduleMembers items) (moduleRoles source items) :=
  List.forall₂_map_right_iff.2 (List.forall₂_same.2 fun m hm =>
    becomes_roleOf (hasRole_ofModule h m hm))

end

end Tables

/-! ## Members with different names -/

/-- One member is the getter and the other the setter of an accessor. -/
def isAccessorPair : Member → Member → Bool
  | .method _ _ .getter _ _ _, .method _ _ .setter _ _ _
  | .method _ _ .setter _ _ _, .method _ _ .getter _ _ _ => true
  | _, _ => false

/-- The members have one name and are not the two halves of an accessor. -/
def isNameClash (m m' : Member) : Bool :=
  (memberName? m).isSome && memberName? m == memberName? m' && !isAccessorPair m m'

/-- The members have different names, where a getter and its setter count as one. -/
def DistinctMembers (members : List Member) : Prop :=
  members.Pairwise fun m m' => isNameClash m m' = false

instance (members : List Member) : Decidable (DistinctMembers members) :=
  inferInstanceAs (Decidable (List.Pairwise _ members))

theorem isAccessorPair_comm (m m' : Member) : isAccessorPair m m' = isAccessorPair m' m := by
  cases m with
  | method span ds kind key f ps =>
    cases m' with
    | method span' ds' kind' key' f' ps' => cases kind <;> cases kind' <;> rfl
    | _ => cases kind <;> rfl
  | _ =>
    cases m' with
    | method span' ds' kind' key' f' ps' => cases kind' <;> rfl
    | _ => rfl

theorem isAccessorPair_of_name {m m' : Member} {n : String} (h : isNameClash m m' = false)
    (hm : memberName? m = some n) (hm' : memberName? m' = some n) :
    isAccessorPair m m' = true := by
  simpa [isNameClash, hm, hm'] using h

instance : Std.Symm fun m m' => isNameClash m m' = false where
  symm m m' h := by
    by_contra hclash
    have hclash : isNameClash m' m = true := by simpa using hclash
    simp only [isNameClash, Bool.and_eq_true, beq_iff_eq, Bool.not_eq_true'] at hclash
    obtain ⟨⟨hsome, hname⟩, hpair⟩ := hclash
    obtain ⟨n, hn⟩ := Option.isSome_iff_exists.1 hsome
    have := isAccessorPair_of_name h (hname ▸ hn) hn
    rw [isAccessorPair_comm, hpair] at this
    cases this

/-- The role declares a name for which no other half can stand. -/
def Role.isWhole : Role → Bool
  | .ref _ | .field _ _ _ _ | .method _ _ => true
  | .input _ | .watcher _ | .event _ | .lifecycle _ _ | .setupHook _ | .getter _ _ | .setter _ _
  | .nothing | .unsupported _ _ => false

/-- A half of an accessor is an accessor, unless a decorator gives it another meaning. -/
theorem isWhole_of_isAccessorPair {source : List Char} {m m' : Member} (hrole : HasRole source m)
    (h : isAccessorPair m m' = true) : (roleOf source m).isWhole = false := by
  have hbecomes := becomes_roleOf hrole
  generalize roleOf source m = r at hbecomes ⊢
  cases hbecomes with
  | field | ref => cases h
  | method => cases m' <;> cases h
  | _ => rfl

section

variable {source : List Char} {m m' : Member} {n : String}

theorem memberName?_of_bindingName? (hrole : HasRole source m)
    (h : (roleOf source m).bindingName? = some n) : memberName? m = some n := by
  rw [bindingName?_roleOf hrole] at h
  split at h
  · cases h
  · exact h

/-- Two members that declare one name are both halves of an accessor. -/
theorem not_isWhole_of_bindingName? (hclash : isNameClash m m' = false)
    (hrole : HasRole source m) (hrole' : HasRole source m')
    (h : (roleOf source m).bindingName? = some n) (h' : (roleOf source m').bindingName? = some n) :
    (roleOf source m).isWhole = false ∧ (roleOf source m').isWhole = false := by
  have hpair := isAccessorPair_of_name hclash (memberName?_of_bindingName? hrole h)
    (memberName?_of_bindingName? hrole' h')
  exact ⟨isWhole_of_isAccessorPair hrole hpair,
    isWhole_of_isAccessorPair hrole' ((isAccessorPair_comm m' m).trans hpair)⟩

end

namespace Role

variable {r : Role} {n : String}

theorem of_refName? (h : r.refName? = some n) : r.bindingName? = some n ∧ r.isWhole = true := by
  cases r with
  | ref f => exact ⟨h, rfl⟩
  | _ => cases h

theorem of_accessorName? (h : r.accessorName? = some n) :
    r.bindingName? = some n ∧ r.refName? = none ∧ r.isWhole = false := by
  cases r with
  | getter name f | setter name f => exact ⟨h, rfl, rfl⟩
  | _ => cases h

theorem of_inPlaceName? (h : r.inPlaceName? = some n) :
    r.bindingName? = some n ∧ r.refName? = none ∧
      (r.isWhole = true ∨ r.event?.map (·.method) = some n) := by
  cases r with
  | event e => exact ⟨h, rfl, .inr h⟩
  | field name isReadonly type value | method name f => exact ⟨h, rfl, .inl rfl⟩
  | _ => cases h

end Role

theorem mem_filterMap_moduleRoles {α : Type} {source : List Char} {items : List ModuleItem}
    {f : Role → Option α} {a : α} :
    a ∈ (moduleRoles source items).filterMap f ↔
      ∃ m ∈ moduleMembers items, f (roleOf source m) = some a := by
  rw [moduleRoles, List.filterMap_map, List.mem_filterMap]
  rfl

namespace Tables

variable {source : List Char} {denied : List String} {items : List ModuleItem} {t : Tables}
  (h : ofModule source denied items = .ok t)

include h

theorem eventMethods_sublist :
    (t.events.map (·.method)).Sublist (t.body.filterMap (itemName? t.events)) := by
  have hmethods : t.events.map (·.method) =
      ((moduleRoles source items).filter (·.event?.isSome)).filterMap Role.inPlaceName? := by
    rw [events_ofModule h, List.map_filterMap, List.filterMap_filter]
    refine List.filterMap_congr fun r _ => ?_
    cases r <;> rfl
  rw [hmethods, inPlaceNames_ofModule h]
  exact List.filter_sublist.filterMap _

theorem mem_refNames {n : String} : n ∈ t.refs.map (·.name) ↔
      ∃ m ∈ moduleMembers items, (roleOf source m).refName? = some n := by
  rw [refNames_ofModule h, mem_foldl_insertNew, or_iff_right List.not_mem_nil,
    mem_filterMap_moduleRoles]

theorem mem_accessorNames {n : String} : n ∈ t.accessors.map (·.name) ↔
      ∃ m ∈ moduleMembers items, (roleOf source m).accessorName? = some n := by
  rw [accessorNames_ofModule h, mem_foldl_insertNew, or_iff_right List.not_mem_nil,
    mem_filterMap_moduleRoles]

theorem mem_inPlaceNames {n : String} : n ∈ t.body.filterMap (itemName? t.events) ↔
      ∃ m ∈ moduleMembers items, (roleOf source m).inPlaceName? = some n := by
  rw [inPlaceNames_ofModule h, mem_filterMap_moduleRoles]

theorem mem_eventMethods {n : String} : n ∈ t.events.map (·.method) ↔
      ∃ m ∈ moduleMembers items, (roleOf source m).event?.map (·.method) = some n := by
  rw [events_ofModule h, List.map_filterMap, mem_filterMap_moduleRoles]

/-- Two members that leave one name behind are both halves of an accessor. -/
theorem halves_of_bindingName?
    (hdistinct : DistinctMembers (moduleMembers items)) {m m' : Member}
    (hm : m ∈ moduleMembers items) (hm' : m' ∈ moduleMembers items) (hne : m ≠ m') {n : String}
    (hname : (roleOf source m).bindingName? = some n)
    (hname' : (roleOf source m').bindingName? = some n) :
    (roleOf source m).isWhole = false ∧ (roleOf source m').isWhole = false :=
  not_isWhole_of_bindingName? (hdistinct.forall hm hm' hne) (hasRole_ofModule h m hm)
    (hasRole_ofModule h m' hm') hname hname'

theorem disjoint_refNames
    (hdistinct : DistinctMembers (moduleMembers items)) :
    (t.refs.map (·.name)).Disjoint
      (t.accessors.map (·.name) ++ t.body.filterMap (itemName? t.events)) := by
  intro n hn hn'
  obtain ⟨m, hm, hname⟩ := (mem_refNames h).1 hn
  obtain ⟨hbinds, hwhole⟩ := Role.of_refName? hname
  have hother : ∃ m' ∈ moduleMembers items, (roleOf source m').bindingName? = some n ∧
      (roleOf source m').refName? = none := by
    rcases List.mem_append.1 hn' with hn' | hn'
    · obtain ⟨m', hm', hname'⟩ := (mem_accessorNames h).1 hn'
      obtain ⟨hbinds', hnone, -⟩ := Role.of_accessorName? hname'
      exact ⟨m', hm', hbinds', hnone⟩
    · obtain ⟨m', hm', hname'⟩ := (mem_inPlaceNames h).1 hn'
      obtain ⟨hbinds', hnone, -⟩ := Role.of_inPlaceName? hname'
      exact ⟨m', hm', hbinds', hnone⟩
  obtain ⟨m', hm', hbinds', hnone⟩ := hother
  have hne : m ≠ m' := by
    rintro rfl
    rw [hname] at hnone
    cases hnone
  rw [(halves_of_bindingName? h hdistinct hm hm' hne hbinds hbinds').1] at hwhole
  cases hwhole

theorem disjoint_accessorNames
    (hdistinct : DistinctMembers (moduleMembers items))
    (hevents : (t.accessors.map (·.name)).Disjoint (t.events.map (·.method))) :
    (t.accessors.map (·.name)).Disjoint (t.body.filterMap (itemName? t.events)) := by
  intro n hn hn'
  obtain ⟨m, hm, hname⟩ := (mem_accessorNames h).1 hn
  obtain ⟨m', hm', hname'⟩ := (mem_inPlaceNames h).1 hn'
  obtain ⟨hbinds, -, hapart⟩ := Role.of_accessorName? hname
  obtain ⟨hbinds', -, hwhole | hevent⟩ := Role.of_inPlaceName? hname'
  · have hne : m ≠ m' := by
      rintro rfl
      rw [hapart] at hwhole
      cases hwhole
    rw [(halves_of_bindingName? h hdistinct hm hm' hne hbinds hbinds').2] at hwhole
    cases hwhole
  · exact hevents hn ((mem_eventMethods h).2 ⟨m', hm', hevent⟩)

theorem nodup_inPlaceNames
    (hdistinct : DistinctMembers (moduleMembers items))
    (hevents : (t.events.map (·.method)).Nodup) :
    (t.body.filterMap (itemName? t.events)).Nodup := by
  rw [events_ofModule h, List.map_filterMap, moduleRoles, List.filterMap_map, List.Nodup,
    List.pairwise_filterMap] at hevents
  rw [inPlaceNames_ofModule h, moduleRoles, List.filterMap_map, List.Nodup,
    List.pairwise_filterMap]
  refine List.Pairwise.imp_of_mem ?_ (hdistinct.and hevents)
  rintro m m' hm hm' ⟨hclash, hevents⟩ n hname n' hname' rfl
  obtain ⟨hbinds, -, hkind⟩ := Role.of_inPlaceName? hname
  obtain ⟨hbinds', -, hkind'⟩ := Role.of_inPlaceName? hname'
  obtain ⟨hhalf, hhalf'⟩ := not_isWhole_of_bindingName? hclash (hasRole_ofModule h m hm)
    (hasRole_ofModule h m' hm') hbinds hbinds'
  rw [hhalf, or_iff_right nofun] at hkind
  rw [hhalf', or_iff_right nofun] at hkind'
  exact hevents n hkind n hkind' rfl

/-- Where members have different names, only an accessor of which one half raises an event leaves
a name behind twice. -/
theorem nodup_memberNames_iff
    (hdistinct : DistinctMembers (moduleMembers items)) :
    t.memberNames.Nodup ↔ (t.accessors.map (·.name) ++ t.events.map (·.method)).Nodup := by
  rw [memberNames, List.append_assoc]
  constructor
  · intro hnodup
    exact hnodup.of_append_right.sublist ((eventMethods_sublist h).append_left _)
  · intro hnodup
    obtain ⟨haccessors, hmethods, hapart⟩ := List.nodup_append'.1 hnodup
    exact (nodup_refNames h).append (haccessors.append (nodup_inPlaceNames h hdistinct hmethods)
      (disjoint_accessorNames h hdistinct hapart)) (disjoint_refNames h hdistinct)

end Tables

end ScriptSetup.Component
