import Mathlib.Data.List.Perm.Subperm
import ScriptSetup.Proofs.Component.TableContents

/-!
# Members that take the place of others

State, inputs, getters and setters are found by their names, so the tables have one slot for each
of them. Where several members have the same slot, the last one holds it and nothing is left of the
others. All other members are added to what is there already, with one exception: a method without
a body that would run during set-up leaves nothing behind.

`Tables.Keeps` says that every member has an entry of its own, or a finding. It holds exactly when
no two members have the same slot and every method that runs during set-up has a body.
-/

set_option autoImplicit false

namespace ScriptSetup.Component

open Script

/-! ## Slots -/

/-- A place in the tables for one member. -/
inductive Slot where
  | state (name : String)
  | input (name : String)
  | getter (name : String)
  | setter (name : String)
  deriving DecidableEq, Repr

namespace Role

/-- The slot of a role that has one. -/
def slot? : Role → Option Slot
  | ref f => some (.state f.name)
  | input i => some (.input i.name)
  | getter name _ => some (.getter name)
  | setter name _ => some (.setter name)
  | _ => none

/-- The role, when it has this slot. -/
def inSlot? (k : Slot) (r : Role) : Option Role :=
  if r.slot? = some k then some r else none

/-- A watcher. -/
def watcher? : Role → Option Watcher
  | watcher w => some w
  | _ => none

/-- What stays in place of a field, a method or a hook. -/
def ownItem? : Role → Option BodyItem
  | lifecycle hook f => some (.lifecycle hook f)
  | setupHook f => some (.hoisted f.body)
  | field name isReadonly type value => some (.field name isReadonly type value)
  | method name f => some (.method name f)
  | _ => none

/-- The finding about a member that cannot be converted. -/
def finding? : Role → Option Finding
  | unsupported what span => some ⟨.noEquivalent what, span⟩
  | _ => none

/-- A method that runs during set-up has a body. -/
def hasSetupBody : Role → Bool
  | setupHook f => f.hasBody
  | _ => true

end Role

/-- The getter and the setter of an accessor. -/
def Accessor.halves (a : Accessor) : List Role :=
  (a.getter.map (Role.getter a.name)).toList ++ (a.setter.map (Role.setter a.name)).toList

namespace Tables

/-- What holds the slots of the tables. -/
def slotted (t : Tables) : List Role :=
  t.refs.map .ref ++ t.inputs.map .input ++ t.accessors.flatMap Accessor.halves

/-- What holds a slot. -/
def holder (t : Tables) : Slot → Option Role
  | .state name => (t.refs.find? (·.name == name)).map .ref
  | .input name => (t.inputs.find? (·.name == name)).map .input
  | .getter name => (getterOf t.accessors name).map (.getter name)
  | .setter name => (setterOf t.accessors name).map (.setter name)

/-- Every member has an entry of its own in the tables, or a finding of its own. -/
structure Keeps (roles : List Role) (t : Tables) (findings : List Finding) : Prop where
  /-- state, inputs, getters and setters -/
  slots : (roles.filter (·.slot?.isSome)).Subperm t.slotted
  watchers : (roles.filterMap Role.watcher?).Subperm t.watchers
  events : (roles.filterMap Role.event?).Subperm t.events
  /-- fields, methods and hooks -/
  items : (roles.filterMap Role.ownItem?).Subperm t.body
  /-- everything that cannot be converted -/
  reported : (roles.filterMap Role.finding?).Subperm findings

end Tables

/-! ## The last member holds a slot -/

theorem find?_upsert {α : Type} (key : α → String) (entry : α) (entries : List α) (name : String) :
    (upsert key entry entries).find? (key · == name) =
      if key entry = name then some entry else entries.find? (key · == name) := by
  induction entries with
  | nil => by_cases h : key entry = name <;> simp [upsert, h]
  | cons a rest ih =>
    rw [upsert]
    split
    · rename_i ha
      by_cases h : key entry = name <;> simp [ha, h]
    · rename_i ha
      by_cases h : key a = name
      · have hentry : key entry ≠ name := fun hentry => ha (h.trans hentry.symm)
        simp [h, hentry]
      · simp [h, ih]

namespace Tables

/-- A role takes its slot and leaves the others. -/
theorem holder_place (t : Tables) (r : Role) (k : Slot) :
    (t.place r).holder k = (r.inSlot? k).or (t.holder k) := by
  obtain ⟨-, hrefs, hinputs, -, haccessors, -⟩ := place_eq t r
  cases k with
  | state name =>
    rw [holder, hrefs]
    cases r with
    | ref f =>
      rw [placeRef, find?_upsert]
      by_cases h : f.name = name <;> simp [Role.inSlot?, Role.slot?, h, holder]
    | _ => simp [Role.inSlot?, Role.slot?, placeRef, holder]
  | input name =>
    rw [holder, hinputs]
    cases r with
    | input i =>
      rw [placeInput, find?_upsert]
      by_cases h : i.name = name <;> simp [Role.inSlot?, Role.slot?, h, holder]
    | _ => simp [Role.inSlot?, Role.slot?, placeInput, holder]
  | getter name =>
    rw [holder, haccessors, (placeAccessor_overrides t.accessors r name).1]
    cases r with
    | getter n f =>
      by_cases h : n = name <;> simp [Role.inSlot?, Role.slot?, Role.getterOf?, h, holder]
    | _ => simp [Role.inSlot?, Role.slot?, Role.getterOf?, holder]
  | setter name =>
    rw [holder, haccessors, (placeAccessor_overrides t.accessors r name).2]
    cases r with
    | setter n f =>
      by_cases h : n = name <;> simp [Role.inSlot?, Role.slot?, Role.setterOf?, h, holder]
    | _ => simp [Role.inSlot?, Role.slot?, Role.setterOf?, holder]

theorem holder_view (k : Slot) :
    RoleView (fun t => t.holder k) (fun held r => (r.inSlot? k).or held) where
  code _ := by cases k <;> rfl
  imports _ _ := by cases k <;> rfl
  item _ _ _ := by cases k <;> rfl
  place {t} _ r := holder_place t r k

section

variable {source : List Char} {denied : List String} {items : List ModuleItem} {t : Tables}

/-- The last member with a slot holds it. -/
theorem holder_ofModule (h : ofModule source denied items = .ok t) (k : Slot) :
    t.holder k = ((moduleRoles source items).filterMap (Role.inSlot? k)).getLast? := by
  rw [(holder_view k).ofModule h]
  refine (foldl_last (v := id) (fun _ _ => rfl) (moduleRoles source items) _).trans ?_
  cases k <;> exact Option.or_none

theorem watchers_view : RoleView (·.watchers) (fun seen r => seen ++ r.watcher?.toList) where
  code _ := rfl
  imports _ _ := rfl
  item _ _ _ := rfl
  place {t} _ r := by
    obtain ⟨-, -, -, hwatchers, -⟩ := place_eq t r
    rw [hwatchers]
    cases r with
    | watcher w => rfl
    | _ => exact (List.append_nil _).symm

theorem watchers_ofModule (h : ofModule source denied items = .ok t) :
    t.watchers = (moduleRoles source items).filterMap Role.watcher? := by
  rw [watchers_view.ofModule h, foldl_toList]
  rfl

end

theorem mem_slotted_of_holder {t : Tables} {k : Slot} {r : Role} (h : t.holder k = some r) :
    r ∈ t.slotted := by
  have hhalf {name : String} {f : Func} {half : Accessor → Option Func}
      (hf : (accessorOf t.accessors name).bind half = some f) :
      ∃ a ∈ t.accessors, a.name = name ∧ half a = some f := by
    obtain ⟨a, ha, hf⟩ := Option.bind_eq_some_iff.1 hf
    exact ⟨a, List.mem_of_find?_eq_some ha, name_of_accessorOf ha, hf⟩
  rw [slotted, List.mem_append, List.mem_append]
  cases k with
  | state name =>
    obtain ⟨f, hf, rfl⟩ := Option.map_eq_some_iff.1 h
    exact .inl (.inl (List.mem_map_of_mem (List.mem_of_find?_eq_some hf)))
  | input name =>
    obtain ⟨i, hi, rfl⟩ := Option.map_eq_some_iff.1 h
    exact .inl (.inr (List.mem_map_of_mem (List.mem_of_find?_eq_some hi)))
  | getter name =>
    obtain ⟨f, hf, rfl⟩ := Option.map_eq_some_iff.1 h
    obtain ⟨a, ha, rfl, hgetter⟩ := hhalf hf
    exact .inr (List.mem_flatMap.2 ⟨a, ha, by simp [Accessor.halves, hgetter]⟩)
  | setter name =>
    obtain ⟨f, hf, rfl⟩ := Option.map_eq_some_iff.1 h
    obtain ⟨a, ha, rfl, hsetter⟩ := hhalf hf
    exact .inr (List.mem_flatMap.2 ⟨a, ha, by simp [Accessor.halves, hsetter]⟩)

/-! ## Slots are held once -/

/-- The slots of an accessor. -/
theorem filterMap_slot?_halves (a : Accessor) :
    a.halves.filterMap Role.slot? =
      (a.getter.map fun _ => Slot.getter a.name).toList ++
        (a.setter.map fun _ => Slot.setter a.name).toList := by
  obtain ⟨name, getter, setter⟩ := a
  cases getter <;> cases setter <;> rfl

theorem filterMap_slot?_slotted (t : Tables) :
    t.slotted.filterMap Role.slot? =
      (t.refs.map (·.name)).map Slot.state ++ (t.inputs.map (·.name)).map Slot.input ++
        t.accessors.flatMap fun a => a.halves.filterMap Role.slot? := by
  have hrefs : (t.refs.map Role.ref).filterMap Role.slot? =
      (t.refs.map (·.name)).map Slot.state := by
    rw [List.filterMap_map, List.map_map]
    exact congrFun List.filterMap_eq_map t.refs
  have hinputs : (t.inputs.map Role.input).filterMap Role.slot? =
      (t.inputs.map (·.name)).map Slot.input := by
    rw [List.filterMap_map, List.map_map]
    exact congrFun List.filterMap_eq_map t.inputs
  rw [slotted, List.filterMap_append, List.filterMap_append, hrefs, hinputs, List.filterMap_flatMap]

theorem nodup_slots {t : Tables} (hrefs : (t.refs.map (·.name)).Nodup)
    (hinputs : (t.inputs.map (·.name)).Nodup) (haccessors : (t.accessors.map (·.name)).Nodup) :
    (t.slotted.filterMap Role.slot?).Nodup := by
  have hhalves : (t.accessors.flatMap fun a => a.halves.filterMap Role.slot?).Nodup := by
    rw [List.nodup_flatMap]
    refine ⟨fun a _ => ?_, (List.pairwise_map.1 haccessors).imp fun {a b} hne => ?_⟩
    · rw [filterMap_slot?_halves]
      cases a.getter <;> cases a.setter <;> simp
    · show (a.halves.filterMap Role.slot?).Disjoint (b.halves.filterMap Role.slot?)
      rw [filterMap_slot?_halves, filterMap_slot?_halves]
      cases a.getter <;> cases a.setter <;> cases b.getter <;> cases b.setter <;>
        simp [hne, hne.symm]
  have hkind : ∀ k ∈ t.accessors.flatMap fun a => a.halves.filterMap Role.slot?,
      ∃ name, k = .getter name ∨ k = .setter name := by
    intro k hk
    obtain ⟨a, -, hk⟩ := List.mem_flatMap.1 hk
    rw [filterMap_slot?_halves] at hk
    refine ⟨a.name, ?_⟩
    cases hgetter : a.getter <;> cases hsetter : a.setter <;> simp_all
  rw [filterMap_slot?_slotted]
  refine ((hrefs.map fun _ _ => Slot.state.inj).append (hinputs.map fun _ _ => Slot.input.inj)
    ?_).append hhalves ?_
  · intro k hk hk'
    obtain ⟨name, -, rfl⟩ := List.mem_map.1 hk
    obtain ⟨name', -, hname⟩ := List.mem_map.1 hk'
    cases hname
  · intro k hk hk'
    obtain ⟨name, rfl | rfl⟩ := hkind k hk' <;> simp at hk

section

variable {source : List Char} {denied : List String} {items : List ModuleItem} {t : Tables}

theorem nodup_slotted (h : ofModule source denied items = .ok t) :
    (t.slotted.filterMap Role.slot?).Nodup := by
  refine nodup_slots (nodup_refNames h) ?_ ?_
  · rw [inputNames_ofModule h]
    exact nodup_foldl_insertNew _ List.nodup_nil
  · rw [accessorNames_ofModule h]
    exact nodup_foldl_insertNew _ List.nodup_nil

end

end Tables

/-! ## When every member is kept -/

/-- Of members with different slots, each is the only one in its slot. -/
theorem filterMap_inSlot?_of_nodup {roles : List Role} (h : (roles.filterMap Role.slot?).Nodup)
    {r : Role} (hr : r ∈ roles) {k : Slot} (hk : r.slot? = some k) :
    roles.filterMap (Role.inSlot? k) = [r] := by
  obtain ⟨before, after, rfl⟩ := List.append_of_mem hr
  have hnone {part : List Role} (hpart : k ∉ part.filterMap Role.slot?) :
      part.filterMap (Role.inSlot? k) = [] := by
    refine List.filterMap_eq_nil_iff.2 fun r' hr' => if_neg fun hk' => hpart ?_
    exact List.mem_filterMap.2 ⟨r', hr', hk'⟩
  rw [List.filterMap_append, List.filterMap_cons_some hk, List.nodup_append'] at h
  obtain ⟨-, hafter, hapart⟩ := h
  have hbefore : k ∉ before.filterMap Role.slot? := fun hmem => hapart hmem List.mem_cons_self
  have hself : r.inSlot? k = some r := if_pos hk
  rw [List.filterMap_append, List.filterMap_cons_some hself, hnone hbefore,
    hnone (List.nodup_cons.1 hafter).1]
  rfl

theorem filterMap_slot?_filter (roles : List Role) :
    (roles.filter (·.slot?.isSome)).filterMap Role.slot? = roles.filterMap Role.slot? := by
  rw [List.filterMap_filter]
  refine List.filterMap_congr fun r _ => ?_
  cases r.slot? <;> rfl

/-- Where one condition implies another and holds as often, both are the same. -/
theorem of_countP_le {α : Type} {p q : α → Bool} (himp : ∀ a, q a = true → p a = true)
    {as : List α} (hle : as.countP p ≤ as.countP q) : ∀ a ∈ as, p a = true → q a = true := by
  induction as with
  | nil => exact fun _ => nofun
  | cons a as ih =>
    have hmono : as.countP q ≤ as.countP p := List.countP_mono_left fun a _ => himp a
    rw [List.countP_cons, List.countP_cons] at hle
    have hhead : p a = true → q a = true := by
      intro hp
      by_contra hq
      rw [if_pos hp, if_neg hq] at hle
      omega
    refine List.forall_mem_cons.2 ⟨hhead, ih ?_⟩
    by_cases hq : q a = true
    · rw [if_pos (himp a hq), if_pos hq] at hle
      omega
    · rw [if_neg fun hp => hq (hhead hp), if_neg hq] at hle
      omega

theorem subperm_filterMap {α β : Type} {as bs : List α} (h : as.Subperm bs) (f : α → Option β) :
    (as.filterMap f).Subperm (bs.filterMap f) := by
  obtain ⟨cs, hperm, hsub⟩ := h
  exact ⟨cs.filterMap f, hperm.filterMap f, hsub.filterMap f⟩

namespace Tables

section

variable {source : List Char} {denied : List String} {items : List ModuleItem} {t : Tables}

/-- Members keep their slots exactly when they have different ones. -/
theorem subperm_slotted_iff (h : ofModule source denied items = .ok t) :
    ((moduleRoles source items).filter (·.slot?.isSome)).Subperm t.slotted ↔
      ((moduleRoles source items).filterMap Role.slot?).Nodup := by
  constructor
  · intro hsub
    obtain ⟨slots, hperm, hslots⟩ := subperm_filterMap hsub Role.slot?
    rw [filterMap_slot?_filter] at hperm
    exact hperm.nodup_iff.1 ((nodup_slotted h).sublist hslots)
  · intro hnodup
    refine List.subperm_of_subset ?_ fun r hr => ?_
    · rw [← filterMap_slot?_filter] at hnodup
      refine List.Pairwise.imp_of_mem ?_ (List.pairwise_filterMap.1 hnodup)
      rintro r r' hr hr' hne rfl
      obtain ⟨k, hk⟩ := Option.isSome_iff_exists.1 (List.mem_filter.1 hr).2
      exact hne k hk k hk rfl
    · obtain ⟨hr, hslot⟩ := List.mem_filter.1 hr
      obtain ⟨k, hk⟩ := Option.isSome_iff_exists.1 hslot
      refine mem_slotted_of_holder (k := k) ?_
      rw [holder_ofModule h, filterMap_inSlot?_of_nodup hnodup hr hk]
      rfl

end

/-! ## Members in place -/

/-- The item stays in place of a field, a method or a hook. -/
def isMemberItem : BodyItem → Bool
  | .field _ _ _ _ | .method _ _ | .lifecycle _ _ | .hoisted _ => true
  | .stmt _ | .exportDecl _ _ | .moduleDecl _ | .emit _ | .unsupported => false

theorem item?_bind_guard {r : Role} (h : r.hasSetupBody = true) :
    r.item?.bind (Option.guard isMemberItem) = r.ownItem? := by
  cases r with
  | setupHook f => simp [Role.item?, Role.ownItem?, show f.hasBody = true from h, isMemberItem]
  | _ => simp [Role.item?, Role.ownItem?, isMemberItem]

/-- The statements of a method that runs during set-up. -/
theorem isSome_setupBody? (r : Role) :
    r.setupBody?.isSome = ((r.ownItem?.bind setupBody?).isSome && r.hasSetupBody) := by
  cases r with
  | setupHook f => cases hf : f.hasBody <;> simp [Role.setupBody?, Role.item?, Role.ownItem?,
      Component.setupBody?, Role.hasSetupBody, hf]
  | _ => rfl

section

variable {source : List Char} {denied : List String} {items : List ModuleItem} {t : Tables}

theorem memberItems_ofModule (h : ofModule source denied items = .ok t) :
    t.body.filter isMemberItem =
      (moduleRoles source items).filterMap (·.item?.bind (Option.guard isMemberItem)) := by
  have hview := items_view (g := Option.guard isMemberItem)
    (fun item hitem => by cases item <;> trivial) fun _ => rfl
  have hitems := hview.ofModule h
  rw [foldl_toList, List.filterMap_eq_filter] at hitems
  exact hitems

/-- Fields, methods and hooks are kept exactly when what runs during set-up has a body. -/
theorem subperm_body_iff (h : ofModule source denied items = .ok t) :
    ((moduleRoles source items).filterMap Role.ownItem?).Subperm t.body ↔
      ∀ r ∈ moduleRoles source items, r.hasSetupBody = true := by
  constructor
  · intro hsub r hr
    have hlength := (subperm_filterMap hsub setupBody?).length_le
    rw [setupBodies_ofModule h, List.filterMap_filterMap, List.length_filterMap_eq_countP,
      List.length_filterMap_eq_countP] at hlength
    cases hbody : r.hasSetupBody with
    | true => rfl
    | false =>
      have hown : (r.ownItem?.bind setupBody?).isSome = true := by
        cases r with
        | setupHook f => rfl
        | _ => cases hbody
      have hsome := of_countP_le (fun r hr => by
        rw [isSome_setupBody?, Bool.and_eq_true] at hr
        exact hr.1) hlength r hr hown
      rw [isSome_setupBody?, hbody, Bool.and_false] at hsome
      cases hsome
  · intro hbodies
    have hown : (moduleRoles source items).filterMap Role.ownItem? =
        t.body.filter isMemberItem := by
      rw [memberItems_ofModule h]
      exact List.filterMap_congr fun r hr => (item?_bind_guard (hbodies r hr)).symm
    rw [hown]
    exact List.filter_sublist.subperm

/-! ## Findings about members -/

theorem findings_place (t : Tables) (r : Role) :
    (t.place r).findings = t.findings ++ r.finding?.toList := by
  cases r with
  | unsupported what span => rfl
  | _ => exact (List.append_nil _).symm

theorem findings_foldlM_addMember {members : List Member} {t t' : Tables}
    (h : members.foldlM (addMember source) t = .ok t') :
    ∃ more, t'.findings = t.findings ++ more ∧
      ((members.map (roleOf source)).filterMap Role.finding?).Sublist more := by
  induction members generalizing t with
  | nil =>
    cases h
    exact ⟨[], (List.append_nil _).symm, .slnil⟩
  | cons m members ih =>
    obtain ⟨t₁, hm, h⟩ := bind_eq_ok.1 h
    obtain ⟨⟨role, findings⟩, hrole, hm⟩ := bind_eq_ok.1 hm
    obtain ⟨more, hmore, hsub⟩ := ih h
    have hroleOf : roleOf source m = role := by rw [roleOf, hrole]
    rw [← Except.ok.inj hm, findings_place] at hmore
    refine ⟨findings ++ (role.finding?.toList ++ more), ?_, ?_⟩
    · rw [hmore, List.append_assoc, List.append_assoc]
    · have hcons : ((m :: members).map (roleOf source)).filterMap Role.finding? =
          role.finding?.toList ++ (members.map (roleOf source)).filterMap Role.finding? := by
        rw [List.map_cons, hroleOf, List.filterMap_cons]
        cases role.finding? <;> rfl
      rw [hcons]
      exact (hsub.append_left _).trans (List.sublist_append_right _ _)

theorem findings_addItem {item : ModuleItem} {t t' : Tables}
    (h : t.addItem source denied item = .ok t') :
    ∃ more, t'.findings = t.findings ++ more ∧
      (((itemMembers item).map (roleOf source)).filterMap Role.finding?).Sublist more := by
  cases item with
  | component c =>
    obtain ⟨t₁, hmembers, h⟩ := bind_eq_ok.1 h
    obtain ⟨more, hmore, hsub⟩ := findings_foldlM_addMember hmembers
    cases h
    refine ⟨_, by rw [hmore, List.append_assoc, List.append_assoc], ?_⟩
    exact (hsub.trans (List.sublist_append_left _ _)).trans (List.sublist_append_right _ _)
  | importDecl decl =>
    cases h
    rw [addImport]
    split
    · exact ⟨_, rfl, List.nil_sublist _⟩
    · exact ⟨[], (List.append_nil _).symm, .slnil⟩
  | defaultDecl span =>
    cases h
    exact ⟨_, rfl, List.nil_sublist _⟩
  | _ =>
    cases h
    exact ⟨[], (List.append_nil _).symm, .slnil⟩

theorem findings_foldlM_addItem {items : List ModuleItem} {t t' : Tables}
    (h : items.foldlM (addItem source denied) t = .ok t') :
    ∃ more, t'.findings = t.findings ++ more ∧
      ((moduleRoles source items).filterMap Role.finding?).Sublist more := by
  induction items generalizing t with
  | nil =>
    cases h
    exact ⟨[], (List.append_nil _).symm, .slnil⟩
  | cons item items ih =>
    obtain ⟨t₁, hitem, h⟩ := bind_eq_ok.1 h
    obtain ⟨first, hfirst, hsub⟩ := findings_addItem hitem
    obtain ⟨more, hmore, hsub'⟩ := ih h
    refine ⟨first ++ more, by rw [hmore, hfirst, List.append_assoc], ?_⟩
    rw [moduleRoles_cons, List.filterMap_append]
    exact hsub.append hsub'

/-- Each member that cannot be converted has its finding. -/
theorem findings_ofModule (h : ofModule source denied items = .ok t) :
    ((moduleRoles source items).filterMap Role.finding?).Sublist t.findings := by
  obtain ⟨more, hmore, hsub⟩ := findings_foldlM_addItem h
  rw [hmore]
  exact hsub.trans (List.sublist_append_right _ _)

/-- Every member is kept or reported exactly when no two have the same slot and what runs during
set-up has a body. -/
theorem keeps_iff (h : ofModule source denied items = .ok t) {findings : List Finding}
    (hfindings : t.findings.Subperm findings) :
    Keeps (moduleRoles source items) t findings ↔
      ((moduleRoles source items).filterMap Role.slot?).Nodup ∧
        ∀ r ∈ moduleRoles source items, r.hasSetupBody = true := by
  rw [← subperm_slotted_iff h, ← subperm_body_iff h]
  constructor
  · exact fun hkeeps => ⟨hkeeps.slots, hkeeps.items⟩
  · rintro ⟨hslots, hitems⟩
    refine ⟨hslots, ?_, ?_, hitems, (findings_ofModule h).subperm.trans hfindings⟩
    · rw [watchers_ofModule h]
    · rw [events_ofModule h]

end

end Tables

end ScriptSetup.Component
