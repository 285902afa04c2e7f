import ScriptSetup.Proofs.Component.Relocation

/-!
# The names that members leave behind

A member that becomes state, an accessor, a field, a method or the method of an event leaves a
declaration of its name behind. An input leaves none, nor does a method that becomes a watcher, a
hook or code that runs during set-up. All of them count as declared by the component.
-/

set_option autoImplicit false

namespace ScriptSetup.Component

open Script

variable {name n : String} {r : Role}

/-! ## Names by role -/

/-- The name that a role declares beside all other code. -/
def Role.bindingName? : Role → Option String
  | .ref f => some f.name
  | .event e => some e.method
  | .getter name _ | .setter name _ | .field name _ _ _ | .method name _ => some name
  | .input _ | .watcher _ | .lifecycle _ _ | .setupHook _ | .nothing | .unsupported _ _ => none

/-- The role takes the name of its member away: an input is reached through all inputs, and a
watcher or hook becomes code without a name. -/
def Role.isNameless : Role → Bool
  | .input _ | .watcher _ | .lifecycle _ _ | .setupHook _ => true
  | .ref _ | .event _ | .getter _ _ | .setter _ _ | .field _ _ _ _ | .method _ _ | .nothing
  | .unsupported _ _ => false

/-- The name of a member that stays in place as a declaration. -/
def itemName? (events : List Event) : BodyItem → Option String
  | .field name _ _ _ | .method name _ => some name
  | .emit index => events[index]?.map (·.method)
  | .stmt _ | .exportDecl _ _ | .moduleDecl _ | .lifecycle _ _ | .hoisted _ | .unsupported => none

/-- A role declares the name of its member, unless it takes the name away. -/
theorem bindingName?_roleOf {source : List Char} {m : Member} (h : HasRole source m) :
    (roleOf source m).bindingName? =
      if (roleOf source m).isNameless then none else memberName? m := by
  have hbecomes := becomes_roleOf h
  generalize roleOf source m = r at hbecomes ⊢
  cases hbecomes with
  | unnamedField hkey | unnamedMethod hkey => exact hkey.symm
  | input | watcher | lifecycle | setupHook | classOnly | empty => rfl
  | field hkey | ref hkey | event hkey | getter hkey | setter hkey | method hkey => exact hkey.symm

/-! ## Names in a table -/

theorem mem_insertNew {names : List String} : n ∈ insertNew name names ↔ n ∈ names ∨ n = name := by
  rw [insertNew]
  split
  · rename_i hname
    have hname : name ∈ names := by simpa using hname
    constructor
    · exact .inl
    · rintro (hn | rfl)
      · exact hn
      · exact hname
  · simp

theorem mem_foldl_insertNew {names seen : List String} :
    n ∈ names.foldl (fun seen name => insertNew name seen) seen ↔ n ∈ seen ∨ n ∈ names := by
  induction names generalizing seen with
  | nil => simp
  | cons name names ih => rw [List.foldl_cons, ih, mem_insertNew, List.mem_cons, or_assoc]

theorem mem_map_upsert {α : Type} {key : α → String} {entry : α} {entries : List α} :
    n ∈ (upsert key entry entries).map key ↔ n ∈ entries.map key ∨ n = key entry := by
  induction entries with
  | nil => simp [upsert]
  | cons a rest ih =>
    rw [upsert]
    split
    · rename_i hkey
      rw [List.map_cons, List.map_cons, List.mem_cons, List.mem_cons, hkey, or_right_comm, or_self]
    · rw [List.map_cons, List.map_cons, List.mem_cons, List.mem_cons, ih, or_assoc]

/-- A new entry keeps the others. -/
theorem mem_upsert {α : Type} {key : α → String} {entry a : α} {entries : List α}
    (h : a ∈ upsert key entry entries) : a ∈ entries ∨ a = entry := by
  induction entries with
  | nil => exact .inr (List.mem_singleton.1 h)
  | cons b rest ih =>
    rw [upsert] at h
    split at h
    · rcases List.mem_cons.1 h with rfl | h
      · exact .inr rfl
      · exact .inl (List.mem_cons_of_mem b h)
    · rcases List.mem_cons.1 h with rfl | h
      · exact .inl List.mem_cons_self
      · exact (ih h).imp_left (List.mem_cons_of_mem b)

theorem mem_map_updateAccessor {change : Accessor → Accessor}
    (hchange : ∀ a, (change a).name = a.name) {accessors : List Accessor} :
    n ∈ (updateAccessor name change accessors).map (·.name) ↔
      n ∈ accessors.map (·.name) ∨ n = name := by
  rw [map_name_updateAccessor hchange, mem_insertNew]

/-- A change to an accessor keeps the others. -/
theorem mem_updateAccessor {change : Accessor → Accessor} {accessors : List Accessor} {a : Accessor}
    (h : a ∈ updateAccessor name change accessors) :
    a ∈ accessors ∨ ∃ b, (b ∈ accessors ∨ b = { name }) ∧ a = change b := by
  induction accessors with
  | nil => exact .inr ⟨_, .inr rfl, List.mem_singleton.1 h⟩
  | cons b rest ih =>
    rw [updateAccessor] at h
    split at h
    · rcases List.mem_cons.1 h with rfl | h
      · exact .inr ⟨b, .inl List.mem_cons_self, rfl⟩
      · exact .inl (List.mem_cons_of_mem b h)
    · rcases List.mem_cons.1 h with rfl | h
      · exact .inl List.mem_cons_self
      · rcases ih h with h | ⟨b', hb', rfl⟩
        · exact .inl (List.mem_cons_of_mem b h)
        · exact .inr ⟨b', hb'.imp_left (List.mem_cons_of_mem b), rfl⟩

/-- The name of an item stays the same when events are added. -/
theorem itemName?_append {events : List Event} (more : List Event) {item : BodyItem}
    (h : ∀ index, item = .emit index → index < events.length) :
    itemName? (events ++ more) item = itemName? events item := by
  cases item with
  | emit index => rw [itemName?, itemName?, List.getElem?_append_left (h index rfl)]
  | _ => rfl

namespace Tables

/-- The names that members leave behind. -/
def memberNames (t : Tables) : List String :=
  t.refs.map (·.name) ++ t.accessors.map (·.name) ++ t.body.filterMap (itemName? t.events)

/-- What holds of all tables: the method of an event stands for an event of the table, and every
accessor can be read or written. -/
structure Consistent (t : Tables) : Prop where
  events : ∀ index, .emit index ∈ t.body → index < t.events.length
  accessors : ∀ a ∈ t.accessors, a.getter ≠ none ∨ a.setter ≠ none

theorem consistent_empty : ({} : Tables).Consistent :=
  ⟨fun _ => nofun, fun _ => nofun⟩

theorem mem_memberNames {t : Tables} {n : String} :
    n ∈ t.memberNames ↔ n ∈ t.refs.map (·.name) ∨ n ∈ t.accessors.map (·.name) ∨
      ∃ item ∈ t.body, itemName? t.events item = some n := by
  simp only [memberNames, List.mem_append, List.mem_filterMap, or_assoc]

/-! ## One role -/

section

variable {t : Tables}

theorem Consistent.append (h : t.Consistent) (item : BodyItem)
    (hitem : ∀ index, item ≠ .emit index) {t' : Tables} (hbody : t'.body = t.body ++ [item])
    (hevents : t'.events = t.events) (haccessors : t'.accessors = t.accessors) :
    t'.Consistent := by
  refine ⟨fun index hindex => ?_, haccessors ▸ h.accessors⟩
  rw [hbody, List.mem_append, List.mem_singleton] at hindex
  rw [hevents]
  rcases hindex with hindex | hindex
  · exact h.events index hindex
  · exact (hitem index hindex.symm).elim

theorem Consistent.place (h : t.Consistent) (r : Role) : (t.place r).Consistent := by
  cases r with
  | event e =>
    refine ⟨fun index hindex => ?_, h.accessors⟩
    have hindex : .emit index ∈ t.body ++ [.emit t.events.length] := hindex
    have hlength : (t.place (.event e)).events.length = t.events.length + 1 := by
      simp [Tables.place]
    rw [hlength]
    rcases List.mem_append.1 hindex with hindex | hindex
    · exact Nat.lt_succ_of_lt (h.events index hindex)
    · cases List.mem_singleton.1 hindex
      exact Nat.lt_succ_self _
  | getter name f =>
    refine ⟨h.events, fun a ha => ?_⟩
    rcases mem_updateAccessor ha with ha | ⟨b, -, rfl⟩
    · exact h.accessors a ha
    · exact .inl (Option.some_ne_none f)
  | setter name f =>
    refine ⟨h.events, fun a ha => ?_⟩
    rcases mem_updateAccessor ha with ha | ⟨b, -, rfl⟩
    · exact h.accessors a ha
    · exact .inr (Option.some_ne_none f)
  | setupHook f =>
    rw [Tables.place]
    split
    · exact h.append (.hoisted f.body) (fun _ => by simp) rfl rfl rfl
    · rwa [List.append_nil]
  | lifecycle | field | method | unsupported => exact h.append _ (fun _ => by simp) rfl rfl rfl
  | ref | input | watcher | nothing => exact ⟨h.events, h.accessors⟩

/-- An item at the end of the body adds its name. -/
theorem mem_memberNames_append (item : BodyItem) {n : String} {t' : Tables}
    (hbody : t'.body = t.body ++ [item]) (hevents : t'.events = t.events)
    (hrefs : t'.refs = t.refs) (haccessors : t'.accessors = t.accessors) :
    n ∈ t'.memberNames ↔ n ∈ t.memberNames ∨ itemName? t.events item = some n := by
  simp only [mem_memberNames, hbody, hevents, hrefs, haccessors, List.mem_append,
    List.mem_singleton, or_and_right, exists_or, exists_eq_left, or_assoc]

/-- A change to an accessor adds the name of the accessor. -/
theorem mem_memberNames_update {name n : String} {change : Accessor → Accessor}
    (hchange : ∀ a, (change a).name = a.name) :
    n ∈ memberNames { t with accessors := updateAccessor name change t.accessors } ↔
      n ∈ t.memberNames ∨ some name = some n := by
  simp only [mem_memberNames, mem_map_updateAccessor hchange, Option.some.injEq,
    eq_comm (a := n), or_assoc]
  exact or_congr_right (or_congr_right or_comm)

/-- The names that are left behind after one more role. -/
theorem mem_memberNames_place (h : t.Consistent) (r : Role) {n : String} :
    n ∈ (t.place r).memberNames ↔ n ∈ t.memberNames ∨ r.bindingName? = some n := by
  cases r with
  | ref f =>
    simp only [mem_memberNames, place, mem_map_upsert, Role.bindingName?, Option.some.injEq,
      eq_comm (a := n)]
    exact or_right_comm
  | getter | setter => exact mem_memberNames_update fun _ => rfl
  | event e =>
    have hold : (∃ item ∈ t.body, itemName? (t.events ++ [e]) item = some n) ↔
        ∃ item ∈ t.body, itemName? t.events item = some n := by
      refine exists_congr fun item => and_congr_right fun hitem => ?_
      rw [itemName?_append [e] fun index hindex => h.events index (hindex ▸ hitem)]
    have hnew : itemName? (t.events ++ [e]) (.emit t.events.length) = some e.method := by
      rw [itemName?, List.getElem?_concat_length, Option.map_some]
    simp only [mem_memberNames, place, List.mem_append, List.mem_singleton, or_and_right,
      exists_or, exists_eq_left, hold, hnew, Role.bindingName?, or_assoc]
  | setupHook f =>
    rw [place]
    split
    · exact mem_memberNames_append (.hoisted f.body) rfl rfl rfl rfl
    · simp [Role.bindingName?]
  | lifecycle | field | method | unsupported =>
    exact Iff.trans (mem_memberNames_append _ rfl rfl rfl rfl) Iff.rfl
  | input | watcher | nothing => exact (or_iff_left (by rintro ⟨⟩)).symm

end

/-! ## All roles -/

theorem Consistent.foldl_place {t : Tables} (h : t.Consistent) (roles : List Role) :
    (roles.foldl Tables.place t).Consistent := by
  induction roles generalizing t with
  | nil => exact h
  | cons r roles ih => exact ih (h.place r)

theorem mem_memberNames_foldl_place {t : Tables} (h : t.Consistent) (roles : List Role)
    {n : String} :
    n ∈ (roles.foldl place t).memberNames ↔
      n ∈ t.memberNames ∨ ∃ r ∈ roles, r.bindingName? = some n := by
  induction roles generalizing t with
  | nil => simp
  | cons r roles ih =>
    rw [List.foldl_cons, ih (h.place r), mem_memberNames_place h]
    simp only [List.mem_cons, or_and_right, exists_or, exists_eq_left, or_assoc]

theorem memberNames_code (t : Tables) : t.code.memberNames = t.memberNames := rfl

theorem consistent_code {t : Tables} : t.code.Consistent ↔ t.Consistent :=
  ⟨fun h => ⟨h.events, h.accessors⟩, fun h => ⟨h.events, h.accessors⟩⟩

/-! ## All items -/

section

variable {source : List Char} {denied : List String} {t t' : Tables}

variable {items : List ModuleItem}

theorem declared_foldlM_addMember {members : List Member}
    (h : members.foldlM (addMember source) t = .ok t') : t'.declared = t.declared := by
  induction members generalizing t with
  | nil =>
    cases h
    rfl
  | cons m members ih =>
    obtain ⟨t₁, hm, h⟩ := bind_eq_ok.1 h
    obtain ⟨⟨role, findings⟩, -, hm⟩ := bind_eq_ok.1 hm
    rw [ih h, ← Except.ok.inj hm]
    cases role <;> rfl

/-- What an item of a module leaves behind that is not a component. -/
theorem memberNames_item (hconsistent : t.Consistent) (item : BodyItem)
    (hitem : ∀ index, item ≠ .emit index) (hname : itemName? t.events item = none)
    (ht' : t'.code = { t with body := t.body ++ [item] }.code ∧ t'.declared = t.declared) :
    t'.Consistent ∧ (∀ m ∈ ([] : List Member), HasRole source m) ∧
    (∀ n, n ∈ t'.memberNames ↔ n ∈ t.memberNames ∨
      ∃ m ∈ ([] : List Member), (roleOf source m).bindingName? = some n) ∧
    (∀ n, n ∈ t'.declared ↔ n ∈ t.declared ∨
      ∃ m ∈ ([] : List Member), memberName? m = some n) := by
  obtain ⟨hcode, hdeclared⟩ := ht'
  refine ⟨?_, List.forall_mem_nil _, fun n => ?_, fun n => ?_⟩
  · rw [← consistent_code, hcode]
    exact hconsistent.append _ hitem rfl rfl rfl
  · have happend : n ∈ ({ t with body := t.body ++ [item] } : Tables).memberNames ↔
        n ∈ t.memberNames ∨ itemName? t.events item = some n :=
      mem_memberNames_append _ rfl rfl rfl rfl
    rw [← memberNames_code, hcode, memberNames_code, happend, hname]
    simp
  · rw [hdeclared]
    simp

/-- What the items of a module leave behind. -/
theorem memberNames_addItem {item : ModuleItem} (hconsistent : t.Consistent)
    (h : t.addItem source denied item = .ok t') :
    t'.Consistent ∧ (∀ m ∈ itemMembers item, HasRole source m) ∧
    (∀ n, n ∈ t'.memberNames ↔ n ∈ t.memberNames ∨
      ∃ m ∈ itemMembers item, (roleOf source m).bindingName? = some n) ∧
    (∀ n, n ∈ t'.declared ↔ n ∈ t.declared ∨ ∃ m ∈ itemMembers item, memberName? m = some n) := by
  cases item with
  | component c =>
    obtain ⟨hroles, hcode⟩ := code_addComponent h
    refine ⟨?_, hroles, fun n => ?_, fun n => ?_⟩
    · rw [← consistent_code, hcode, consistent_code]
      exact hconsistent.foldl_place _
    · rw [← memberNames_code, hcode, memberNames_code, mem_memberNames_foldl_place hconsistent]
      refine or_congr_right ⟨?_, ?_⟩
      · rintro ⟨r, hr, hname⟩
        obtain ⟨m, hm, rfl⟩ := List.mem_map.1 hr
        exact ⟨m, hm, hname⟩
      · rintro ⟨m, hm, hname⟩
        exact ⟨_, List.mem_map_of_mem hm, hname⟩
    · obtain ⟨t₁, hmembers, h⟩ := bind_eq_ok.1 h
      have hdeclared : t'.declared = t₁.declared := by rw [← Except.ok.inj h]
      rw [hdeclared, declared_foldlM_addMember hmembers, mem_foldl_insertNew, List.mem_filterMap]
      rfl
  | importDecl decl =>
    cases h
    rw [addImport]
    split
    · exact ⟨⟨hconsistent.events, hconsistent.accessors⟩, List.forall_mem_nil _,
        fun n => by simp [itemMembers, memberNames], fun n => by simp [itemMembers]⟩
    · exact ⟨⟨hconsistent.events, hconsistent.accessors⟩, List.forall_mem_nil _,
        fun n => by simp [itemMembers, memberNames], fun n => by simp [itemMembers]⟩
  | defaultDecl span =>
    cases h
    exact memberNames_item hconsistent .unsupported (fun _ => by simp) rfl ⟨rfl, rfl⟩
  | exportDecl span decl =>
    cases h
    exact memberNames_item hconsistent (.exportDecl span decl) (fun _ => by simp) rfl ⟨rfl, rfl⟩
  | moduleDecl span =>
    cases h
    exact memberNames_item hconsistent (.moduleDecl span) (fun _ => by simp) rfl ⟨rfl, rfl⟩
  | stmt s =>
    cases h
    exact memberNames_item hconsistent (.stmt s) (fun _ => by simp) rfl ⟨rfl, rfl⟩

theorem memberNames_foldlM_addItem (hconsistent : t.Consistent)
    (h : items.foldlM (addItem source denied) t = .ok t') :
    t'.Consistent ∧ (∀ m ∈ moduleMembers items, HasRole source m) ∧
    (∀ n, n ∈ t'.memberNames ↔ n ∈ t.memberNames ∨
      ∃ m ∈ moduleMembers items, (roleOf source m).bindingName? = some n) ∧
    (∀ n, n ∈ t'.declared ↔ n ∈ t.declared ∨
      ∃ m ∈ moduleMembers items, memberName? m = some n) := by
  induction items generalizing t with
  | nil =>
    cases h
    exact ⟨hconsistent, fun _ => nofun, fun n => by simp [moduleMembers],
      fun n => by simp [moduleMembers]⟩
  | cons item items ih =>
    obtain ⟨t₁, hitem, h⟩ := bind_eq_ok.1 h
    obtain ⟨hconsistent₁, hroles₁, hnames₁, hdeclared₁⟩ := memberNames_addItem hconsistent hitem
    obtain ⟨hconsistent', hroles, hnames, hdeclared⟩ := ih hconsistent₁ h
    refine ⟨hconsistent', fun m hm => ?_, fun n => ?_, fun n => ?_⟩
    · rcases List.mem_append.1 hm with hm | hm
      · exact hroles₁ m hm
      · exact hroles m hm
    · rw [hnames, hnames₁]
      simp only [moduleMembers, List.flatMap_cons, List.mem_append, or_and_right, exists_or,
        or_assoc]
    · rw [hdeclared, hdeclared₁]
      simp only [moduleMembers, List.flatMap_cons, List.mem_append, or_and_right, exists_or,
        or_assoc]

theorem consistent_ofModule (h : ofModule source denied items = .ok t) : t.Consistent :=
  (memberNames_foldlM_addItem consistent_empty h).1

/-- The names that are left behind are those of the members that keep theirs. -/
theorem mem_memberNames_ofModule (h : ofModule source denied items = .ok t) {n : String} :
    n ∈ t.memberNames ↔
      ∃ m ∈ moduleMembers items, memberName? m = some n ∧ (roleOf source m).isNameless = false := by
  obtain ⟨-, hroles, hnames, -⟩ := memberNames_foldlM_addItem consistent_empty h
  have hempty : n ∉ ({} : Tables).memberNames := nofun
  rw [hnames, or_iff_right hempty]
  refine exists_congr fun m => and_congr_right fun hm => ?_
  rw [bindingName?_roleOf (hroles m hm)]
  cases (roleOf source m).isNameless <;> simp

/-- All members with a name are declared. -/
theorem mem_declared_ofModule (h : ofModule source denied items = .ok t) {n : String} :
    n ∈ t.declared ↔ ∃ m ∈ moduleMembers items, memberName? m = some n := by
  obtain ⟨-, -, -, hdeclared⟩ := memberNames_foldlM_addItem consistent_empty h
  rw [hdeclared]
  simp

end

end Tables

end ScriptSetup.Component
