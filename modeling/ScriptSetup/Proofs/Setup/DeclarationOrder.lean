import ScriptSetup.Proofs.Setup.Accesses

/-!
# Declarations before their uses

A watcher that watches a binding reads it when it is registered, and an initial value is computed
when its declaration runs, so what they read has to be declared above them. The segments of the
output stand in a fixed order: watchers, state, accessors and then what stays in place. So a
watched binding is never declared above its watcher, state is declared above its use only when it
is read by state that comes after it or by a field, and an input is not declared at all.
-/

set_option autoImplicit false

namespace ScriptSetup.Setup

open Script Component Written Text

/-! ## Reads at once -/

/-- The names of the accesses through `this` that are made when the expression is evaluated, which
are those outside of functions. -/
def exprReads (e : Expr) : List String :=
  ((accessesOf (exprUses [] e)).filter (!·.isDeferred)).map (·.name)

theorem exprReads_sublist (e : Expr) : (exprReads e).Sublist (selfNamesOf (exprUses [] e)) := by
  rw [← accessesOf_names]
  exact List.filter_sublist.map _

/-! ## Entries of the output -/

/-- A piece of the output, the member that it declares as a variable and the members whose
variables it reads at once. -/
structure OutputEntry where
  text : String
  declares : Option String := none
  reads : List String := []

/-- What each entry reads is known before or declared by an entry above it. -/
def ReadsKnown (known : List String) : List OutputEntry → Prop
  | [] => True
  | e :: es => (∀ n ∈ e.reads, n ∈ known) ∧ ReadsKnown (known ++ e.declares.toList) es

instance decidableReadsKnown : (known : List String) → (es : List OutputEntry) →
    Decidable (ReadsKnown known es)
  | _, [] => .isTrue trivial
  | known, e :: es =>
    have := decidableReadsKnown (known ++ e.declares.toList) es
    inferInstanceAs (Decidable (_ ∧ _))

/-- What each entry reads is declared by an entry above it. -/
def DeclaredBeforeRead (entries : List OutputEntry) : Prop :=
  ∀ before e after, entries = before ++ e :: after →
    ∀ n ∈ e.reads, ∃ d ∈ before, d.declares = some n

theorem readsKnown_iff {known : List String} {es : List OutputEntry} :
    ReadsKnown known es ↔ ∀ before e after, es = before ++ e :: after →
      ∀ n ∈ e.reads, n ∈ known ∨ ∃ d ∈ before, d.declares = some n := by
  induction es generalizing known with
  | nil =>
    refine iff_of_true trivial fun before e after h => ?_
    cases before <;> cases h
  | cons e es ih =>
    rw [ReadsKnown, ih]
    constructor
    · rintro ⟨hhead, htail⟩ before e' after hsplit n hn
      cases before with
      | nil =>
        cases hsplit
        exact .inl (hhead n hn)
      | cons d before =>
        cases hsplit
        rcases htail before e' after rfl n hn with hknown | ⟨d', hd', hdeclares⟩
        · rcases List.mem_append.1 hknown with hknown | hhere
          · exact .inl hknown
          · exact .inr ⟨e, List.mem_cons_self, Option.mem_toList.1 hhere⟩
        · exact .inr ⟨d', List.mem_cons_of_mem e hd', hdeclares⟩
    · intro h
      constructor
      · intro n hn
        rcases h [] e es rfl n hn with hknown | ⟨d, hd, -⟩
        · exact hknown
        · cases hd
      · intro before e' after hsplit n hn
        rcases h (e :: before) e' after (by rw [hsplit]; rfl) n hn with hknown | ⟨d, hd, hdeclares⟩
        · exact .inl (List.mem_append_left _ hknown)
        · rcases List.mem_cons.1 hd with rfl | hd
          · exact .inl (List.mem_append_right _ (Option.mem_toList.2 hdeclares))
          · exact .inr ⟨d, hd, hdeclares⟩

theorem declaredBeforeRead_iff {entries : List OutputEntry} :
    DeclaredBeforeRead entries ↔ ReadsKnown [] entries := by
  rw [readsKnown_iff]
  simp only [DeclaredBeforeRead, List.not_mem_nil, false_or]

instance (entries : List OutputEntry) : Decidable (DeclaredBeforeRead entries) :=
  decidable_of_iff _ declaredBeforeRead_iff.symm

theorem readsKnown_append {known : List String} {es fs : List OutputEntry} :
    ReadsKnown known (es ++ fs) ↔
      ReadsKnown known es ∧ ReadsKnown (known ++ es.filterMap (·.declares)) fs := by
  induction es generalizing known with
  | nil => simp [ReadsKnown]
  | cons e es ih =>
    rw [List.cons_append, ReadsKnown, ReadsKnown, ih, and_assoc, List.append_assoc,
      List.filterMap_cons]
    cases e.declares <;> rfl

/-- An entry that neither declares nor reads anything. -/
def OutputEntry.silent (text : String) : OutputEntry := { text }

theorem readsKnown_silent (known : List String) (texts : List String) :
    ReadsKnown known (texts.map OutputEntry.silent) ∧
      (texts.map OutputEntry.silent).filterMap (·.declares) = [] := by
  induction texts generalizing known with
  | nil => exact ⟨trivial, rfl⟩
  | cons text texts ih =>
    refine ⟨⟨fun _ => nofun, ?_⟩, (ih known).2⟩
    exact (ih _).1

/-! ## Members and those before them -/

/-- Each member with those that stand before it. -/
def withEarlier (before : List Member) : List Member → List (List Member × Member)
  | [] => []
  | m :: ms => (before, m) :: withEarlier (before ++ [m]) ms

/-- The name of a field. -/
def fieldName? : Member → Option String
  | .field _ _ _ key _ _ => key.staticName?
  | _ => none

/-- The fields among the members before it that an initial value reads at once. -/
def initReads (earlier : List Member) (value : Option Expr) : List String :=
  ((value.map exprReads).getD []).filter fun n => (earlier.filterMap fieldName?).contains n

/-- Adds the state that a member gives, with the members before it. -/
def addEarlierRef (source : List Char) (refs : List (List Member × RefField))
    (m : List Member × Member) : List (List Member × RefField) :=
  match roleOf source m.2 with
  | .ref f => upsert (·.2.name) (m.1, f) refs
  | _ => refs

/-- State, with the members before the one that gives its initial value. -/
def refsWithEarlier (source : List Char) (members : List Member) :
    List (List Member × RefField) :=
  (withEarlier [] members).foldl (addEarlierRef source) []

/-- A field without a meaning of its own, with the members before it. -/
structure PlainField where
  earlier : List Member
  name : String
  value : Option Expr

/-- The name and the initial value of a member that is a field without a meaning of its own. -/
def plainRole? : Role → Option (String × Option Expr)
  | .field name _ _ value => some (name, value)
  | _ => none

/-- The same of an item of the body. -/
def plainItem? : BodyItem → Option (String × Option Expr)
  | .field name _ _ value => some (name, value)
  | _ => none

/-- The fields without a meaning of their own, with the members before them. -/
def plainFields (source : List Char) (before members : List Member) : List PlainField :=
  (withEarlier before members).filterMap fun m =>
    (plainRole? (roleOf source m.2)).map fun f => ⟨m.1, f.1, f.2⟩

theorem map_snd_withEarlier (before members : List Member) :
    (withEarlier before members).map (·.2) = members := by
  induction members generalizing before with
  | nil => rfl
  | cons m ms ih => rw [withEarlier, List.map_cons, ih]

theorem mem_of_mem_earlier {before members : List Member} {m : List Member × Member}
    (hm : m ∈ withEarlier before members) {m' : Member} (hm' : m' ∈ m.1) :
    m' ∈ before ∨ m' ∈ members := by
  induction members generalizing before with
  | nil => cases hm
  | cons m₁ ms ih =>
    rcases List.mem_cons.1 hm with rfl | hm
    · exact .inl hm'
    · rcases ih hm with h | h
      · rcases List.mem_append.1 h with h | h
        · exact .inl h
        · exact .inr (List.mem_cons.2 (.inl (List.mem_singleton.1 h)))
      · exact .inr (List.mem_cons_of_mem m₁ h)

section

variable {source : List Char} {denied : List String} {items : List ModuleItem} {t : Tables}

theorem refs_view : RoleView (·.refs) placeRef where
  code _ := rfl
  imports _ _ := rfl
  item _ _ _ := rfl
  place _ r := (Tables.place_eq _ r).2.1

theorem map_addEarlierRef (refs : List (List Member × RefField)) (m : List Member × Member) :
    (addEarlierRef source refs m).map (·.2) = placeRef (refs.map (·.2)) (roleOf source m.2) := by
  rw [addEarlierRef]
  cases roleOf source m.2 with
  | ref f =>
    have hname : ∀ r : List Member × RefField, RefField.name (Prod.snd r) = r.2.name :=
      fun _ => rfl
    exact (upsert_map hname (m.1, f) refs).symm
  | _ => rfl

theorem map_foldl_addEarlierRef (ms : List (List Member × Member))
    (refs : List (List Member × RefField)) :
    (ms.foldl (addEarlierRef source) refs).map (·.2) =
      (ms.map fun m => roleOf source m.2).foldl placeRef (refs.map (·.2)) := by
  induction ms generalizing refs with
  | nil => rfl
  | cons m ms ih =>
    rw [List.foldl_cons, ih, map_addEarlierRef, List.map_cons, List.foldl_cons]

theorem roles_withEarlier (before members : List Member) :
    (withEarlier before members).map (fun m => roleOf source m.2) =
      members.map (roleOf source) := by
  conv_rhs => rw [← map_snd_withEarlier before members]
  rw [List.map_map]
  rfl

/-- The state of the tables is the state that members give. -/
theorem refsWithEarlier_refs (h : Tables.ofModule source denied items = .ok t) :
    (refsWithEarlier source (moduleMembers items)).map (·.2) = t.refs := by
  rw [refsWithEarlier, map_foldl_addEarlierRef, roles_withEarlier, refs_view.ofModule h]
  rfl

/-- The fields that stay in place are those that members give. -/
theorem plainFields_items (h : Tables.ofModule source denied items = .ok t) :
    t.body.filterMap plainItem? =
      (plainFields source [] (moduleMembers items)).map fun f => (f.name, f.value) := by
  have hview := Tables.items_view (g := plainItem?) (fun item hitem => by cases item <;> trivial)
    fun _ => rfl
  have hroles : (moduleRoles source items).filterMap (fun r => r.item?.bind plainItem?) =
      (moduleRoles source items).filterMap plainRole? := by
    refine List.filterMap_congr fun r _ => ?_
    cases r with
    | setupHook f =>
      rw [Role.item?]
      split
      · rfl
      · rfl
    | _ => rfl
  rw [hview.ofModule h, foldl_toList, hroles, moduleRoles, ← roles_withEarlier [], plainFields,
    List.map_filterMap, List.filterMap_map]
  refine List.filterMap_congr fun m _ => ?_
  rw [Function.comp_apply, Option.map_map]
  exact Option.map_id'.symm

end

/-! ## Entries of the document -/

/-- What a watcher reads at once: the state or the accessor that its path names. -/
def watchReads (t : Tables) (w : Watcher) : List String :=
  match w.target with
  | .string lit =>
    if splitOnce? '.' lit.value = none ∧
        lit.value ∈ t.refs.map (·.name) ++ t.accessors.map (·.name) then [lit.value] else []
  | _ => []

/-- The entry of state. -/
def stateEntry (s : Scope) (r : List Member × RefField) : OutputEntry where
  text := (refBinding s r.2).value
  declares := some r.2.name
  reads := initReads r.1 r.2.init

/-- The entries of the body. The fields in it are those of `fields`. -/
def bodyEntries (s : Scope) (events : List Event) :
    List PlainField → List BodyItem → List OutputEntry
  | _, [] => []
  | fields, item :: items =>
    match plainItem? item, fields with
    | some (name, value), f :: fields =>
      ⟨(bodyText s events item).value, some name, initReads f.earlier value⟩
        :: bodyEntries s events fields items
    | _, _ => .silent (bodyText s events item).value :: bodyEntries s events fields items

/-- The entries of each segment. -/
def segmentEntries (source : List Char) (framework : String) (members : List Member)
    (t : Tables) : Segment → List OutputEntry :=
  let s := Scope.ofTables source t
  let w := writeParts s t
  fun
  | .observers => t.watchers.map fun watcher =>
    { text := (watchRegistration s watcher).value, reads := watchReads t watcher }
  | .reactiveFields => (refsWithEarlier source members).map (stateEntry s)
    ++ ((firstUses w.templateRefs).map templateRefBinding).map OutputEntry.silent
  | .computedAccessors => t.accessors.filterMap fun a =>
    (computedBinding s a).value.map fun text => { text, declares := some a.name }
  | .body => bodyEntries s t.events (plainFields source [] members) t.body
  | seg => (segmentPieces framework t w seg).map OutputEntry.silent

/-- The entries of the output, in order. -/
def outputEntries (source : List Char) (framework : String) (members : List Member)
    (t : Tables) : List OutputEntry :=
  Segment.all.flatMap (segmentEntries source framework members t)

theorem text_silent (texts : List String) :
    (texts.map OutputEntry.silent).map (·.text) = texts := by
  rw [List.map_map]
  exact List.map_id' texts

theorem text_bodyEntries (s : Scope) (events : List Event) (fields : List PlainField)
    (body : List BodyItem) : (bodyEntries s events fields body).map (·.text) =
      body.map fun item => (bodyText s events item).value := by
  induction body generalizing fields with
  | nil => cases fields <;> rfl
  | cons item body ih =>
    cases hitem : plainItem? item with
    | none => simp [bodyEntries, hitem, ih, OutputEntry.silent]
    | some f => cases fields <;> simp [bodyEntries, hitem, ih, OutputEntry.silent]

section

variable {source : List Char} {denied : List String} {items : List ModuleItem} {t : Tables}

/-- The entries are the pieces of the document. -/
theorem text_outputEntries (h : Tables.ofModule source denied items = .ok t) (framework : String) :
    (outputEntries source framework (moduleMembers items) t).map (·.text) =
      Segment.all.flatMap
        (document framework t (writeParts (Scope.ofTables source t) t)).segment := by
  rw [outputEntries, List.map_flatMap]
  refine List.flatMap_congr fun seg _ => ?_
  rw [segment_document]
  cases seg with
  | observers =>
    rw [segmentEntries, segmentPieces, writeParts_watchers, List.map_map]
    rfl
  | reactiveFields =>
    rw [segmentEntries, segmentPieces, writeParts_refs, List.map_append, text_silent,
      ← refsWithEarlier_refs h, List.map_map, List.map_map]
    rfl
  | computedAccessors =>
    rw [segmentEntries, segmentPieces, writeParts_accessors, List.map_filterMap]
    refine List.filterMap_congr fun a _ => ?_
    rw [Option.map_map]
    exact Option.map_id'
  | body =>
    rw [segmentEntries, segmentPieces, writeParts_body]
    exact text_bodyEntries _ _ _ _
  | imports | separator | inputs | events => exact text_silent _

/-! ## The order of the segments -/

/-- The entry of a field that stays in place, but for its text. -/
def PlainField.entry (f : PlainField) : OutputEntry where
  text := ""
  declares := some f.name
  reads := initReads f.earlier f.value

/-- In the body, only fields read at once and declare variables. -/
theorem readsKnown_bodyEntries (s : Scope) (events : List Event) {fields : List PlainField}
    {body : List BodyItem}
    (h : body.filterMap plainItem? = fields.map fun f => (f.name, f.value))
    (known : List String) :
    ReadsKnown known (bodyEntries s events fields body) ↔
      ReadsKnown known (fields.map PlainField.entry) := by
  induction body generalizing fields known with
  | nil =>
    cases fields with
    | nil => exact Iff.rfl
    | cons f fields => cases h
  | cons item body ih =>
    cases hitem : plainItem? item with
    | none =>
      rw [List.filterMap_cons_none hitem] at h
      have hstep : bodyEntries s events fields (item :: body) =
          .silent (bodyText s events item).value :: bodyEntries s events fields body := by
        simp [bodyEntries, hitem]
      rw [hstep, ReadsKnown, ← ih h]
      simp [OutputEntry.silent]
    | some found =>
      rw [List.filterMap_cons_some hitem] at h
      cases fields with
      | nil => cases h
      | cons f fields =>
        obtain ⟨rfl, hrest⟩ := List.cons.inj h
        simp only [bodyEntries, hitem, List.map_cons, ReadsKnown, ih hrest]
        exact Iff.rfl

/-- The name of a field that stays in place. -/
def plainName? (source : List Char) (m : Member) : Option String :=
  (plainRole? (roleOf source m)).map (·.1)

/-- A field reads what is known when it reads what is known beforehand or a field before it. -/
theorem readsKnown_plainFields (known : List String) (before members : List Member) :
    ReadsKnown (known ++ before.filterMap (plainName? source))
        ((plainFields source before members).map PlainField.entry) ↔
      ∀ f ∈ plainFields source before members, ∀ n ∈ initReads f.earlier f.value,
        n ∈ known ∨ n ∈ f.earlier.filterMap (plainName? source) := by
  induction members generalizing before with
  | nil => exact iff_of_true trivial fun _ => nofun
  | cons m ms ih =>
    have hnext := ih (before ++ [m])
    rw [List.filterMap_append, ← List.append_assoc] at hnext
    cases hrole : plainRole? (roleOf source m) with
    | none =>
      have hname : plainName? source m = none := by rw [plainName?, hrole]; rfl
      have hfields : plainFields source before (m :: ms) =
          plainFields source (before ++ [m]) ms := by
        simp [plainFields, withEarlier, hrole]
      rw [hfields, ← hnext]
      simp [hname]
    | some found =>
      have hname : plainName? source m = some found.1 := by rw [plainName?, hrole]; rfl
      have hfields : plainFields source before (m :: ms) =
          ⟨before, found.1, found.2⟩ :: plainFields source (before ++ [m]) ms := by
        simp [plainFields, withEarlier, hrole]
      rw [hfields, List.forall_mem_cons, ← hnext, List.map_cons, ReadsKnown]
      simp [hname, PlainField.entry]

theorem fieldName?_of_plainName? {m : Member} {n : String} (hrole : HasRole source m)
    (h : plainName? source m = some n) :
    fieldName? m = some n ∧ (roleOf source m).isInput = false := by
  have hbecomes := becomes_roleOf hrole
  rw [plainName?] at h
  generalize roleOf source m = r at hbecomes h ⊢
  cases hbecomes with
  | field hkey =>
    cases h
    exact ⟨hkey, rfl⟩
  | _ => cases h

/-- A field that is no input is state or stays in place. -/
theorem of_fieldName? {m : Member} {n : String} (hrole : HasRole source m)
    (h : fieldName? m = some n) :
    (roleOf source m).isInput = true ∨ (roleOf source m).refName? = some n ∨
      plainName? source m = some n := by
  have hbecomes := becomes_roleOf hrole
  rw [plainName?]
  generalize roleOf source m = r at hbecomes ⊢
  cases hbecomes with
  | unnamedField hkey => cases hkey.symm.trans h
  | input => exact .inl rfl
  | ref hkey =>
    cases hkey.symm.trans h
    exact .inr (.inl rfl)
  | field hkey =>
    cases hkey.symm.trans h
    exact .inr (.inr rfl)
  | _ => cases h

end

/-- What is read at once is declared above: no watcher names a binding, state reads only state that
comes before it, and a field reads an earlier input only where state or an accessor has its
name. -/
structure ReadsInOrder (source : List Char) (members : List Member) (t : Tables) : Prop where
  watchers : ∀ w ∈ t.watchers, watchReads t w = []
  state : DeclaredBeforeRead
    ((refsWithEarlier source members).map (stateEntry (Scope.ofTables source t)))
  fields : ∀ f ∈ plainFields source [] members, ∀ n ∈ initReads f.earlier f.value,
    (∀ m ∈ f.earlier, fieldName? m = some n → (roleOf source m).isInput = true) →
    n ∈ t.refs.map (·.name) ++ t.accessors.map (·.name)

instance (source : List Char) (members : List Member) (t : Tables) :
    Decidable (ReadsInOrder source members t) :=
  decidable_of_iff ((∀ w ∈ t.watchers, watchReads t w = []) ∧
      DeclaredBeforeRead
        ((refsWithEarlier source members).map (stateEntry (Scope.ofTables source t))) ∧
      ∀ f ∈ plainFields source [] members, ∀ n ∈ initReads f.earlier f.value,
        (∀ m ∈ f.earlier, fieldName? m = some n → (roleOf source m).isInput = true) →
        n ∈ t.refs.map (·.name) ++ t.accessors.map (·.name))
    ⟨fun ⟨watchers, state, fields⟩ => ⟨watchers, state, fields⟩,
      fun ⟨watchers, state, fields⟩ => ⟨watchers, state, fields⟩⟩

section

variable {source : List Char} {denied : List String} {items : List ModuleItem} {t : Tables}

theorem readsKnown_silent_append (known texts : List String) (es : List OutputEntry) :
    ReadsKnown known (texts.map OutputEntry.silent ++ es) ↔ ReadsKnown known es := by
  obtain ⟨hreads, hdeclares⟩ := readsKnown_silent known texts
  rw [readsKnown_append, hdeclares, List.append_nil]
  exact and_iff_right hreads

theorem readsKnown_watchers (s : Scope) (t : Tables) (watchers : List Watcher)
    (es : List OutputEntry) :
    ReadsKnown [] ((watchers.map fun w => ({
      text := (watchRegistration s w).value, reads := watchReads t w } : OutputEntry)) ++ es) ↔
      (∀ w ∈ watchers, watchReads t w = []) ∧ ReadsKnown [] es := by
  induction watchers with
  | nil => simp
  | cons w watchers ih =>
    rw [List.map_cons, List.cons_append, ReadsKnown, List.forall_mem_cons, and_assoc, ← ih]
    refine and_congr ?_ Iff.rfl
    simp [List.eq_nil_iff_forall_not_mem]

theorem readsKnown_accessors (s : Scope) {accessors : List Accessor}
    (h : ∀ a ∈ accessors, a.getter ≠ none ∨ a.setter ≠ none) (known : List String)
    (es : List OutputEntry) :
    ReadsKnown known ((accessors.filterMap fun a => (computedBinding s a).value.map fun text =>
      ({ text, declares := some a.name } : OutputEntry)) ++ es) ↔
      ReadsKnown (known ++ accessors.map (·.name)) es := by
  induction accessors generalizing known with
  | nil => simp
  | cons a accessors ih =>
    obtain ⟨text, htext, -⟩ := declares_computedBinding s (h a List.mem_cons_self)
    have hrest := ih (fun a' ha' => h a' (List.mem_cons_of_mem a ha')) (known ++ [a.name])
    rw [List.filterMap_cons_some (by rw [htext]; rfl), List.cons_append, ReadsKnown]
    rw [List.append_assoc] at hrest
    exact (and_iff_right fun _ => nofun).trans hrest

/-- What the fields in place read is known exactly when no field reads an input. -/
theorem readsKnown_fields_iff (h : Tables.ofModule source denied items = .ok t) :
    ReadsKnown (t.refs.map (·.name) ++ t.accessors.map (·.name))
        ((plainFields source [] (moduleMembers items)).map PlainField.entry) ↔
      ∀ f ∈ plainFields source [] (moduleMembers items), ∀ n ∈ initReads f.earlier f.value,
        (∀ m ∈ f.earlier, fieldName? m = some n → (roleOf source m).isInput = true) →
        n ∈ t.refs.map (·.name) ++ t.accessors.map (·.name) := by
  have hfields := @readsKnown_plainFields source
    (t.refs.map (·.name) ++ t.accessors.map (·.name)) [] (moduleMembers items)
  rw [List.filterMap_nil, List.append_nil] at hfields
  rw [hfields]
  refine forall₂_congr fun f hf => forall₂_congr fun n _ => ?_
  have hmembers : ∀ m ∈ f.earlier, m ∈ moduleMembers items := by
    intro m hm
    obtain ⟨m', hm', hfield⟩ := List.mem_filterMap.1 hf
    obtain ⟨found, -, rfl⟩ := Option.map_eq_some_iff.1 hfield
    rcases mem_of_mem_earlier hm' hm with hnone | hmem
    · cases hnone
    · exact hmem
  constructor
  · rintro (hknown | hplain) hinputs
    · exact hknown
    · obtain ⟨m, hm, hname⟩ := List.mem_filterMap.1 hplain
      obtain ⟨hfield, hinput⟩ :=
        fieldName?_of_plainName? (Tables.hasRole_ofModule h m (hmembers m hm)) hname
      rw [hinputs m hm hfield] at hinput
      cases hinput
  · intro hinputs
    by_cases hall : ∀ m ∈ f.earlier, fieldName? m = some n → (roleOf source m).isInput = true
    · exact .inl (hinputs hall)
    · push Not at hall
      obtain ⟨m, hm, hfield, hinput⟩ := hall
      have hmem := hmembers m hm
      rcases of_fieldName? (Tables.hasRole_ofModule h m hmem) hfield with hrole | href | hplain
      · exact (hinput hrole).elim
      · exact .inl (List.mem_append_left _ ((Tables.mem_refNames h).2 ⟨m, hmem, href⟩))
      · exact .inr (List.mem_filterMap.2 ⟨m, hm, hplain⟩)

theorem declaredBeforeRead_outputEntries_iff (h : Tables.ofModule source denied items = .ok t)
    (framework : String) :
    DeclaredBeforeRead (outputEntries source framework (moduleMembers items) t) ↔
      ReadsInOrder source (moduleMembers items) t := by
  have hconsistent := Tables.consistent_ofModule h
  have hnames : ((refsWithEarlier source (moduleMembers items)).map
      (stateEntry (Scope.ofTables source t))).filterMap (·.declares) = t.refs.map (·.name) := by
    rw [← refsWithEarlier_refs h, List.filterMap_map, List.map_map]
    exact congrFun (List.filterMap_eq_map (f := fun r : List Member × RefField => r.2.name)) _
  rw [declaredBeforeRead_iff, outputEntries, Segment.all]
  simp only [List.flatMap_cons, List.flatMap_nil, List.append_nil, segmentEntries,
    readsKnown_silent_append, readsKnown_watchers, List.append_assoc]
  rw [readsKnown_append, hnames, readsKnown_silent_append,
    readsKnown_accessors _ hconsistent.accessors, List.nil_append,
    readsKnown_bodyEntries _ _ (plainFields_items h), readsKnown_fields_iff h,
    ← declaredBeforeRead_iff]
  constructor
  · rintro ⟨hwatchers, hstate, hfields⟩
    exact ⟨hwatchers, hstate, hfields⟩
  · rintro ⟨hwatchers, hstate, hfields⟩
    exact ⟨hwatchers, hstate, hfields⟩

theorem declares_bodyEntries (s : Scope) (events : List Event) (fields : List PlainField)
    (body : List BodyItem) {e : OutputEntry} (he : e ∈ bodyEntries s events fields body)
    {n : String} (hn : e.declares = some n) : Declares n e.text := by
  induction body generalizing fields with
  | nil => cases fields <;> cases he
  | cons item body ih =>
    have hsilent (he : e ∈ .silent (bodyText s events item).value
        :: bodyEntries s events fields body) : Declares n e.text := by
      rcases List.mem_cons.1 he with rfl | he
      · cases hn
      · exact ih fields he
    cases hitem : plainItem? item with
    | none =>
      simp only [bodyEntries, hitem] at he
      exact hsilent he
    | some found =>
      cases fields with
      | nil =>
        simp only [bodyEntries, hitem] at he
        exact hsilent he
      | cons f fields =>
        simp only [bodyEntries, hitem] at he
        rcases List.mem_cons.1 he with rfl | he
        · cases hn
          cases item with
          | field name isReadonly type value =>
            cases hitem
            exact declares_fieldText s name isReadonly type value
          | _ => cases hitem
        · exact ih fields he

/-- An entry that declares a member does so in its text. -/
theorem declares_outputEntries (framework : String) (members : List Member) {e : OutputEntry}
    (he : e ∈ outputEntries source framework members t) {n : String}
    (hn : e.declares = some n) : Declares n e.text := by
  have hsilent {texts : List String} (he : e ∈ texts.map OutputEntry.silent) :
      Declares n e.text := by
    obtain ⟨text, -, rfl⟩ := List.mem_map.1 he
    cases hn
  obtain ⟨seg, -, he⟩ := List.mem_flatMap.1 he
  cases seg with
  | observers =>
    obtain ⟨w, -, rfl⟩ := List.mem_map.1 he
    cases hn
  | reactiveFields =>
    rcases List.mem_append.1 he with he | he
    · obtain ⟨r, -, rfl⟩ := List.mem_map.1 he
      cases hn
      exact declares_refBinding _ r.2
    · exact hsilent he
  | computedAccessors =>
    obtain ⟨a, -, ha⟩ := List.mem_filterMap.1 he
    obtain ⟨text, htext, rfl⟩ := Option.map_eq_some_iff.1 ha
    cases hn
    have hsome : a.getter ≠ none ∨ a.setter ≠ none := by
      by_contra hnone
      push Not at hnone
      rw [computedBinding, hnone.1, hnone.2] at htext
      cases htext
    obtain ⟨text', htext', hdeclares⟩ :=
      declares_computedBinding (Scope.ofTables source t) hsome
    cases htext.symm.trans htext'
    exact hdeclares
  | body => exact declares_bodyEntries _ _ _ _ he hn
  | imports | separator | inputs | events => exact hsilent he

end

/-! ## When reads at once come after declarations -/

/-- A component in which state, fields and a watcher read what is declared above them. -/
def orderedReadsSource : String :=
  "@Component export default class A \x7b @Ref a = 1; @Ref b = this.a; c = [this.b]; " ++
    "d = () => this.e; e = this.c; get f() \x7b return this.a \x7d " ++
    "@Watch('b.c') g() \x7b\x7d @Watch('h') i() \x7b\x7d \x7d"

/-- A component that watches its state. -/
def watchedStateSource : String :=
  "@Component export default class A \x7b @Ref count = 0; @Watch('count') changed() \x7b\x7d \x7d"

end ScriptSetup.Setup
