import ScriptSetup.Proofs.Component.Slots
import ScriptSetup.Proofs.Setup.Collisions
import ScriptSetup.Proofs.Setup.Placeholders

/-!
# No member is lost without a word

Each entry of the tables has a text of its own in the output, and the text shows what the entry
says: the initial value of state, the function of a getter or a setter, the handler of a watcher,
the statements of a hook. So a member is in the output when it has an entry, and every member of a
converted component has one, or a finding, exactly when no member takes the slot of another and no
method without a body would run during set-up.
-/

set_option autoImplicit false

namespace ScriptSetup.Setup

open Script Component Written Text

/-! ## What the texts show -/

/-- The text of an expression, when there is one. -/
def optionParts (s : Scope) : Option Expr → List String
  | some e => [(exprText s 0 e).value]
  | none => []

/-- The binding of state, and its initial value. -/
def refParts (s : Scope) (f : RefField) : List String :=
  ("const " ++ f.name ++ " = ref") :: optionParts s f.init

/-- The name and the type of an input. -/
def inputParts (s : Scope) (i : Input) : List String :=
  [i.name, inputTypeText s i.type]

/-- The default value of an input. -/
def fallbackParts (s : Scope) (i : Input) : List String :=
  match i.fallback with
  | none => []
  | some (.value e) => [i.name, (exprText s 1 e).value]
  | some (.factory f) => [i.name, (arrowFunction s 1 f).value]

/-- The name of an accessor, and the functions that read and write it. -/
def accessorParts (s : Scope) (a : Accessor) : List String :=
  a.name ::
    match a.getter, a.setter with
    | none, none => []
    | some getter, none => [(arrowFunction s 0 getter).value]
    | none, some setter => ["set: ", (arrowFunction s 1 setter).value]
    | some getter, some setter =>
      ["get: ", (arrowFunction s 1 getter).value, "set: ", (arrowFunction s 1 setter).value]

/-- What is watched, and the handler. -/
def watcherParts (s : Scope) (w : Watcher) : List String :=
  [(watchSource s w.target).value, (arrowFunction s 0 w.handler).value]

/-- The function that raises an event. -/
def emitParts (e : Event) : List String :=
  ["function ", e.method, " \x7b\n  emit(", quote e.event]

/-- What a field, a method or a hook says. -/
def itemParts (s : Scope) (events : List Event) : BodyItem → List String
  | .field name _ _ value => name :: optionParts s value
  | .method name f => [(functionDecl s 0 name f).value]
  | .lifecycle hook f => [hook ++ "(", (arrowFunction s 0 f).value]
  | .hoisted body => (body.map fun stmt => (stmtText s 0 stmt).value).filter (· != ";")
  | .emit index =>
    match events[index]? with
    | some e => emitParts e
    | none => []
  | .stmt _ | .exportDecl _ _ | .moduleDecl _ | .unsupported => []

/-- Each entry of the tables has a text of its own in the document. -/
structure ShowsEntries (s : Scope) (t : Tables) (output : Document) : Prop where
  /-- state is bound before the template references -/
  refs : ∃ texts others, output.segment .reactiveFields = texts ++ others ∧
    List.Forall₂ (fun f text => Shows (refParts s f) text) t.refs texts
  /-- inputs have their entries and their default values one after another -/
  inputs : t.inputs ≠ [] → ∃ interface declaration,
    output.segment .inputs = [interface, declaration] ∧
      Shows (t.inputs.flatMap (inputParts s)) interface ∧
      Shows (t.inputs.flatMap (fallbackParts s)) declaration
  accessors : List.Forall₂ (fun a text => Shows (accessorParts s a) text) t.accessors
    (output.segment .computedAccessors)
  watchers : List.Forall₂ (fun w text => Shows (watcherParts s w) text) t.watchers
    (output.segment .observers)
  items : List.Forall₂ (fun item text => Shows (itemParts s t.events item) text) t.body
    (output.segment .body)
  /-- each event has its function among the items -/
  emits : t.body.filterMap emitIndex? = List.range t.events.length

/-! ## Entry by entry -/

namespace Shows

theorem join_filterMap {α : Type} {shown : α → List String} {text? : α → Option String}
    (sep : String) {as : List α}
    (hsome : ∀ a ∈ as, ∀ text, text? a = some text → Shows (shown a) text)
    (hnone : ∀ a ∈ as, text? a = none → shown a = []) :
    Shows (as.flatMap shown) (Text.join sep (as.filterMap text?)) := by
  induction as with
  | nil => exact .nil _
  | cons a as ih =>
    obtain ⟨ha, has⟩ := List.forall_mem_cons.1 hsome
    obtain ⟨ha', has'⟩ := List.forall_mem_cons.1 hnone
    have hrest := ih has has'
    rw [List.flatMap_cons]
    cases htext : text? a with
    | none =>
      rw [List.filterMap_cons_none htext, ha' htext]
      exact hrest
    | some text =>
      rw [List.filterMap_cons_some htext]
      exact (ha text htext).join_cons hrest

end Shows

section

variable (s : Scope)

theorem shows_refBinding (f : RefField) : Shows (refParts s f) (refBinding s f).value := by
  have hname := Shows.single ("const " ++ f.name ++ " = ref")
  rw [refBinding, refParts]
  cases f.init with
  | none => exact (((hname.extend _).extend _).extend _).extend _
  | some e => exact (((hname.extend _).extend _).append (.single (exprText s 0 e).value)).extend _

theorem shows_inputEntry (i : Input) : Shows (inputParts s i) (inputEntry s i) := by
  have hname := (Shows.single i.name).prepend (pad 1)
  exact (((hname.extend _).extend _).append (.single (inputTypeText s i.type))).extend _

/-- The interface of the inputs shows all of them. -/
theorem shows_interface (inputs : List Input) :
    Shows (inputs.flatMap (inputParts s))
      (join "\n" ("interface Props \x7b" :: inputs.map (inputEntry s) ++ ["\x7d"])) := by
  have hentries : Shows (inputs.flatMap (inputParts s))
      (join "\n" (inputs.map (inputEntry s) ++ ["\x7d"])) := by
    induction inputs with
    | nil => exact .nil _
    | cons i inputs ih => exact (shows_inputEntry s i).join_cons ih
  exact (Shows.nil "interface Props \x7b").join_cons hentries

theorem shows_inputFallback (i : Input) {text : String}
    (h : (inputFallback s i).value = some text) : Shows (fallbackParts s i) text := by
  have hname := ((Shows.single i.name).prepend (pad 1)).extend ": "
  rw [inputFallback] at h
  rw [fallbackParts]
  rcases hfallback : i.fallback with _ | e | f
  · rw [hfallback] at h
    cases h
  · rw [hfallback] at h
    cases h
    exact (hname.append (.single (exprText s 1 e).value)).extend _
  · rw [hfallback] at h
    cases h
    exact (hname.append (.single (arrowFunction s 1 f).value)).extend _

theorem fallbackParts_of_none {i : Input} (h : (inputFallback s i).value = none) :
    fallbackParts s i = [] := by
  rw [inputFallback] at h
  rw [fallbackParts]
  rcases hfallback : i.fallback with _ | e | f
  · rfl
  · rw [hfallback] at h
    cases h
  · rw [hfallback] at h
    cases h

/-- The declaration of the inputs shows all default values. -/
theorem shows_inputDeclarations {inputs : List Input} (h : inputs ≠ []) :
    ∃ interface declaration,
      (inputDeclarations s inputs).value = [interface, declaration] ∧
        Shows (inputs.flatMap (inputParts s)) interface ∧
        Shows (inputs.flatMap (fallbackParts s)) declaration := by
  have hfallbacks : ((all (inputFallback s) inputs).value.filterMap id) =
      inputs.filterMap fun i => (inputFallback s i).value := by
    rw [value_all, List.filterMap_map]
    rfl
  have hshows : Shows (inputs.flatMap (fallbackParts s))
      (join "\n" ((all (inputFallback s) inputs).value.filterMap id)) := by
    rw [hfallbacks]
    exact .join_filterMap "\n" (fun i _ _ => shows_inputFallback s i)
      fun i _ => fallbackParts_of_none s
  rw [inputDeclarations, if_neg (by simpa using h)]
  refine ⟨_, _, rfl, shows_interface s inputs, ?_⟩
  split
  · rename_i hempty
    have hparts : inputs.flatMap (fallbackParts s) = [] := by
      rw [List.isEmpty_iff.1 hempty] at hfallbacks
      refine List.flatMap_eq_nil_iff.2 fun i hi => fallbackParts_of_none s ?_
      exact List.filterMap_eq_nil_iff.1 hfallbacks.symm i hi
    rw [hparts]
    exact .nil _
  · exact (hshows.prepend _).extend _

theorem shows_computedBinding {a : Accessor} (h : a.getter ≠ none ∨ a.setter ≠ none) :
    ∃ text, (computedBinding s a).value = some text ∧ Shows (accessorParts s a) text := by
  have hname := (Shows.single a.name).prepend "const "
  have hhalf (label : String) (f : Func) :
      Shows [label, (arrowFunction s 1 f).value]
        (pad 1 ++ label ++ (arrowFunction s 1 f).value ++ ",") :=
    (((Shows.single label).prepend (pad 1)).append (.single (arrowFunction s 1 f).value)).extend _
  rw [computedBinding, accessorParts]
  rcases hgetter : a.getter with _ | getter <;> rcases hsetter : a.setter with _ | setter
  · rw [hgetter, hsetter] at h
    exact (h.elim (· rfl) (· rfl)).elim
  · refine ⟨_, rfl, ?_⟩
    exact (hname.extend _).join_cons ((hhalf "set: " setter).join_cons (.nil _))
  · exact ⟨_, rfl, ((hname.extend _).append (.single (arrowFunction s 0 getter).value)).extend _⟩
  · refine ⟨_, rfl, ?_⟩
    exact (hname.extend _).join_cons ((hhalf "get: " getter).join_cons
      ((hhalf "set: " setter).join_cons (.nil _)))

theorem shows_watchRegistration (w : Watcher) :
    Shows (watcherParts s w) (watchRegistration s w).value := by
  have hsource := (Shows.single (watchSource s w.target).value).prepend "watch("
  have hboth := (hsource.extend ", ").append (.single (arrowFunction s 0 w.handler).value)
  rw [watchRegistration]
  cases w.options with
  | none | some e => exact (hboth.extend _).extend _

theorem shows_emitMethod (e : Event) : Shows (emitParts e) (emitMethod s e).value := by
  have hname := ((Shows.single "function ").prepend (asyncText e.handler.isAsync)).append
    (.single e.method)
  exact ((((((hname.extend _).extend _).extend _).extend _).append (.single _)).append
    ((Shows.single (quote e.event)).join_cons (.nil _))).extend _

theorem shows_fieldText (name : String) (isReadonly : Bool) (type : Option TypeText)
    (value : Option Expr) :
    Shows (name :: optionParts s value) (fieldText s name isReadonly type value).value := by
  cases value with
  | none => exact (((Shows.single name).prepend "let ").extend _).extend _
  | some e =>
    have hname := (Shows.single name).prepend (if isReadonly then "const " else "let ")
    exact (((hname.extend _).extend _).append (.single (exprText s 0 e).value)).extend _

theorem shows_bodyText (events : List Event) (item : BodyItem) :
    Shows (itemParts s events item) (bodyText s events item).value := by
  cases item with
  | field name isReadonly type value => exact shows_fieldText s name isReadonly type value
  | method name f => exact .single _
  | lifecycle hook f =>
    exact ((Shows.single (hook ++ "(")).append (.single (arrowFunction s 0 f).value)).extend _
  | hoisted body =>
    rw [itemParts, ← value_all]
    exact .join_self "\n" _
  | emit index =>
    rw [itemParts, bodyText]
    cases events[index]? with
    | some e => exact shows_emitMethod s e
    | none => exact .nil _
  | _ => exact .nil _

/-- The document of a component shows each entry. -/
theorem showsEntries_document {source : List Char} {denied : List String} {items : List ModuleItem}
    {t : Tables} (h : Tables.ofModule source denied items = .ok t) (framework : String) :
    ShowsEntries s t (document framework t (writeParts s t)) where
  refs := by
    refine ⟨_, _, segment_document framework t (writeParts s t) .reactiveFields, ?_⟩
    rw [writeParts_refs]
    exact List.forall₂_map_right_iff.2 (List.forall₂_same.2 fun f _ => shows_refBinding s f)
  inputs hinputs := by
    rw [segment_document]
    exact shows_inputDeclarations s hinputs
  accessors := by
    rw [segment_document, segmentPieces, writeParts_accessors, ← List.map_id t.accessors,
      List.filterMap_map]
    exact forall₂_filterMap fun a ha =>
      shows_computedBinding s ((Tables.consistent_ofModule h).accessors a ha)
  watchers := by
    rw [segment_document, segmentPieces, writeParts_watchers]
    exact List.forall₂_map_right_iff.2 (List.forall₂_same.2 fun w _ => shows_watchRegistration s w)
  items := by
    rw [segment_document, segmentPieces, writeParts_body]
    exact List.forall₂_map_right_iff.2
      (List.forall₂_same.2 fun item _ => shows_bodyText s t.events item)
  emits := Tables.emitIndices_ofModule h

end

/-! ## When every member is kept -/

/-- Each entry of the tables has its text in the output. Every member has an entry of its own, or
a finding, exactly when no two members have the same slot and each method that runs during set-up
has a body. -/
theorem convertScript_keeps_members_iff {source : String} {lang : Lang} {o : Options}
    {c : Converted} (h : convertScript source lang o = .ok c) :
    ∃ items t, parseModule lang source = .ok items ∧
      Tables.ofModule source.toList o.denied items = .ok t ∧
      let s := Scope.ofTables source.toList t
      let output := document o.framework t (writeParts s t)
      let roles := moduleRoles source.toList items
      c.code = output.render ∧ ShowsEntries s t output ∧
      List.Forall₂ Becomes (moduleMembers items) roles ∧
      (Tables.Keeps roles t c.findings ↔
        (roles.filterMap Role.slot?).Nodup ∧ ∀ r ∈ roles, r.hasSetupBody = true) := by
  obtain ⟨items, t, hitems, htables, rfl⟩ := convertScript_eq_ok_iff.1 h
  refine ⟨items, t, hitems, htables, rfl, showsEntries_document _ htables _,
    Tables.becomes_members htables, Tables.keeps_iff htables ?_⟩
  exact (List.sublist_append_left _ _).subperm.trans (List.mergeSort_perm _ _).symm.subperm

/-- A component with members of every kind. -/
def everyKindSource : String :=
  "export default class \x7b @Ref a; @Prop b; get c() \x7b\x7d set c(v) \x7b\x7d " ++
    "@Watch('a') d() \x7b\x7d @Emit e() \x7b\x7d created() \x7b\x7d f; ; [x] \x7d"

theorem every_kind_of_member_kept :
    ∃ items t, parseModule .javaScript everyKindSource = .ok items ∧
      Tables.ofModule everyKindSource.toList ({} : Options).denied items = .ok t ∧
      (moduleMembers items).length = 10 ∧
      Tables.Keeps (moduleRoles everyKindSource.toList items) t
        (convertTables everyKindSource.toList "vue" t).findings := by
  obtain ⟨items, t, hitems, ht, htables, hlength, hslots, hbodies⟩ :=
    exists_tables everyKindSource .javaScript (toList_append_ofList String.toList_ofList)
      (fun cs items _ => (moduleMembers items).length = 10 ∧
        ((moduleRoles cs items).filterMap Role.slot?).Nodup ∧
        ∀ r ∈ moduleRoles cs items, r.hasSetupBody = true)
      (by decide +kernel)
  obtain ⟨items', t', hitems', ht', -, -, -, hiff⟩ :=
    convertScript_keeps_members_iff (convertScript_eq_ok.2 ⟨t, htables, rfl⟩)
  cases hitems.symm.trans hitems'
  cases ht.symm.trans ht'
  exact ⟨items, t, hitems, ht, hlength, hiff.2 ⟨hslots, hbodies⟩⟩

/-- A component with a getter of its own and a static one of the same name. -/
def twoGettersSource : String :=
  "@Component export default class A \x7b get n() \x7b return 1; \x7d " ++
    "static get n() \x7b return 2; \x7d \x7d"

/-- The second getter takes the slot of the first one, and nothing is reported. -/
theorem first_getter_lost :
    convertScript twoGettersSource .javaScript {} = .ok
      ⟨"import \x7b computed \x7d from 'vue';\n\n" ++
        "const n = computed(() => \x7b\n  return 2;\n\x7d);", []⟩ ∧
    ∃ items t, parseModule .javaScript twoGettersSource = .ok items ∧
      Tables.ofModule twoGettersSource.toList ({} : Options).denied items = .ok t ∧
      ¬ Tables.Keeps (moduleRoles twoGettersSource.toList items) t
        (convertTables twoGettersSource.toList "vue" t).findings := by
  obtain ⟨items, t, hitems, ht, htables, hconverted, htwice⟩ :=
    exists_tables twoGettersSource .javaScript (toList_append_ofList String.toList_ofList)
      (fun cs items t => convertTables cs "vue" t =
        ⟨"import \x7b computed \x7d from 'vue';\n\n" ++
          "const n = computed(() => \x7b\n  return 2;\n\x7d);", []⟩ ∧
        ¬ ((moduleRoles cs items).filterMap Role.slot?).Nodup)
      (by decide +kernel)
  refine ⟨convertScript_eq_ok.2 ⟨t, htables, hconverted⟩, items, t, hitems, ht, fun hkeeps => ?_⟩
  exact htwice ((Tables.subperm_slotted_iff ht).1 hkeeps.slots)

end ScriptSetup.Setup
