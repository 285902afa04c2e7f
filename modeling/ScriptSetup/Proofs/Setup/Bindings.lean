import Mathlib.Data.List.Forall2
import ScriptSetup.Proofs.Component.DistinctNames
import ScriptSetup.Proofs.Setup.Segments

/-!
# Bindings of the output

An access `this.n` is written as the name `n`, so the output should bind that name at its top
level. It does for members that become state, accessors, fields, methods or the methods of events.
An input is only reached through `props`, and a watcher or a hook is a function without a name, so
an access to one of these is left without a binding unless something else has its name.
-/

set_option autoImplicit false

namespace ScriptSetup.Setup

open Script Component Written Text

/-! ## Names at the top level -/

/-- The name that an import binds. -/
def ImportSpecifier.binds : ImportSpecifier → String
  | .default name | .namespace name | .named _ _ name => name

/-- The names that code beside the members declares at the top level. -/
def besideNames : BodyItem → List String
  | .stmt stmt | .exportDecl _ stmt => bodyNames [stmt]
  | .hoisted body => bodyNames body
  | .moduleDecl _ | .field _ _ _ _ | .method _ _ | .lifecycle _ _ | .emit _ | .unsupported => []

/-- The names that are generated. -/
def generatedNames (t : Tables) (templateRefs : List String) : List String :=
  frameworkNames t templateRefs ++ (if t.inputs.isEmpty then [] else ["props"])
    ++ (if t.events.isEmpty then [] else ["emit"])

/-- The names that the output binds at its top level, other than those that members leave behind:
imports, what is generated, template references, and the declarations of code beside the
members. -/
def surroundingNames (t : Tables) (templateRefs : List String) : List String :=
  t.imports.flatMap (·.specifiers.map ImportSpecifier.binds) ++ generatedNames t templateRefs
    ++ templateRefs ++ t.body.flatMap besideNames

/-- The name of an access `this.n`. -/
def Use.selfName? (u : Use) : Option String :=
  match u.reference with
  | .self name _ _ => some name
  | .name _ | .templateRef _ => none

/-- The names that members access through `this` and that the component declares. -/
def declaredAccesses (t : Tables) : List String :=
  ((memberUses t).filterMap Use.selfName?).filter (t.declared.contains ·)

/-! ## Members leave declarations behind -/

/-- What a declaration starts with. -/
def declarationKeywords : List String :=
  ["const ", "let ", "function ", "function* ", "async function ", "async function* "]

/-- The text is a declaration of the name. -/
def Declares (name text : String) : Prop :=
  ∃ keyword ∈ declarationKeywords, ∃ rest, text = keyword ++ name ++ rest

theorem Declares.of_keyword {keyword : String} (h : keyword ∈ declarationKeywords) (name : String) :
    Declares name (keyword ++ name) :=
  ⟨keyword, h, "", String.append_empty.symm⟩

theorem Declares.append {name text : String} (h : Declares name text) (more : String) :
    Declares name (text ++ more) := by
  obtain ⟨keyword, hkeyword, rest, rfl⟩ := h
  exact ⟨keyword, hkeyword, rest ++ more, String.append_assoc⟩

theorem function_keyword (isAsync isGenerator : Bool) :
    asyncText isAsync ++ "function" ++ starText isGenerator ++ " " ∈ declarationKeywords := by
  cases isAsync <;> cases isGenerator <;> decide

theorem value_all {α β : Type} (f : α → Written β) (as : List α) :
    (all f as).value = as.map fun a => (f a).value := by
  induction as with
  | nil => rfl
  | cons a as ih => exact congrArg ((f a).value :: ·) ih

theorem declares_refBinding (s : Scope) (f : RefField) :
    Declares f.name (refBinding s f).value := by
  have hname : Declares f.name ("const " ++ f.name) := .of_keyword (by decide) f.name
  rw [refBinding]
  cases f.init with
  | none | some e => exact ((((hname.append _).append _).append _).append _).append _

/-- An accessor that can be read or written is bound. -/
theorem declares_computedBinding (s : Scope) {a : Accessor}
    (h : a.getter ≠ none ∨ a.setter ≠ none) :
    ∃ text, (computedBinding s a).value = some text ∧ Declares a.name text := by
  have hname : Declares a.name ("const " ++ a.name) := .of_keyword (by decide) a.name
  rw [computedBinding]
  match hgetter : a.getter, hsetter : a.setter with
  | none, none =>
    rw [hgetter, hsetter] at h
    exact (h.elim (· rfl) (· rfl)).elim
  | some getter, none | some getter, some setter =>
    exact ⟨_, rfl, ((hname.append _).append _).append _⟩
  | none, some setter => exact ⟨_, rfl, ((hname.append _).append _).append _⟩

theorem declares_fieldText (s : Scope) (name : String) (isReadonly : Bool)
    (type : Option TypeText) (value : Option Expr) :
    Declares name (fieldText s name isReadonly type value).value := by
  cases value with
  | none =>
    have hname : Declares name ("let " ++ name) := .of_keyword (by decide) name
    exact (hname.append _).append _
  | some e =>
    have hname : Declares name ((if isReadonly then "const " else "let ") ++ name) :=
      .of_keyword (by cases isReadonly <;> decide) name
    exact (((hname.append _).append _).append _).append _

theorem declares_functionDecl (s : Scope) (name : String) (f : Func) :
    Declares name (functionDecl s 0 name f).value :=
  (Declares.of_keyword (function_keyword f.isAsync f.isGenerator) name).append _

theorem declares_emitMethod (s : Scope) (e : Event) :
    Declares e.method (emitMethod s e).value := by
  have hname : Declares e.method (asyncText e.handler.isAsync ++ "function " ++ e.method) :=
    .of_keyword (by cases e.handler.isAsync <;> decide) e.method
  exact ((((((hname.append _).append _).append _).append _).append _).append _).append _

/-- A member that stays in place as a declaration declares its name. -/
theorem declares_bodyText (s : Scope) {events : List Event} {item : BodyItem} {name : String}
    (h : itemName? events item = some name) : Declares name (bodyText s events item).value := by
  cases item with
  | field name isReadonly type value =>
    cases h
    exact declares_fieldText s name isReadonly type value
  | method name f =>
    cases h
    exact declares_functionDecl s name f
  | emit index =>
    obtain ⟨e, he, rfl⟩ := Option.map_eq_some_iff.1 h
    rw [bodyText, he]
    exact declares_emitMethod s e
  | _ => cases h

section

variable (s : Scope) (t : Tables)

theorem writeParts_watchers : (writeParts s t).value.watchers =
    t.watchers.map fun w => (watchRegistration s w).value :=
  value_all (watchRegistration s) t.watchers

theorem writeParts_refs : (writeParts s t).value.refs =
    t.refs.map fun f => (refBinding s f).value :=
  value_all (refBinding s) t.refs

theorem writeParts_body : (writeParts s t).value.body =
    t.body.map fun item => (bodyText s t.events item).value :=
  value_all (bodyText s t.events) t.body

theorem writeParts_accessors : (writeParts s t).value.accessors =
    t.accessors.filterMap fun a => (computedBinding s a).value := by
  refine (congrArg (List.filterMap id) (value_all (computedBinding s) t.accessors)).trans ?_
  rw [List.filterMap_map]
  rfl

end

/-- Every name that a member leaves behind is declared by a piece of the output. -/
theorem declares_memberNames (s : Scope) {t : Tables} (h : t.Consistent) {name : String}
    (hname : name ∈ t.memberNames) :
    let parts := (writeParts s t).value
    ∃ piece ∈ parts.refs ++ parts.accessors ++ parts.body, Declares name piece := by
  simp only [List.mem_append, or_assoc, writeParts_refs, writeParts_accessors,
    writeParts_body]
  rcases Tables.mem_memberNames.1 hname with hname | hname | ⟨item, hitem, hname⟩
  · obtain ⟨f, hf, rfl⟩ := List.mem_map.1 hname
    exact ⟨_, .inl (List.mem_map_of_mem hf), declares_refBinding s f⟩
  · obtain ⟨a, ha, rfl⟩ := List.mem_map.1 hname
    obtain ⟨text, htext, hdeclares⟩ := declares_computedBinding s (h.accessors a ha)
    exact ⟨text, .inr (.inl (List.mem_filterMap.2 ⟨a, ha, htext⟩)), hdeclares⟩
  · exact ⟨_, .inr (.inr (List.mem_map_of_mem hitem)), declares_bodyText s hname⟩

/-! ## Names of the output -/

/-- The names that each piece of a segment binds. -/
def segmentNames (t : Tables) (templateRefs : List String) : Segment → List (List String)
  | .imports => t.imports.map (·.specifiers.map ImportSpecifier.binds)
    ++ if (frameworkNames t templateRefs).isEmpty then [] else [frameworkNames t templateRefs]
  | .separator =>
    if t.imports.isEmpty && (frameworkNames t templateRefs).isEmpty then [] else [[]]
  | .inputs => if t.inputs.isEmpty then [] else [[], ["props"]]
  | .events => if t.events.isEmpty then [] else [[], ["emit"]]
  | .observers => t.watchers.map fun _ => []
  | .reactiveFields => t.refs.map (fun f => [f.name]) ++ templateRefs.map fun n => [n]
  | .computedAccessors => t.accessors.map fun a => [a.name]
  | .body => t.body.map fun item => (itemName? t.events item).toList ++ besideNames item

/-- The names that the output binds at its top level, in order. -/
def outputNames (t : Tables) (templateRefs : List String) : List String :=
  Segment.all.flatMap fun seg => (segmentNames t templateRefs seg).flatten

/-- A piece of the output binds these names at the top level and no others. -/
inductive Binds (s : Scope) (hooks : List String) : List String → String → Prop where
  | importDecl (decl : ImportDecl) :
    Binds s hooks (decl.specifiers.map ImportSpecifier.binds) (importText decl)
  | generatedImport {framework : String} {names : List String} {text : String}
      (h : frameworkImport framework names = some text) : Binds s hooks names text
  | declaration {name text : String} (h : Declares name text) : Binds s hooks [name] text
  | exported (span : Span) (decl : Stmt) :
    Binds s hooks (bodyNames [decl]) (exportText s span decl).value
  | statement (stmt : Stmt) : Binds s hooks (bodyNames [stmt]) (stmtText s 0 stmt).value
  /-- statements, without those that do nothing -/
  | statements (body : List Stmt) :
    Binds s hooks (bodyNames body)
      (join "\n" ((body.map fun stmt => (stmtText s 0 stmt).value).filter (· != ";")))
  | interface (rest : String) : Binds s hooks [] ("interface " ++ rest)
  | registration {f : String} (h : f = "watch" ∨ f ∈ hooks) (rest : String) :
    Binds s hooks [] (f ++ "(" ++ rest)
  | placeholder : Binds s hooks [] stmtPlaceholder
  | nothing : Binds s hooks [] ""

theorem exists_join_cons (sep text : String) (texts : List String) :
    ∃ rest, join sep (text :: texts) = text ++ rest := by
  cases texts with
  | nil => exact ⟨"", String.append_empty.symm⟩
  | cons next texts => exact ⟨sep ++ join sep (next :: texts), String.append_assoc⟩

section

variable {s : Scope} {hooks : List String}

/-- An interface binds no value. -/
theorem binds_interface (name : String) (entries : List String) :
    Binds s hooks [] (join "\n" (("interface " ++ name) :: entries)) := by
  obtain ⟨rest, hrest⟩ := exists_join_cons "\n" ("interface " ++ name) entries
  rw [hrest, String.append_assoc]
  exact .interface _

theorem declares_const (name rest : String) : Declares name ("const " ++ name ++ rest) :=
  (Declares.of_keyword (by decide) name).append rest

theorem binds_inputs (inputs : List Input) :
    List.Forall₂ (Binds s hooks) (if inputs.isEmpty then [] else [[], ["props"]])
      (inputDeclarations s inputs).value := by
  rw [inputDeclarations]
  split
  · exact .nil
  · refine .cons (binds_interface "Props \x7b" _) (.cons (.declaration ?_) .nil)
    split
    · exact declares_const "props" " = defineProps<Props>();"
    · rw [String.append_assoc]
      exact declares_const "props" (" = withDefaults(defineProps<Props>(), \x7b\n" ++ _)

theorem binds_events (events : List Event) :
    List.Forall₂ (Binds s hooks) (if events.isEmpty then [] else [[], ["emit"]])
      (eventDeclarations s events).value := by
  rw [eventDeclarations]
  split
  · exact .nil
  · exact .cons (binds_interface "Emits \x7b" _)
      (.cons (.declaration (declares_const "emit" " = defineEmits<Emits>();")) .nil)

theorem binds_watchRegistration (w : Watcher) :
    Binds s hooks [] (watchRegistration s w).value := by
  have htext : ∃ rest, (watchRegistration s w).value = "watch" ++ "(" ++ rest := by
    rw [watchRegistration]
    split
    · exact ⟨_, String.append_assoc.trans (String.append_assoc.trans
        (String.append_assoc.trans String.append_assoc))⟩
    · exact ⟨_, String.append_assoc.trans (String.append_assoc.trans
        (String.append_assoc.trans String.append_assoc))⟩
  obtain ⟨rest, hrest⟩ := htext
  rw [hrest]
  exact .registration (.inl rfl) rest

theorem binds_bodyText {events : List Event} {item : BodyItem}
    (hhook : ∀ hook, registration? item = some hook → hook ∈ hooks)
    (hevent : ∀ index, item = .emit index → index < events.length) :
    Binds s hooks ((itemName? events item).toList ++ besideNames item)
      (bodyText s events item).value := by
  have hnamed {name : String} (hname : itemName? events item = some name)
      (hbeside : besideNames item = []) : Binds s hooks ((itemName? events item).toList
        ++ besideNames item) (bodyText s events item).value := by
    rw [hname, hbeside]
    exact .declaration (declares_bodyText s hname)
  cases item with
  | stmt stmt => exact .statement stmt
  | exportDecl span decl => exact .exported span decl
  | moduleDecl span => exact .placeholder
  | field name isReadonly type value | method name f => exact hnamed rfl rfl
  | lifecycle hook f =>
    have htext : (bodyText s events (.lifecycle hook f)).value =
        hook ++ "(" ++ ((arrowFunction s 0 f).value ++ ");") := String.append_assoc
    rw [htext]
    exact .registration (.inr (hhook hook rfl)) _
  | hoisted body =>
    have htext : (bodyText s events (.hoisted body)).value =
        join "\n" ((body.map fun stmt => (stmtText s 0 stmt).value).filter (· != ";")) := by
      rw [← value_all]
      rfl
    rw [htext]
    exact .statements body
  | emit index =>
    have hindex := hevent index rfl
    have hname : itemName? events (.emit index) = some events[index].method := by
      simp [itemName?, hindex]
    exact hnamed hname rfl
  | unsupported => exact .placeholder

end

theorem forall₂_map {α β γ : Type} {R : β → γ → Prop} {f : α → β} {g : α → γ} {as : List α}
    (h : ∀ a ∈ as, R (f a) (g a)) : List.Forall₂ R (as.map f) (as.map g) := by
  rw [List.forall₂_map_left_iff, List.forall₂_map_right_iff, List.forall₂_same]
  exact h

theorem forall₂_filterMap {α β γ : Type} {R : β → γ → Prop} {f : α → β} {g : α → Option γ}
    {as : List α} (h : ∀ a ∈ as, ∃ c, g a = some c ∧ R (f a) c) :
    List.Forall₂ R (as.map f) (as.filterMap g) := by
  induction as with
  | nil => exact .nil
  | cons a as ih =>
    obtain ⟨c, hc, hR⟩ := h a List.mem_cons_self
    rw [List.map_cons, List.filterMap_cons_some hc]
    exact .cons hR (ih fun a' ha' => h a' (List.mem_cons_of_mem a ha'))

section

variable {source : List Char} {denied : List String} {items : List ModuleItem} {t : Tables}

/-- The functions that register lifecycle code are all imported. -/
theorem mem_hooks_of_registration (h : Tables.ofModule source denied items = .ok t)
    {item : BodyItem} (hitem : item ∈ t.body) {hook : String}
    (hhook : registration? item = some hook) : hook ∈ t.hooks := by
  have hmem : hook ∈ t.body.filterMap registration? := List.mem_filterMap.2 ⟨item, hitem, hhook⟩
  rw [Tables.registrations_ofModule h] at hmem
  rw [Tables.hooks_ofModule h, mem_foldl_insertNew]
  exact .inr hmem

/-- Each piece of the document binds the names that stand for it. -/
theorem binds_document (h : Tables.ofModule source denied items = .ok t) (s : Scope)
    (framework : String) (seg : Segment) :
    let w := writeParts s t
    List.Forall₂ (Binds s t.hooks) (segmentNames t (firstUses w.templateRefs) seg)
      ((document framework t w).segment seg) := by
  intro w
  rw [segment_document]
  have hconsistent := Tables.consistent_ofModule h
  cases seg with
  | imports =>
    refine List.rel_append (forall₂_map fun decl _ => .importDecl decl) ?_
    cases hnames : frameworkNames t (firstUses w.templateRefs) with
    | nil => exact .nil
    | cons name names => exact .cons (.generatedImport rfl) .nil
  | separator =>
    rw [segmentNames, segmentPieces]
    split
    · exact .nil
    · exact .cons .nothing .nil
  | inputs => exact binds_inputs t.inputs
  | events => exact binds_events t.events
  | observers =>
    rw [segmentPieces, writeParts_watchers]
    exact forall₂_map fun watcher _ => binds_watchRegistration watcher
  | reactiveFields =>
    rw [segmentPieces, writeParts_refs]
    exact List.rel_append (forall₂_map fun f _ => .declaration (declares_refBinding s f))
      (forall₂_map fun name _ => .declaration (declares_const name _))
  | computedAccessors =>
    rw [segmentPieces, writeParts_accessors]
    refine forall₂_filterMap fun a ha => ?_
    obtain ⟨text, htext, hdeclares⟩ := declares_computedBinding s (hconsistent.accessors a ha)
    exact ⟨text, htext, .declaration hdeclares⟩
  | body =>
    rw [segmentPieces, writeParts_body]
    exact forall₂_map fun item hitem => binds_bodyText
      (fun hook hhook => mem_hooks_of_registration h hitem hhook)
      (fun index hindex => hconsistent.events index (hindex ▸ hitem))

end

theorem outputNames_eq (t : Tables) (templateRefs : List String) :
    outputNames t templateRefs =
      t.imports.flatMap (·.specifiers.map ImportSpecifier.binds)
        ++ (generatedNames t templateRefs ++ (t.refs.map (·.name) ++ (templateRefs
        ++ (t.accessors.map (·.name) ++
          t.body.flatMap fun item => (itemName? t.events item).toList ++ besideNames item)))) := by
  have himports : (segmentNames t templateRefs .imports).flatten =
      t.imports.flatMap (·.specifiers.map ImportSpecifier.binds)
        ++ frameworkNames t templateRefs := by
    rw [segmentNames, List.flatten_append, ← List.flatMap_def]
    split
    · rename_i hempty
      rw [List.isEmpty_iff.1 hempty]
      rfl
    · rw [List.flatten_singleton]
  have hseparator : (segmentNames t templateRefs .separator).flatten = [] := by
    rw [segmentNames]
    split
    · rfl
    · rfl
  have hinputs : (segmentNames t templateRefs .inputs).flatten =
      if t.inputs.isEmpty then [] else ["props"] := by
    rw [segmentNames]
    split
    · rfl
    · rfl
  have hevents : (segmentNames t templateRefs .events).flatten =
      if t.events.isEmpty then [] else ["emit"] := by
    rw [segmentNames]
    split
    · rfl
    · rfl
  have hobservers : (segmentNames t templateRefs .observers).flatten = [] := by
    simp [segmentNames]
  have hrefs : (segmentNames t templateRefs .reactiveFields).flatten =
      t.refs.map (·.name) ++ templateRefs := by
    rw [segmentNames, List.flatten_append, ← List.flatMap_def, ← List.flatMap_def,
      ← List.map_eq_flatMap, ← List.map_eq_flatMap, List.map_id']
  have haccessors : (segmentNames t templateRefs .computedAccessors).flatten =
      t.accessors.map (·.name) := by
    rw [segmentNames, ← List.flatMap_def, ← List.map_eq_flatMap]
  have hbody : (segmentNames t templateRefs .body).flatten =
      t.body.flatMap fun item => (itemName? t.events item).toList ++ besideNames item := by
    rw [segmentNames, ← List.flatMap_def]
  simp only [outputNames, Segment.all, List.flatMap_cons, List.flatMap_nil, himports, hseparator,
    hinputs, hevents, hobservers, hrefs, haccessors, hbody, generatedNames, List.append_assoc,
    List.nil_append, List.append_nil]

theorem mem_outputNames {t : Tables} {templateRefs : List String} {n : String} :
    n ∈ outputNames t templateRefs ↔
      n ∈ t.memberNames ∨ n ∈ surroundingNames t templateRefs := by
  simp only [outputNames_eq, Tables.memberNames, surroundingNames, List.mem_append,
    List.mem_flatMap, List.mem_filterMap, Option.mem_toList, and_or_left, exists_or]
  grind

/-! ## When accesses stay bound -/

/-- What is written is the resolved form of the tables, where an access `this.n` is the name `n`.
Each piece of the output binds known names. Members that become state, accessors, fields, methods
or methods of events are declared by one of them. So the names of the accesses to declared members
are all bound exactly when each name that only inputs, watchers and hooks have is also the name of
something else at the top level. -/
theorem convertScript_accesses_bound_iff {source : String} {lang : Lang} {o : Options}
    {c : Converted} (h : convertScript source lang o = .ok c) :
    ∃ items t, parseModule lang source = .ok items ∧
      Tables.ofModule source.toList o.denied items = .ok t ∧
      let s := Scope.ofTables source.toList t
      let written := writeParts s t
      let printed := resolveTables s.reactive t
      let templateRefs := firstUses written.templateRefs
      let output := document o.framework t written
      c.code = output.render ∧
      written.value = (writeParts s printed).value ∧
      memberUses printed = (memberUses t).map Use.resolve ∧
      (∀ n ∈ t.memberNames, ∃ piece ∈ written.value.refs ++ written.value.accessors
        ++ written.value.body, Declares n piece) ∧
      (∀ seg, List.Forall₂ (Binds s t.hooks) (segmentNames t templateRefs seg)
        (output.segment seg)) ∧
      ((∀ n ∈ declaredAccesses t, n ∈ outputNames t templateRefs) ↔
        ∀ n ∈ declaredAccesses t,
          (∀ m ∈ moduleMembers items, memberName? m = some n →
            (roleOf source.toList m).isNameless = true) →
          n ∈ surroundingNames t templateRefs) := by
  obtain ⟨items, t, hitems, htables, rfl⟩ := convertScript_eq_ok_iff.1 h
  refine ⟨items, t, hitems, htables, rfl, ?_, memberUses_resolve _ t, fun n hn => ?_,
    binds_document htables _ o.framework, ?_⟩
  · rw [(writeParts_settles _ t).settled]
    rfl
  · exact declares_memberNames _ (Tables.consistent_ofModule htables) hn
  · refine forall_congr' fun n => imp_congr_right fun _ => ?_
    rw [mem_outputNames, Decidable.or_iff_not_imp_left,
      Tables.mem_memberNames_ofModule htables]
    refine imp_congr_left ?_
    simp only [not_exists, not_and, Bool.not_eq_false]

/-- A component whose accesses are to members of every kind that keeps its name. -/
def keptNamesSource : String :=
  "import m from 'm'; @Component export default class A \x7b @Ref a; b; get c() " ++
    "\x7b this.a \x7d d() \x7b this.b; this.c \x7d @Emit e() \x7b\x7d @Prop m; " ++
    "created() \x7b this.d(this.e, this.m) \x7d \x7d"

theorem accesses_to_kept_names_bound :
    ∃ t, scriptTables keptNamesSource .javaScript {} = .ok t ∧
      declaredAccesses t = ["a", "b", "c", "d", "e", "m"] ∧
      ∀ n ∈ declaredAccesses t, n ∈ outputNames t
        (firstUses (writeParts (Scope.ofTables keptNamesSource.toList t) t).templateRefs) := by
  obtain ⟨items, t, hitems, ht, htables, haccesses, hnames⟩ :=
    exists_tables keptNamesSource .javaScript
      (toList_append_ofList (toList_append_ofList String.toList_ofList))
      (fun cs items t => declaredAccesses t = ["a", "b", "c", "d", "e", "m"] ∧
        ∀ n ∈ declaredAccesses t,
          (∀ m ∈ moduleMembers items, memberName? m = some n →
            (roleOf cs m).isNameless = true) →
          n ∈ surroundingNames t (firstUses (writeParts (Scope.ofTables cs t) t).templateRefs))
      (by decide +kernel)
  obtain ⟨items', t', hitems', ht', -, -, -, -, -, hiff⟩ :=
    convertScript_accesses_bound_iff (convertScript_eq_ok.2 ⟨t, htables, rfl⟩)
  cases hitems.symm.trans hitems'
  cases ht.symm.trans ht'
  exact ⟨t, htables, haccesses, hiff.2 hnames⟩

/-- A component that reads one of its inputs. -/
def inputAccessSource : String :=
  "@Component export default class A \x7b @Prop() label; " ++
    "show() \x7b return this.label; \x7d \x7d"

/-- The input is read by its name, which nothing binds, and nothing is reported. -/
theorem input_access_unbound :
    convertScript inputAccessSource .typeScript {} = .ok
      ⟨"interface Props \x7b\n  label?: any,\n\x7d\nconst props = defineProps<Props>();\n\n" ++
        "function show() \x7b\n  return label;\n\x7d", []⟩ ∧
    ∃ t, scriptTables inputAccessSource .typeScript {} = .ok t ∧
      ¬ ∀ n ∈ declaredAccesses t, n ∈ outputNames t
        (firstUses (writeParts (Scope.ofTables inputAccessSource.toList t) t).templateRefs) := by
  obtain ⟨-, t, -, -, ht, hconverted, hunbound⟩ := exists_tables inputAccessSource .typeScript
    (toList_append_ofList String.toList_ofList)
    (fun cs _ t => convertTables cs "vue" t =
        ⟨"interface Props \x7b\n  label?: any,\n\x7d\nconst props = defineProps<Props>();\n\n" ++
          "function show() \x7b\n  return label;\n\x7d", []⟩ ∧
      ¬ ∀ n ∈ declaredAccesses t, n ∈ outputNames t
        (firstUses (writeParts (Scope.ofTables cs t) t).templateRefs))
    (by decide +kernel)
  exact ⟨convertScript_eq_ok.2 ⟨t, ht, hconverted⟩, t, ht, hunbound⟩

end ScriptSetup.Setup
