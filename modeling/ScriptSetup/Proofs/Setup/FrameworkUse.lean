import Mathlib.Data.List.Forall2
import ScriptSetup.Proofs.Component.TableContents
import ScriptSetup.Proofs.Setup.Collisions
import ScriptSetup.Proofs.Setup.DocumentLayout

/-!
# The functions of the framework that the output uses

The generated import lists `ref`, `computed`, `watch` and the functions that register lifecycle
code. The list is made from the tables and from the template references that were noted while
everything else was written; here it is compared with the pieces of the document: a function is
listed exactly when a piece of the output calls it.

Each name that the code reaches through `this.$refs` is bound by one call of `ref`: that of the
state with its name, or else that of the template reference.
-/

set_option autoImplicit false

namespace ScriptSetup.Setup

open Script Component Written Text

/-! ## Pieces that call a function -/

/-- The text calls a function. -/
def Calls (f text : String) : Prop :=
  ∃ rest, text = f ++ "(" ++ rest

/-- The text binds a name to what a function gives. A type may stand before the arguments. -/
def BindsCall (f name text : String) : Prop :=
  ∃ rest, text = "const " ++ name ++ " = " ++ f ++ "(" ++ rest ∨
    text = "const " ++ name ++ " = " ++ f ++ "<" ++ rest

section

variable (s : Scope)

theorem calls_watchRegistration (w : Watcher) : Calls "watch" (watchRegistration s w).value := by
  have hwatch : "watch(" = "watch" ++ "(" := by decide
  rw [watchRegistration, hwatch]
  cases w.options with
  | none | some e => exact ⟨_, by simp only [String.append_assoc]; rfl⟩

/-- The type argument of a call, when it has one. -/
def typeArgument (s : Scope) : Option TypeText → String
  | some t => "<" ++ s.typeText t ++ ">"
  | none => ""

theorem bindsCall_refBinding (f : RefField) : BindsCall "ref" f.name (refBinding s f).value := by
  have hvalue : ∃ init, (refBinding s f).value = "const " ++ f.name ++ " = ref" ++
      typeArgument s f.type ++ "(" ++ init ++ ");" := by
    rw [refBinding]
    cases f.init with
    | none => exact ⟨"", rfl⟩
    | some e => exact ⟨(exprText s 0 e).value, rfl⟩
  obtain ⟨init, hvalue⟩ := hvalue
  have href : " = ref" = " = " ++ "ref" := by decide
  rw [hvalue, href]
  cases f.type with
  | none =>
    exact ⟨init ++ ");", .inl (by
      simp only [typeArgument, String.append_assoc, String.empty_append])⟩
  | some t =>
    exact ⟨s.typeText t ++ (">" ++ ("(" ++ (init ++ ");"))), .inr (by
      simp only [typeArgument, String.append_assoc])⟩

theorem bindsCall_templateRefBinding (name : String) :
    BindsCall "ref" name (templateRefBinding name) := by
  have href : " = ref(null);" = " = " ++ ("ref" ++ ("(" ++ "null);")) := by decide
  refine ⟨"null);", .inl ?_⟩
  rw [templateRefBinding, href]
  simp only [String.append_assoc]

theorem bindsCall_computedBinding {a : Accessor} (h : a.getter ≠ none ∨ a.setter ≠ none) :
    ∃ text, (computedBinding s a).value = some text ∧ BindsCall "computed" a.name text := by
  have hcall : " = computed(" = " = " ++ ("computed" ++ "(") := by decide
  have hobject : " = computed(\x7b" = " = " ++ ("computed" ++ ("(" ++ "\x7b")) := by decide
  -- an accessor that can be written is an object over several lines
  have hlines (lines : List String) : BindsCall "computed" a.name
      (join "\n" (("const " ++ a.name ++ " = computed(\x7b") :: lines)) := by
    obtain ⟨rest, hrest⟩ := exists_join_cons "\n" ("const " ++ a.name ++ " = computed(\x7b") lines
    refine ⟨"\x7b" ++ rest, .inl ?_⟩
    rw [hrest, hobject]
    simp only [String.append_assoc]
  rw [computedBinding]
  rcases hgetter : a.getter with _ | getter <;> rcases hsetter : a.setter with _ | setter
  · rw [hgetter, hsetter] at h
    exact (h.elim (· rfl) (· rfl)).elim
  · exact ⟨_, rfl, hlines _⟩
  · refine ⟨_, rfl, (arrowFunction s 0 getter).value ++ ");", .inl ?_⟩
    rw [hcall]
    simp only [String.append_assoc]
  · exact ⟨_, rfl, hlines _⟩

theorem calls_bodyText {events : List Event} {item : BodyItem} {hook : String}
    (h : registration? item = some hook) : Calls hook (bodyText s events item).value := by
  cases item with
  | lifecycle name f =>
    cases h
    exact ⟨(arrowFunction s 0 f).value ++ ");", String.append_assoc⟩
  | _ => cases h

end

/-! ## What the import lists -/

/-- The import lists the functions that the pieces of the output call: each once, and those that
register lifecycle code in the order of their first use. -/
structure ListsUsed (t : Tables) (output : Document) (names : List String) : Prop where
  nodup : names.Nodup
  ref : "ref" ∈ names ↔ ∃ text, text ∈ output.segment .reactiveFields
  computed : "computed" ∈ names ↔ ∃ text, text ∈ output.segment .computedAccessors
  watch : "watch" ∈ names ↔ ∃ text, text ∈ output.segment .observers
  registered : ∀ hook ∈ lifecycleHooks.map (·.2),
    (hook ∈ names ↔ ∃ item ∈ t.body, registration? item = some hook)
  order : names.filter (fun n => n ∈ lifecycleHooks.map (·.2)) =
    (t.body.filterMap registration?).eraseDups
  others : ∀ n ∈ names, n ∈ ["ref", "computed", "watch"] ∨ n ∈ lifecycleHooks.map (·.2)

/-- What the pieces of the output call. The calls of `ref` are those of the state and then those of
the template references. -/
structure CallsInPlace (t : Tables) (templateRefs : List String) (output : Document) : Prop where
  refs : List.Forall₂ (BindsCall "ref") (t.refs.map (·.name) ++ templateRefs)
    (output.segment .reactiveFields)
  computed : List.Forall₂ (BindsCall "computed") (t.accessors.map (·.name))
    (output.segment .computedAccessors)
  watch : List.Forall₂ (fun _ text => Calls "watch" text) t.watchers (output.segment .observers)
  registrations : List.Forall₂
    (fun item text => ∀ hook, registration? item = some hook → Calls hook text) t.body
    (output.segment .body)

theorem mem_ite_nil {c : Prop} [Decidable c] {name n : String} :
    n ∈ (if c then [] else [name]) ↔ n = name ∧ ¬ c := by
  split
  · simp [*]
  · simp [*]

theorem mem_frameworkNames {t : Tables} {templateRefs : List String} {n : String} :
    n ∈ frameworkNames t templateRefs ↔
      (n = "ref" ∧ t.refs.map (·.name) ++ templateRefs ≠ []) ∨
      (n = "computed" ∧ t.accessors ≠ []) ∨ (n = "watch" ∧ t.watchers ≠ []) ∨ n ∈ t.hooks := by
  simp only [frameworkNames, List.mem_append, mem_ite_nil, Bool.and_eq_true, List.isEmpty_iff,
    ne_eq, List.append_eq_nil_iff, List.map_eq_nil_iff, or_assoc]

section

variable {source : List Char} {denied : List String} {items : List ModuleItem} {t : Tables}

/-- The pieces of the document call what they stand for. -/
theorem callsInPlace_document (h : Tables.ofModule source denied items = .ok t) (s : Scope)
    (framework : String) :
    CallsInPlace t (firstUses (writeParts s t).templateRefs)
      (document framework t (writeParts s t)) where
  refs := by
    rw [segment_document, segmentPieces, writeParts_refs]
    refine List.rel_append (forall₂_map fun f _ => bindsCall_refBinding s f) ?_
    rw [List.forall₂_map_right_iff, List.forall₂_same]
    exact fun name _ => bindsCall_templateRefBinding name
  computed := by
    rw [segment_document, segmentPieces, writeParts_accessors]
    exact forall₂_filterMap fun a ha =>
      bindsCall_computedBinding s ((Tables.consistent_ofModule h).accessors a ha)
  watch := by
    rw [segment_document, segmentPieces, writeParts_watchers, List.forall₂_map_right_iff,
      List.forall₂_same]
    exact fun w _ => calls_watchRegistration s w
  registrations := by
    rw [segment_document, segmentPieces, writeParts_body, List.forall₂_map_right_iff,
      List.forall₂_same]
    exact fun item _ hook hhook => calls_bodyText s hhook

/-- A list has members exactly when the list that stands beside it is not empty. -/
theorem exists_mem_iff_of_forall₂ {α β : Type} {R : α → β → Prop} {as : List α} {bs : List β}
    (h : List.Forall₂ R as bs) : (∃ b, b ∈ bs) ↔ as ≠ [] := by
  cases h with
  | nil | cons _ _ => simp

/-- The import of a document lists what its pieces call. -/
theorem listsUsed_of_callsInPlace (h : Tables.ofModule source denied items = .ok t)
    {templateRefs : List String} {output : Document} (hcalls : CallsInPlace t templateRefs output) :
    ListsUsed t output (frameworkNames t templateRefs) := by
  have hgenerated : ∀ n ∈ ["ref", "computed", "watch"], n ∉ lifecycleHooks.map (·.2) := by decide
  have hhook {n : String} (hn : n ∈ ["ref", "computed", "watch"]) : n ∉ t.hooks :=
    fun hmem => hgenerated n hn (mem_hooks h hmem)
  have hregistered {n : String} (hn : n ∈ lifecycleHooks.map (·.2)) :
      n ∈ frameworkNames t templateRefs ↔ n ∈ t.hooks := by
    have hnot {m : String} (hm : m ∈ ["ref", "computed", "watch"]) : n ≠ m :=
      fun heq => hgenerated m hm (heq ▸ hn)
    rw [mem_frameworkNames]
    simp [hnot (m := "ref") (by decide), hnot (m := "computed") (by decide),
      hnot (m := "watch") (by decide)]
  refine ⟨?_, ?_, ?_, ?_, fun hook hmem => ?_, ?_, fun n hn => ?_⟩
  · have hnodup := nodup_generatedNames h templateRefs
    rw [generatedNames, List.append_assoc] at hnodup
    exact hnodup.of_append_left
  · rw [mem_frameworkNames, exists_mem_iff_of_forall₂ hcalls.refs]
    simp [hhook (n := "ref") (by decide)]
  · rw [mem_frameworkNames, exists_mem_iff_of_forall₂ hcalls.computed]
    simp [hhook (n := "computed") (by decide)]
  · rw [mem_frameworkNames, exists_mem_iff_of_forall₂ hcalls.watch]
    simp [hhook (n := "watch") (by decide)]
  · rw [hregistered hmem, Tables.hooks_eq_eraseDups h, List.mem_eraseDups, List.mem_filterMap]
  · have hhooks : t.hooks.filter (fun n => n ∈ lifecycleHooks.map (·.2)) = t.hooks :=
      List.filter_eq_self.2 fun n hn => by simpa using mem_hooks h hn
    rw [← Tables.hooks_eq_eraseDups h, frameworkNames]
    simp only [List.filter_append, hhooks]
    have hnone (c : Bool) {name : String} (hname : name ∈ ["ref", "computed", "watch"]) :
        (if c then [] else [name]).filter (fun n => n ∈ lifecycleHooks.map (·.2)) = [] := by
      refine List.filter_eq_nil_iff.2 fun n hn => ?_
      rw [mem_ite_nil] at hn
      simpa [hn.1] using hgenerated name hname
    rw [hnone _ (by decide), hnone _ (by decide), hnone _ (by decide)]
    rfl
  · rw [mem_frameworkNames] at hn
    rcases hn with ⟨rfl, -⟩ | ⟨rfl, -⟩ | ⟨rfl, -⟩ | hn
    · exact .inl (by decide)
    · exact .inl (by decide)
    · exact .inl (by decide)
    · exact .inr (mem_hooks h hn)

theorem firstUses_eq_eraseDups (names : List String) : firstUses names = names.eraseDups := by
  rw [firstUses, foldl_insertNew]
  simp

/-- The template references of the code, by first use, but for those that are state. -/
def ownTemplateRefs (t : Tables) : List String :=
  (templateNames (t.refs.map (·.name)) (writtenUses t)).eraseDups

/-- State and template references are bound once. -/
theorem nodup_refBindings (h : Tables.ofModule source denied items = .ok t) :
    (t.refs.map (·.name) ++ ownTemplateRefs t).Nodup := by
  refine (Tables.nodup_refNames h).append ?_ fun n hstate hn => ?_
  · rw [ownTemplateRefs, ← firstUses_eq_eraseDups]
    exact nodup_firstUses _
  · exact (mem_templateNames.1 (List.mem_eraseDups.1 hn)).1 hstate

end

/-- The generated import lists what the output calls, and is there when it calls anything. The
output binds with `ref` the state and the template references, and each name that the code reaches
through `this.$refs` is among them once. -/
structure ImportsWhatItCalls (framework : String) (t : Tables) (output : Document) : Prop where
  line : ∃ names, ListsUsed t output names ∧
    output.segment .imports = t.imports.map importText ++ if names = [] then [] else
      ["import \x7b " ++ join ", " names ++ " \x7d from " ++ quote framework ++ ";"]
  calls : CallsInPlace t (ownTemplateRefs t) output
  bound : ∀ u ∈ writtenUses t, ∀ n, u.reference = .templateRef n →
    (t.refs.map (·.name) ++ ownTemplateRefs t).count n = 1

theorem convertScript_imports_what_it_calls {source : String} {lang : Lang} {o : Options}
    {c : Converted} (h : convertScript source lang o = .ok c) :
    ∃ t, scriptTables source lang o = .ok t ∧
      let output := document o.framework t (writeParts (Scope.ofTables source.toList t) t)
      c.code = output.render ∧ ImportsWhatItCalls o.framework t output := by
  obtain ⟨t, htables, rfl⟩ := convertScript_eq_ok.1 h
  obtain ⟨items, -, hmodule⟩ := bind_eq_ok.1 htables
  have hmodule := mapError_eq_ok.1 hmodule
  have hnoted : firstUses (writeParts (Scope.ofTables source.toList t) t).templateRefs =
      ownTemplateRefs t := by
    rw [firstUses_eq_eraseDups, (writeParts_settles _ _).noted]
    rfl
  have hcalls := callsInPlace_document hmodule (Scope.ofTables source.toList t) o.framework
  rw [hnoted] at hcalls
  refine ⟨t, htables, rfl, ⟨_, listsUsed_of_callsInPlace hmodule hcalls, ?_⟩, hcalls,
    fun u hu n hname => ?_⟩
  · rw [segment_document, segmentPieces, hnoted, frameworkImport]
    simp only [List.isEmpty_iff]
    split <;> rfl
  · refine List.count_eq_one_of_mem (nodup_refBindings hmodule) ?_
    by_cases hstate : n ∈ t.refs.map (·.name)
    · exact List.mem_append_left _ hstate
    · exact List.mem_append_right _ (List.mem_eraseDups.2
        (mem_templateNames.2 ⟨hstate, u, hu, hname⟩))

/-- Two hooks that are registered with one function, state that is used as a template reference,
and a template reference in the initial value of state. -/
def sharedCallsSource : String :=
  "export default class A \x7b @Ref x = this.$refs.y; destroyed() \x7b this.$refs.x; \x7d " ++
    "unmounted() \x7b\x7d get g() \x7b return this.$refs.y; \x7d @Watch('x') w() \x7b\x7d \x7d"

theorem shared_calls_imported_once :
    ∃ c, convertScript sharedCallsSource .typeScript {} = .ok c ∧
      c.code = "import \x7b ref, computed, watch, onUnmounted \x7d from 'vue';\n\n" ++
        "watch(x, () => \x7b\x7d);\n\nconst x = ref(y.value);\nconst y = ref(null);\n\n" ++
        "const g = computed(() => \x7b\n  return y.value;\n\x7d);\n\n" ++
        "onUnmounted(() => \x7b\n  x.value;\n\x7d);\n\nonUnmounted(() => \x7b\x7d);" ∧
      ∃ t, scriptTables sharedCallsSource .typeScript {} = .ok t ∧
        ImportsWhatItCalls "vue" t
          (document "vue" t (writeParts (Scope.ofTables sharedCallsSource.toList t) t)) := by
  obtain ⟨-, t₀, -, -, htables, hcode⟩ := exists_tables sharedCallsSource .typeScript
    (toList_append_ofList String.toList_ofList)
    (fun cs _ t => untrimmed cs t =
      ("import \x7b ref, computed, watch, onUnmounted \x7d from 'vue';\n\n" ++
        "watch(x, () => \x7b\x7d);\n\nconst x = ref(y.value);\nconst y = ref(null);\n\n" ++
        "const g = computed(() => \x7b\n  return y.value;\n\x7d);\n\n" ++
        "onUnmounted(() => \x7b\n  x.value;\n\x7d);\n\nonUnmounted(() => \x7b\x7d);" ++ "\n", []))
    (by decide +kernel)
  have hc := convertScript_eq_ok.2 ⟨t₀, htables, convertTables_of_untrimmed hcode
    (toList_append_ofList (toList_append_ofList (toList_append_ofList String.toList_ofList)))
    (by decide +kernel)⟩
  obtain ⟨t, ht, -, himports⟩ := convertScript_imports_what_it_calls hc
  exact ⟨_, hc, rfl, t, ht, himports⟩

end ScriptSetup.Setup
