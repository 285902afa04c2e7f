import ScriptSetup.Proofs.Setup.Bindings

/-!
# Names that are declared twice

The names at the top level of the output come from members, from what stands beside the component,
from what is generated, from template references and from bodies that run during set-up. Each of
these declares no name twice, but writing compares only one pair of them: a template reference is
not declared when state has its name. So a source without duplicate declarations can give an output
that declares a name twice, and it does exactly when two of them have a name in common.
-/

set_option autoImplicit false

namespace ScriptSetup.Setup

open Script Component Written Text

/-! ## Names of the source -/

/-- The names that an item of a module declares. -/
def moduleItemNames : ModuleItem → List String
  | .importDecl decl => decl.specifiers.map ImportSpecifier.binds
  | .stmt stmt | .exportDecl _ stmt => bodyNames [stmt]
  | .component _ | .defaultDecl _ | .moduleDecl _ => []

/-- Nothing is declared twice beside the component, and nothing in a body that runs during
set-up. -/
structure DistinctDeclarations (source : List Char) (items : List ModuleItem) : Prop where
  beside : (items.flatMap moduleItemNames).Nodup
  setup : ∀ body ∈ (moduleRoles source items).filterMap Role.setupBody?, (bodyNames body).Nodup

instance (source : List Char) (items : List ModuleItem) :
    Decidable (DistinctDeclarations source items) :=
  decidable_of_iff ((items.flatMap moduleItemNames).Nodup ∧
      ∀ body ∈ (moduleRoles source items).filterMap Role.setupBody?, (bodyNames body).Nodup)
    ⟨fun ⟨beside, setup⟩ => ⟨beside, setup⟩, fun ⟨beside, setup⟩ => ⟨beside, setup⟩⟩

section

variable {source : List Char} {denied : List String} {items : List ModuleItem} {t : Tables}

/-! ## Where names come from -/

/-- The names that an item beside the component declares. -/
def keptItemNames : BodyItem → List String
  | .stmt stmt | .exportDecl _ stmt => bodyNames [stmt]
  | _ => []

/-- The names that imports and code beside the component declare. -/
def keptNames (t : Tables) : List String :=
  t.imports.flatMap (·.specifiers.map ImportSpecifier.binds) ++ t.body.flatMap keptItemNames

/-- The names that bodies declare which run during set-up. -/
def setupBodyNames (t : Tables) : List String :=
  (t.body.filterMap setupBody?).flatMap bodyNames

theorem besideNames_perm (body : List BodyItem) :
    (body.flatMap besideNames).Perm
      (body.flatMap keptItemNames ++ (body.filterMap setupBody?).flatMap bodyNames) := by
  have hsetup : (body.filterMap setupBody?).flatMap bodyNames = body.flatMap setupNames := by
    induction body with
    | nil => rfl
    | cons item body ih =>
      rw [List.flatMap_cons, ← ih]
      cases item <;> rfl
  have hsplit : body.flatMap besideNames =
      body.flatMap fun item => keptItemNames item ++ setupNames item := by
    refine List.flatMap_congr fun item _ => ?_
    cases item <;> simp [besideNames, keptItemNames, setupNames]
  rw [hsetup, hsplit]
  exact (List.flatMap_append_perm _ _ _).symm

theorem bodyNames_perm (t : Tables) :
    (t.body.flatMap fun item => (itemName? t.events item).toList ++ besideNames item).Perm
      (t.body.filterMap (itemName? t.events) ++ (t.body.flatMap keptItemNames
        ++ setupBodyNames t)) := by
  have hnamed : t.body.flatMap (fun item => (itemName? t.events item).toList) =
      t.body.filterMap (itemName? t.events) :=
    (List.filterMap_eq_flatMap_toList ..).symm
  rw [← hnamed]
  exact (List.flatMap_append_perm ..).symm.trans ((besideNames_perm t.body).append_left _)

theorem outputNames_perm (t : Tables) (templateRefs : List String) :
    (outputNames t templateRefs).Perm
      (t.memberNames ++ (keptNames t ++ (generatedNames t templateRefs
        ++ (templateRefs ++ setupBodyNames t)))) := by
  rw [outputNames_eq, Tables.memberNames, keptNames, List.perm_iff_count]
  intro n
  have hbody := (bodyNames_perm t).count_eq n
  simp only [List.count_append] at hbody ⊢
  omega

/-! ### What stands beside the component -/

/-- The imports that are kept. -/
def keptImports (denied : List String) : ModuleItem → List ImportDecl
  | .importDecl decl =>
    if denied.contains (afterLast '/' decl.source.value) then [] else [decl]
  | _ => []

/-- The names that an item of a module declares other than by an import. -/
def moduleStmtNames : ModuleItem → List String
  | .stmt stmt | .exportDecl _ stmt => bodyNames [stmt]
  | .importDecl _ | .component _ | .defaultDecl _ | .moduleDecl _ => []

theorem keptItemNames_place (t : Tables) (r : Role) :
    (t.place r).imports = t.imports ∧
      (t.place r).body.flatMap keptItemNames = t.body.flatMap keptItemNames := by
  refine ⟨(Tables.place_eq t r).1, ?_⟩
  cases r with
  | setupHook f =>
    rw [Tables.place]
    split <;> simp [keptItemNames]
  | _ => simp [Tables.place, Tables.unsupported, keptItemNames]

theorem keptItemNames_foldl_place (t : Tables) (roles : List Role) :
    (roles.foldl Tables.place t).imports = t.imports ∧
      (roles.foldl Tables.place t).body.flatMap keptItemNames =
        t.body.flatMap keptItemNames := by
  induction roles generalizing t with
  | nil => exact ⟨rfl, rfl⟩
  | cons r roles ih =>
    obtain ⟨himports, hnames⟩ := keptItemNames_place t r
    obtain ⟨himports', hnames'⟩ := ih (t.place r)
    exact ⟨himports'.trans himports, hnames'.trans hnames⟩

theorem keptNames_addItem {t t' : Tables} {item : ModuleItem}
    (h : t.addItem source denied item = .ok t') :
    t'.imports = t.imports ++ keptImports denied item ∧
      t'.body.flatMap keptItemNames = t.body.flatMap keptItemNames ++ moduleStmtNames item := by
  cases item with
  | component c =>
    obtain ⟨himports, -, -, -, -, hitems⟩ := Tables.code_eq_iff.1 (Tables.code_addComponent h).2
    obtain ⟨himports', hnames⟩ :=
      keptItemNames_foldl_place t (c.members.map (roleOf source))
    have hbody := (InPlace.mk.inj hitems).1
    rw [himports, hbody, himports', hnames]
    exact ⟨(List.append_nil _).symm, (List.append_nil _).symm⟩
  | importDecl decl =>
    cases h
    rw [Tables.addImport, keptImports]
    split
    · exact ⟨(List.append_nil _).symm, (List.append_nil _).symm⟩
    · exact ⟨rfl, (List.append_nil _).symm⟩
  | _ =>
    cases h
    simp [Tables.unsupported, keptImports, moduleStmtNames, keptItemNames]

theorem keptNames_foldlM {t t' : Tables}
    (h : items.foldlM (Tables.addItem source denied) t = .ok t') :
    t'.imports = t.imports ++ items.flatMap (keptImports denied) ∧
      t'.body.flatMap keptItemNames =
        t.body.flatMap keptItemNames ++ items.flatMap moduleStmtNames := by
  induction items generalizing t with
  | nil =>
    cases h
    exact ⟨(List.append_nil _).symm, (List.append_nil _).symm⟩
  | cons item items ih =>
    obtain ⟨t₁, hitem, h⟩ := bind_eq_ok.1 h
    obtain ⟨himports, hnames⟩ := keptNames_addItem hitem
    obtain ⟨himports', hnames'⟩ := ih h
    rw [himports', himports, hnames', hnames, List.flatMap_cons, List.flatMap_cons,
      List.append_assoc, List.append_assoc]
    exact ⟨rfl, rfl⟩

/-- What is kept beside the component was declared there. -/
theorem nodup_keptNames (h : Tables.ofModule source denied items = .ok t)
    (hdistinct : (items.flatMap moduleItemNames).Nodup) : (keptNames t).Nodup := by
  obtain ⟨himports, hnames⟩ := keptNames_foldlM h
  have hkept : keptNames t = items.flatMap (fun item =>
      (keptImports denied item).flatMap (·.specifiers.map ImportSpecifier.binds))
        ++ items.flatMap moduleStmtNames := by
    rw [keptNames, himports, hnames, ← List.flatMap_assoc]
    rfl
  have hsublist : (items.flatMap fun item =>
      (keptImports denied item).flatMap (·.specifiers.map ImportSpecifier.binds)
        ++ moduleStmtNames item).Sublist (items.flatMap moduleItemNames) := by
    refine List.Sublist.flatMap_right items fun item _ => ?_
    cases item with
    | importDecl decl =>
      rw [keptImports]
      split
      · exact List.nil_sublist _
      · simp [moduleStmtNames, moduleItemNames]
    | _ => exact List.Sublist.refl _
  rw [hkept, (List.flatMap_append_perm ..).nodup_iff]
  exact hdistinct.sublist hsublist

/-! ### What is generated -/

theorem mem_lifecycleHooks {m : Member} {r : Role} (hrole : Becomes m r) {hook : String}
    (h : r.hook? = some hook) : hook ∈ lifecycleHooks.map (·.2) := by
  cases hrole with
  | lifecycle _ _ hhook =>
    cases h
    obtain ⟨before, after, hsplit, -⟩ := List.lookup_eq_some_iff.1 hhook
    rw [hsplit]
    simp
  | setupHook =>
    rw [Role.hook?, Role.item?] at h
    split at h
    · cases h
    · cases h
  | _ => cases h

theorem mem_hooks {hook : String} (h : Tables.ofModule source denied items = .ok t)
    (hhook : hook ∈ t.hooks) : hook ∈ lifecycleHooks.map (·.2) := by
  rw [Tables.hooks_ofModule h, mem_foldl_insertNew, or_iff_right List.not_mem_nil] at hhook
  obtain ⟨m, hm, hname⟩ := mem_filterMap_moduleRoles.1 hhook
  exact mem_lifecycleHooks (becomes_roleOf (Tables.hasRole_ofModule h m hm)) hname

theorem ite_nil_sublist (c : Prop) [Decidable c] (names : List String) :
    (if c then [] else names).Sublist names := by
  split
  · exact List.nil_sublist names
  · exact List.Sublist.refl names

/-- No two functions that are imported and none of the generated constants have one name. -/
theorem nodup_generatedNames (h : Tables.ofModule source denied items = .ok t)
    (templateRefs : List String) : (generatedNames t templateRefs).Nodup := by
  have hhooks : t.hooks.Nodup := by
    rw [Tables.hooks_ofModule h]
    exact nodup_foldl_insertNew _ List.nodup_nil
  have hconstants : ∀ n ∈ ["ref", "computed", "watch", "props", "emit"],
      n ∉ lifecycleHooks.map (·.2) := by decide
  have hnodup : (t.hooks ++ ["ref", "computed", "watch", "props", "emit"]).Nodup :=
    hhooks.append (by decide) fun n hhook hn => hconstants n hn (mem_hooks h hhook)
  have hperm : (["ref"] ++ ["computed"] ++ ["watch"] ++ t.hooks ++ ["props"] ++ ["emit"]).Perm
      (t.hooks ++ ["ref", "computed", "watch", "props", "emit"]) := by
    rw [List.append_assoc, List.append_assoc _ t.hooks]
    exact List.perm_append_comm_assoc _ _ _
  refine (hperm.nodup_iff.2 hnodup).sublist ?_
  rw [generatedNames, frameworkNames]
  exact (((((ite_nil_sublist _ _).append (ite_nil_sublist _ _)).append
    (ite_nil_sublist _ _)).append (List.Sublist.refl _)).append (ite_nil_sublist _ _)).append
      (ite_nil_sublist _ _)

/-! ### All together -/

theorem nodup_firstUses (names : List String) : (firstUses names).Nodup :=
  nodup_foldl_insertNew names List.nodup_nil

theorem mem_firstUses {names : List String} {n : String} : n ∈ firstUses names ↔ n ∈ names := by
  rw [firstUses, mem_foldl_insertNew, or_iff_right List.not_mem_nil]

end

instance decidableDisjoint (as bs : List String) : Decidable (as.Disjoint bs) :=
  decidable_of_iff (∀ n ∈ as, n ∉ bs) List.disjoint_left.symm

/-- No name comes from two places. Between state and template references it never does. -/
structure NamesApart (t : Tables) (templateRefs : List String) : Prop where
  /-- a half of an accessor that raises an event has no other half -/
  events : (t.accessors.map (·.name) ++ t.events.map (·.method)).Nodup
  members : t.memberNames.Disjoint (keptNames t ++ generatedNames t templateRefs)
  kept : (keptNames t).Disjoint (generatedNames t templateRefs)
  references : templateRefs.Disjoint (t.accessors.map (·.name)
    ++ t.body.filterMap (itemName? t.events) ++ keptNames t ++ generatedNames t templateRefs)
  setup : (setupBodyNames t).Disjoint
    (t.memberNames ++ keptNames t ++ generatedNames t templateRefs ++ templateRefs)
  setupBodies : (t.body.filterMap setupBody?).Pairwise fun body body' =>
    (bodyNames body).Disjoint (bodyNames body')

instance (t : Tables) (templateRefs : List String) : Decidable (NamesApart t templateRefs) :=
  decidable_of_iff ((t.accessors.map (·.name) ++ t.events.map (·.method)).Nodup ∧
      t.memberNames.Disjoint (keptNames t ++ generatedNames t templateRefs) ∧
      (keptNames t).Disjoint (generatedNames t templateRefs) ∧
      templateRefs.Disjoint (t.accessors.map (·.name) ++ t.body.filterMap (itemName? t.events)
        ++ keptNames t ++ generatedNames t templateRefs) ∧
      (setupBodyNames t).Disjoint
        (t.memberNames ++ keptNames t ++ generatedNames t templateRefs ++ templateRefs) ∧
      (t.body.filterMap setupBody?).Pairwise fun body body' =>
        (bodyNames body).Disjoint (bodyNames body'))
    ⟨fun ⟨events, members, kept, references, setup, setupBodies⟩ =>
        ⟨events, members, kept, references, setup, setupBodies⟩,
      fun ⟨events, members, kept, references, setup, setupBodies⟩ =>
        ⟨events, members, kept, references, setup, setupBodies⟩⟩

section

variable {source : List Char} {denied : List String} {items : List ModuleItem} {t : Tables}

theorem nodup_setupBodyNames_iff (h : Tables.ofModule source denied items = .ok t)
    (hdistinct : DistinctDeclarations source items) :
    (setupBodyNames t).Nodup ↔ (t.body.filterMap setupBody?).Pairwise fun body body' =>
      (bodyNames body).Disjoint (bodyNames body') := by
  rw [setupBodyNames, List.nodup_flatMap, Tables.setupBodies_ofModule h]
  exact and_iff_right hdistinct.setup

theorem nodup_outputNames_iff (h : Tables.ofModule source denied items = .ok t)
    (hdeclarations : DistinctDeclarations source items)
    (hmembers : DistinctMembers (moduleMembers items)) {templateRefs : List String}
    (hnodup : templateRefs.Nodup) (hstate : ∀ n ∈ templateRefs, n ∉ t.refs.map (·.name)) :
    (outputNames t templateRefs).Nodup ↔ NamesApart t templateRefs := by
  have hkept := nodup_keptNames h hdeclarations.beside
  have hgenerated := nodup_generatedNames h templateRefs
  have href : (t.refs.map (·.name)).Disjoint templateRefs := fun n hn hn' => hstate n hn' hn
  have hmemberRefs : t.memberNames.Disjoint templateRefs ↔ templateRefs.Disjoint
      (t.accessors.map (·.name) ++ t.body.filterMap (itemName? t.events)) := by
    rw [Tables.memberNames, List.append_assoc, List.disjoint_append_left, and_iff_right href,
      List.disjoint_comm]
  rw [(outputNames_perm t templateRefs).nodup_iff]
  constructor
  · intro hall
    obtain ⟨hm, hrest, hmApart⟩ := List.nodup_append'.1 hall
    obtain ⟨-, hrest, hkApart⟩ := List.nodup_append'.1 hrest
    obtain ⟨-, hrest, hgApart⟩ := List.nodup_append'.1 hrest
    obtain ⟨-, hs, hrApart⟩ := List.nodup_append'.1 hrest
    simp only [List.disjoint_append_right] at hmApart hkApart hgApart
    obtain ⟨hmk, hmg, hmr, hms⟩ := hmApart
    obtain ⟨hkg, hkr, hks⟩ := hkApart
    obtain ⟨hgr, hgs⟩ := hgApart
    refine ⟨(Tables.nodup_memberNames_iff h hmembers).1 hm, ?_, hkg, ?_, ?_,
      (nodup_setupBodyNames_iff h hdeclarations).1 hs⟩
    · exact List.disjoint_append_right.2 ⟨hmk, hmg⟩
    · rw [List.disjoint_append_right, List.disjoint_append_right]
      exact ⟨⟨hmemberRefs.1 hmr, List.disjoint_symm hkr⟩, List.disjoint_symm hgr⟩
    · simp only [List.disjoint_append_right]
      exact ⟨⟨⟨List.disjoint_symm hms, List.disjoint_symm hks⟩, List.disjoint_symm hgs⟩,
        List.disjoint_symm hrApart⟩
  · rintro ⟨hevents, hmApart, hkg, hrApart, hsApart, hbodies⟩
    obtain ⟨hmk, hmg⟩ := List.disjoint_append_right.1 hmApart
    rw [List.disjoint_append_right, List.disjoint_append_right] at hrApart
    obtain ⟨⟨hrm, hrk⟩, hrg⟩ := hrApart
    simp only [List.disjoint_append_right] at hsApart
    obtain ⟨⟨⟨hsm, hsk⟩, hsg⟩, hsr⟩ := hsApart
    have hm := (Tables.nodup_memberNames_iff h hmembers).2 hevents
    have hs := (nodup_setupBodyNames_iff h hdeclarations).2 hbodies
    have hr := hnodup.append hs (List.disjoint_symm hsr)
    have hg := hgenerated.append hr
      (List.disjoint_append_right.2 ⟨List.disjoint_symm hrg, List.disjoint_symm hsg⟩)
    have hk := hkept.append hg (by
      simp only [List.disjoint_append_right]
      exact ⟨hkg, List.disjoint_symm hrk, List.disjoint_symm hsk⟩)
    refine hm.append hk ?_
    simp only [List.disjoint_append_right]
    exact ⟨hmk, hmg, hmemberRefs.2 hrm, List.disjoint_symm hsm⟩

end

/-! ## When names are declared once -/

/-- Each piece of the output binds known names. Where the source declares no name twice and the
members have different names, the output declares no name twice exactly when no name comes from
two places. -/
theorem convertScript_declares_once_iff {source : String} {lang : Lang} {o : Options}
    {c : Converted} (h : convertScript source lang o = .ok c) :
    ∃ items t, parseModule lang source = .ok items ∧
      Tables.ofModule source.toList o.denied items = .ok t ∧
      let s := Scope.ofTables source.toList t
      let written := writeParts s t
      let templateRefs := firstUses written.templateRefs
      let output := document o.framework t written
      c.code = output.render ∧
      (∀ seg, List.Forall₂ (Binds s t.hooks) (segmentNames t templateRefs seg)
        (output.segment seg)) ∧
      (DistinctDeclarations source.toList items → DistinctMembers (moduleMembers items) →
        ((outputNames t templateRefs).Nodup ↔ NamesApart t templateRefs)) := by
  obtain ⟨items, t, hitems, htables, rfl⟩ := convertScript_eq_ok_iff.1 h
  refine ⟨items, t, hitems, htables, rfl, fun seg => ?_,
    fun hdeclarations hmembers => ?_⟩
  · exact binds_document htables _ o.framework seg
  · refine nodup_outputNames_iff htables hdeclarations hmembers (nodup_firstUses _) fun n hn => ?_
    exact writeParts_notesNoState (Scope.ofTables source.toList t) t n (mem_firstUses.1 hn)

/-- A component that gives names to the output from every place, and none twice. -/
def distinctNamesSource : String :=
  "import x from 'x'; const y = 1; @Component export default class A \x7b @Ref a; b; " ++
    "get c() \x7b return this.$refs.d \x7d set c(v) \x7b\x7d @Prop e; @Emit f() \x7b\x7d " ++
    "@Watch('a') g() \x7b this.$refs.a \x7d beforeCreate() \x7b var h \x7d " ++
    "created() \x7b let i \x7d mounted() \x7b\x7d \x7d"

theorem distinct_names_declared_once :
    ∃ t, scriptTables distinctNamesSource .javaScript {} = .ok t ∧
      let names := outputNames t (firstUses
        (writeParts (Scope.ofTables distinctNamesSource.toList t) t).templateRefs)
      names = ["x", "ref", "computed", "watch", "onMounted", "props", "emit", "a", "d", "c", "y",
        "b", "f", "h", "i"] ∧ names.Nodup := by
  obtain ⟨items, t, hitems, ht, htables, hdeclarations, hmembers, hapart, hnames⟩ :=
    exists_tables distinctNamesSource .javaScript
      (toList_append_ofList (toList_append_ofList (toList_append_ofList String.toList_ofList)))
      (fun cs items t =>
        let templateRefs := firstUses (writeParts (Scope.ofTables cs t) t).templateRefs
        DistinctDeclarations cs items ∧ DistinctMembers (moduleMembers items) ∧
        NamesApart t templateRefs ∧
        outputNames t templateRefs = ["x", "ref", "computed", "watch", "onMounted", "props", "emit",
          "a", "d", "c", "y", "b", "f", "h", "i"])
      (by decide +kernel)
  obtain ⟨items', t', hitems', ht', -, -, hiff⟩ :=
    convertScript_declares_once_iff (convertScript_eq_ok.2 ⟨t, htables, rfl⟩)
  cases hitems.symm.trans hitems'
  cases ht.symm.trans ht'
  exact ⟨t, htables, hnames, (hiff hdeclarations hmembers).2 hapart⟩

/-- A component with a field that a template reference has the name of. -/
def sharedNameSource : String :=
  "@Component export default class A \x7b input; " ++
    "focus() \x7b this.$refs.input.focus(); \x7d \x7d"

/-- The field and the template reference are both declared, and nothing is reported. -/
theorem template_reference_declared_beside_field :
    convertScript sharedNameSource .javaScript {} = .ok
      ⟨"import \x7b ref \x7d from 'vue';\n\nconst input = ref(null);\n\nlet input;\n\n" ++
        "function focus() \x7b\n  input.value.focus();\n\x7d", []⟩ ∧
    ∃ items t, parseModule .javaScript sharedNameSource = .ok items ∧
      Tables.ofModule sharedNameSource.toList ({} : Options).denied items = .ok t ∧
      DistinctDeclarations sharedNameSource.toList items ∧
      DistinctMembers (moduleMembers items) ∧
      ¬ (outputNames t (firstUses
        (writeParts (Scope.ofTables sharedNameSource.toList t) t).templateRefs)).Nodup := by
  obtain ⟨items, t, hitems, ht, htables, hconverted, hdeclarations, hmembers, htwice⟩ :=
    exists_tables sharedNameSource .javaScript (toList_append_ofList String.toList_ofList)
      (fun cs items t => convertTables cs "vue" t =
        ⟨"import \x7b ref \x7d from 'vue';\n\nconst input = ref(null);\n\nlet input;\n\n" ++
          "function focus() \x7b\n  input.value.focus();\n\x7d", []⟩ ∧
        DistinctDeclarations cs items ∧ DistinctMembers (moduleMembers items) ∧
        ¬ (outputNames t (firstUses (writeParts (Scope.ofTables cs t) t).templateRefs)).Nodup)
      (by decide +kernel)
  exact ⟨convertScript_eq_ok.2 ⟨t, htables, hconverted⟩, items, t, hitems, ht, hdeclarations,
    hmembers, htwice⟩

end ScriptSetup.Setup
