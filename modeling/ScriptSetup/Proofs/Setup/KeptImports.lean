import ScriptSetup.Proofs.Component.TableFindings
import ScriptSetup.Proofs.Script.ImportSpelling
import ScriptSetup.Proofs.Setup.Collisions
import ScriptSetup.Proofs.Setup.MemberOrder
import ScriptSetup.Proofs.Setup.PartDrafts

/-!
# Imports that are kept and dropped

An import is dropped when the last segment of its source is denied: a hint says so, and the output
is what it would be without the import. The others are written in order, before that of the
framework. Their text is read back as the import it was written for, unless it is an empty import of
types, has attributes, or has a line end in one of its strings.
-/

set_option autoImplicit false

namespace ScriptSetup.Setup

open Script Component Component.Tables Text

/-! ## Denied sources -/

/-- The segment is what stands after the last slash of the path. -/
def IsLastSegment (path segment : String) : Prop :=
  '/' ∉ segment.toList ∧ (path = segment ∨ ∃ before, path = before ++ "/" ++ segment)

theorem isLastSegment_afterLast (path : String) : IsLastSegment path (afterLast '/' path) := by
  have hsplit := List.takeWhile_append_dropWhile (p := (· != '/')) (l := path.toList.reverse)
  constructor
  · intro hmem
    rw [afterLast, String.toList_ofList, List.mem_reverse] at hmem
    simpa using List.all_eq_true.1 List.all_takeWhile _ hmem
  · cases hrest : path.toList.reverse.dropWhile (· != '/') with
    | nil =>
      left
      rw [hrest, List.append_nil] at hsplit
      rw [afterLast, hsplit, List.reverse_reverse, String.ofList_toList]
    | cons c before =>
      right
      have hc : c = '/' := by
        have := List.head_dropWhile_not (· != '/') (l := path.toList.reverse) (by simp [hrest])
        simpa [hrest] using this
      subst hc
      refine ⟨String.ofList before.reverse, String.toList_inj.1 ?_⟩
      rw [hrest, ← List.reverse_inj, List.reverse_reverse] at hsplit
      simpa [afterLast] using hsplit.symm

section

variable {denied : List String} {items : List ModuleItem} {d : ImportDecl}

theorem mem_keptImports : d ∈ items.flatMap (keptImports denied) ↔
    .importDecl d ∈ items ∧ afterLast '/' d.source.value ∉ denied := by
  rw [List.mem_flatMap]
  constructor
  · rintro ⟨item, hitem, hd⟩
    cases item with
    | importDecl d' =>
      rw [keptImports] at hd
      split at hd
      · cases hd
      · next hkept =>
        obtain rfl := List.mem_singleton.1 hd
        exact ⟨hitem, by simpa using hkept⟩
    | _ => cases hd
  · rintro ⟨hitem, hkept⟩
    exact ⟨_, hitem, by simp [keptImports, hkept]⟩

theorem mem_droppedImports : d ∈ items.flatMap (droppedImports denied) ↔
    .importDecl d ∈ items ∧ afterLast '/' d.source.value ∈ denied := by
  rw [List.mem_flatMap]
  constructor
  · rintro ⟨item, hitem, hd⟩
    cases item with
    | importDecl d' =>
      rw [droppedImports] at hd
      split at hd
      · next hdropped =>
        obtain rfl := List.mem_singleton.1 hd
        exact ⟨hitem, by simpa using hdropped⟩
      · cases hd
    | _ => cases hd
  · rintro ⟨hitem, hdropped⟩
    exact ⟨_, hitem, by simp [droppedImports, hdropped]⟩

end

/-! ## Modules without what is dropped -/

/-- The module without the imports that are dropped. -/
def withoutDropped (denied : List String) (items : List ModuleItem) : List ModuleItem :=
  items.filter fun item => (droppedImports denied item).isEmpty

variable {source : List Char} {denied : List String}

/-- A dropped import changes nothing but what is reported. -/
theorem code_addItem_dropped {t t' : Tables} {item : ModuleItem}
    (h : t.addItem source denied item = .ok t') (hdropped : droppedImports denied item ≠ []) :
    t'.code = t.code := by
  cases item with
  | importDecl d =>
    cases h
    rw [addImport]
    split
    · rfl
    · next hkept => exact absurd (if_neg hkept) hdropped
  | _ => exact absurd rfl hdropped

/-- The tables are those of the module without what is dropped. -/
theorem foldlM_withoutDropped {items : List ModuleItem} {t t' : Tables}
    (h : items.foldlM (addItem source denied) t = .ok t') :
    ∃ u', (withoutDropped denied items).foldlM (addItem source denied) t = .ok u' ∧
      u'.code = t'.code := by
  induction items generalizing t with
  | nil => exact ⟨t', h, rfl⟩
  | cons item items ih =>
    obtain ⟨t₁, hitem, h⟩ := bind_eq_ok.1 h
    obtain ⟨u₁, hu₁, hcode₁⟩ := ih h
    rw [withoutDropped, List.filter_cons]
    split
    · exact ⟨u₁, bind_eq_ok.2 ⟨t₁, hitem, hu₁⟩, hcode₁⟩
    · next hdropped =>
      have hcode := code_addItem_dropped hitem (by simpa using hdropped)
      obtain ⟨u', hu', hcode'⟩ := foldlM_addItem_congr hcode hu₁
      exact ⟨u', hu', hcode'.trans hcode₁⟩

/-! ## Hints -/

/-- The findings that only inform. -/
def hints (fs : List Finding) : List Finding := fs.filter fun f => f.severity == .hint

theorem hints_tables {items : List ModuleItem} {t : Tables}
    (h : ofModule source denied items = .ok t) :
    hints t.findings = (items.flatMap (droppedImports denied)).map droppedFinding := by
  have himports : hints t.findings = hints (importFindings t.findings) := by
    rw [hints, hints, importFindings, List.filter_filter]
    refine List.filter_congr fun f _ => ?_
    rcases f with ⟨cause, span⟩
    cases cause <;> rfl
  rw [himports, importFindings_ofModule h]
  refine List.filter_eq_self.2 fun f hf => ?_
  obtain ⟨d, -, rfl⟩ := List.mem_map.1 hf
  rfl

theorem hints_written {α : Type} {w : Written α} (h : CausedBy isWritingCause w) :
    hints w.findings = [] := by
  refine List.filter_eq_nil_iff.2 fun f hf => ?_
  have hcause := h f hf
  rcases f with ⟨cause, span⟩
  cases cause with
  | removedImport => cases hcause
  | _ => exact Bool.false_ne_true

theorem hints_convertTables {items : List ModuleItem} {t : Tables}
    (h : ofModule source denied items = .ok t) (framework : String) :
    (hints (convertTables source framework t).findings).Perm
      ((items.flatMap (droppedImports denied)).map droppedFinding) := by
  rw [← hints_tables h]
  refine ((List.mergeSort_perm _ _).filter _).trans (.of_eq ?_)
  rw [List.filter_append]
  exact (congrArg _ (hints_written (writeParts_caused _ t))).trans (List.append_nil _)

/-! ## The imports of the output -/

/-- What the output has for the imports of a module. -/
structure WritesImports (source : String) (lang : Lang) (o : Options) (items : List ModuleItem)
    (t : Tables) (w : Written Parts) (c : Converted) : Prop where
  /-- an import is kept or dropped by the last segment of its source -/
  sources : ∀ d, .importDecl d ∈ items → ∃ segment, IsLastSegment d.source.value segment ∧
    (d ∈ items.flatMap (keptImports o.denied) ↔ segment ∉ o.denied) ∧
    (d ∈ items.flatMap (droppedImports o.denied) ↔ segment ∈ o.denied)
  /-- those that are kept are written in their order, and then that of the framework -/
  segment : (document o.framework t w).segment .imports =
    (items.flatMap (keptImports o.denied)).map importText ++
      (frameworkImport o.framework (frameworkNames t (firstUses w.templateRefs))).toList
  /-- each that is dropped has one hint, and there are no others -/
  hints : (hints c.findings).Perm ((items.flatMap (droppedImports o.denied)).map droppedFinding)
  /-- the output is that of the module without what is dropped -/
  dropped : ∃ t', ofModule source.toList o.denied (withoutDropped o.denied items) = .ok t' ∧
    (convertTables source.toList o.framework t').code = c.code
  /-- which of those that are kept are read back from their text -/
  faithful : ∀ d ∈ items.flatMap (keptImports o.denied),
    (∃ d', parseModule lang (importText d) = .ok [.importDecl d'] ∧ SameImport d' d) ↔ Faithful d

/-- Imports are written or reported. -/
theorem convertScript_writes_imports {source : String} {lang : Lang} {o : Options} {c : Converted}
    (h : convertScript source lang o = .ok c) :
    ∃ items t, parseModule lang source = .ok items ∧
      ofModule source.toList o.denied items = .ok t ∧
      let w := writeParts (Scope.ofTables source.toList t) t
      c.code = (document o.framework t w).render ∧ WritesImports source lang o items t w c := by
  obtain ⟨items, t, hitems, htables, rfl⟩ := convertScript_eq_ok_iff.1 h
  refine ⟨items, t, hitems, htables, rfl, ?_⟩
  constructor
  · intro d hd
    refine ⟨_, isLastSegment_afterLast d.source.value, ?_, ?_⟩
    · rw [mem_keptImports, and_iff_right hd]
    · rw [mem_droppedImports, and_iff_right hd]
  · have himports : t.imports = [] ++ items.flatMap (keptImports o.denied) :=
      (keptNames_foldlM htables).1
    rw [segment_document, segmentPieces, himports, List.nil_append]
  · exact hints_convertTables htables o.framework
  · obtain ⟨t', ht', hcode⟩ := foldlM_withoutDropped htables
    exact ⟨t', ht', code_convertTables_congr hcode⟩
  · intro d hd
    exact importText_faithful_iff (parseModule_imports hitems (mem_keptImports.1 hd).1)

/-- A module with imports of every kind, one of them denied, around its component. -/
def importsSource : String :=
  "import A, \x7b b as c, type D, 'e f' as g \x7d from \"./x\"; import V from 'l/VueBase.vue'; " ++
    "@Component export default class extends V \x7b\x7d import type * as t from 'y'; import 'z';"

theorem imports_written_and_read_back :
    ∃ c items t, convertScript importsSource .typeScript {} = .ok c ∧
      parseModule .typeScript importsSource = .ok items ∧
      ofModule importsSource.toList ({} : Options).denied items = .ok t ∧
      WritesImports importsSource .typeScript {} items t
        (writeParts (Scope.ofTables importsSource.toList t) t) c ∧
      c = ⟨"import A, \x7b b as c, type D, 'e f' as g \x7d from './x';\n" ++
        "import type * as t from 'y';\nimport 'z';", [⟨.removedImport "l/VueBase.vue", ⟨53, 83⟩⟩]⟩ ∧
      ∀ d ∈ items.flatMap (keptImports ({} : Options).denied),
        ∃ d', parseModule .typeScript (importText d) = .ok [.importDecl d'] ∧ SameImport d' d := by
  obtain ⟨items, t, hitems, ht, htables, hcode, hfaithful⟩ :=
    exists_tables importsSource .typeScript (toList_append_ofList String.toList_ofList)
      (fun cs items t => convertTables cs "vue" t =
        ⟨"import A, \x7b b as c, type D, 'e f' as g \x7d from './x';\n" ++
          "import type * as t from 'y';\nimport 'z';",
          [⟨.removedImport "l/VueBase.vue", ⟨53, 83⟩⟩]⟩ ∧
        ∀ d ∈ items.flatMap (keptImports ({} : Options).denied), Faithful d)
      (by decide +kernel)
  have hc := convertScript_eq_ok.2 ⟨t, htables, hcode⟩
  obtain ⟨items', t', hitems', ht', -, himports⟩ := convertScript_writes_imports hc
  cases hitems.symm.trans hitems'
  cases ht.symm.trans ht'
  exact ⟨_, items, t, hc, hitems, ht, himports, rfl, fun d hd =>
    (himports.faithful d hd).2 (hfaithful d hd)⟩

/-- An import of types that names none. -/
def emptyTypeImportSource : String := "import type \x7b\x7d from 'x';"

/-- The module is one import that does not come back. -/
def isLostImport : List ModuleItem → Bool
  | [.importDecl d] => !decide (Faithful d)
  | _ => false

/-- It is written as an import of the module itself. -/
theorem empty_type_import_lost :
    convertScript emptyTypeImportSource .typeScript {} = .ok ⟨"import 'x';", []⟩ ∧
    ∃ d, parseModule .typeScript emptyTypeImportSource = .ok [.importDecl d] ∧
      ∀ d', parseModule .typeScript (importText d) = .ok [.importDecl d'] → ¬ SameImport d' d := by
  obtain ⟨items, t, hitems, -, htables, hcode, hlost⟩ :=
    exists_tables emptyTypeImportSource .typeScript String.toList_ofList
      (fun cs items t => convertTables cs "vue" t = ⟨"import 'x';", []⟩ ∧
        isLostImport items = true)
      (by decide +kernel)
  refine ⟨convertScript_eq_ok.2 ⟨t, htables, hcode⟩, ?_⟩
  rw [isLostImport.eq_def] at hlost
  split at hlost
  · next d =>
    refine ⟨d, hitems, fun d' hd' hsame => ?_⟩
    have hfits := parseModule_imports hitems List.mem_cons_self
    rw [(importText_faithful_iff hfits).1 ⟨d', hd', hsame⟩ |> decide_eq_true] at hlost
    cases hlost
  · cases hlost

end ScriptSetup.Setup
