import ScriptSetup.Proofs.Component.TableNodes
import ScriptSetup.Proofs.Script.ModuleReaders
import ScriptSetup.Proofs.Script.UnionReading
import ScriptSetup.Proofs.Setup.DocumentLayout

/-!
# The types of inputs with constructors

An input without an annotation takes its type from the constructors in its decorator. They are
written as a union, which is read back as the types of the constructors, one by one and in order,
exactly when there is a constructor, none has the name of an operator of types, and `Function` has
none beside it.
-/

set_option autoImplicit false

namespace ScriptSetup.Component

open Script

variable {names : List String}

/-! ## Names of constructors -/

/-- A name in the code is this word. -/
def NamedIn (nodes : List Node) (w : String) : Prop :=
  ∃ id : Ident, id.name = w ∧ .expr (.ident id) ∈ nodes

theorem NamedIn.mono {nodes nodes' : List Node} {w : String} (h : NamedIn nodes w)
    (hsubset : nodes ⊆ nodes') : NamedIn nodes' w := by
  obtain ⟨id, hid, hmem⟩ := h
  exact ⟨id, hid, hsubset hmem⟩

theorem exprName?_namedIn {e : Expr} {w : String} (h : exprName? e = some w) :
    NamedIn (exprNodes e) w := by
  unfold exprName? at h
  split at h
  · next id =>
    cases h
    refine ⟨id, rfl, ?_⟩
    rw [exprNodes]
    exact List.mem_singleton_self _
  · cases h

theorem mapM_exprName?_namedIn {es : List Expr} (h : es.mapM exprName? = some names) :
    ∀ w ∈ names, NamedIn (exprsNodes es) w := by
  induction es generalizing names with
  | nil =>
    cases h
    nofun
  | cons e es ih =>
    rw [List.mapM_cons] at h
    obtain ⟨name, hname, h⟩ := Option.bind_eq_some_iff.1 h
    obtain ⟨rest, hrest, h⟩ := Option.bind_eq_some_iff.1 h
    cases h
    intro w hw
    rcases List.mem_cons.1 hw with rfl | hw
    · exact (exprName?_namedIn hname).mono (List.subset_append_left ..)
    · exact (ih hrest w hw).mono (List.subset_append_right ..)

theorem constructors?_namedIn {e : Expr} (h : constructors? e = some names) :
    ∀ w ∈ names, NamedIn (exprNodes e) w := by
  unfold constructors? at h
  split at h
  · next id =>
    cases h
    intro w hw
    rw [List.mem_singleton.1 hw]
    exact exprName?_namedIn (e := .ident id) rfl
  · next span es =>
    intro w hw
    exact (mapM_exprName?_namedIn h w hw).mono (List.subset_cons_of_subset _ (List.Subset.refl _))
  · cases h

/-- The constructors that options give are names in the code. -/
theorem inputOptions_namedIn {args : List Expr} {o : InputOptions} (h : inputOptions args = .ok o)
    (hnames : o.constructors = some names) : ∀ w ∈ names, NamedIn (exprsNodes args) w := by
  intro w hw
  obtain ⟨span, props, rest, rfl, hread⟩ | ⟨-, hconstructors⟩ := inputOptions_eq_ok h
  · obtain hempty | ⟨key, e, hmem, hcs⟩ := hread.constructors names hnames
    · cases hempty
    · exact (constructors?_namedIn hcs w hw).mono (valueNodes_subset hmem)
  · obtain ⟨e, rest, rfl, hcs⟩ := hconstructors names hnames
    exact (constructors?_namedIn hcs w hw).mono (List.subset_append_left ..)

theorem inputType_eq_constructors {type : Option TypeText} {constructors : Option (List String)} :
    inputType type constructors = .constructors names ↔
      type = none ∧ constructors = some names := by
  cases type with
  | some t => simp [inputType]
  | none => cases constructors <;> simp [inputType]

/-- The constructors of an input are names in its field. -/
theorem Becomes.constructors_namedIn {m : Member} {i : Input} (h : Becomes m (.input i))
    (hnames : i.type = .constructors names) : ∀ w ∈ names, NamedIn (memberNodes m) w := by
  cases h with
  | input hkey hfirst hargs =>
    intro w hw
    have hargument := inputOptions_namedIn hargs (inputType_eq_constructors.1 hnames).2
    refine ((hargument w hw).mono hfirst.nodes).mono ?_
    simp only [memberNodes, List.append_assoc]
    exact List.subset_append_left ..

namespace Tables

section

variable {source : List Char} {denied : List String} {items : List ModuleItem} {t : Tables}

theorem inputs_view : RoleView (·.inputs) placeInput where
  code _ := rfl
  imports _ _ := rfl
  item _ _ _ := rfl
  place {t} _ r := (place_eq t r).2.2.1

theorem inputs_ofModule (h : ofModule source denied items = .ok t) :
    t.inputs = (moduleRoles source items).foldl placeInput [] :=
  inputs_view.ofModule h

theorem mem_foldl_placeInput {roles : List Role} {inputs : List Input} {i : Input}
    (h : i ∈ roles.foldl placeInput inputs) : i ∈ inputs ∨ .input i ∈ roles := by
  induction roles generalizing inputs with
  | nil => exact .inl h
  | cons r roles ih =>
    rcases ih h with hi | hi
    · cases r with
      | input j =>
        rcases mem_upsert hi with hi | rfl
        · exact .inl hi
        · exact .inr List.mem_cons_self
      | _ => exact .inl hi
    · exact .inr (List.mem_cons_of_mem _ hi)

/-- An input has a member that it comes from. -/
theorem exists_member_of_input (h : ofModule source denied items = .ok t) {i : Input}
    (hi : i ∈ t.inputs) : ∃ m ∈ moduleMembers items, Becomes m (.input i) := by
  rw [inputs_ofModule h] at hi
  rcases mem_foldl_placeInput hi with hi | hi
  · cases hi
  · obtain ⟨m, hm, hrole⟩ := List.mem_map.1 hi
    exact ⟨m, hm, hrole ▸ becomes_roleOf (hasRole_ofModule h m hm)⟩

theorem memberNodes_subset {m : Member} (hm : m ∈ moduleMembers items) :
    memberNodes m ⊆ moduleNodes items := by
  obtain ⟨item, hitem, hm⟩ := List.mem_flatMap.1 hm
  intro n hn
  refine List.mem_flatMap.2 ⟨item, hitem, ?_⟩
  cases item with
  | component c => exact List.mem_append_right _ (List.mem_flatMap.2 ⟨m, hm, hn⟩)
  | _ => cases hm

/-- The constructors of an input are words that can be names. -/
theorem freeWord_of_constructors {lang : Lang} {text : String}
    (hitems : parseModule lang text = .ok items) (h : ofModule source denied items = .ok t)
    {i : Input} (hi : i ∈ t.inputs) {names : List String} (hnames : i.type = .constructors names) :
    ∀ w ∈ names, FreeWord w := by
  intro w hw
  obtain ⟨m, hm, hbecomes⟩ := exists_member_of_input h hi
  obtain ⟨id, rfl, hid⟩ := hbecomes.constructors_namedIn hnames w hw
  have hfree : id.IsFree := parseModule_wellFormed hitems _ (memberNodes_subset hm hid)
  exact hfree.out

end

end Tables

end ScriptSetup.Component

namespace ScriptSetup.Setup

open Script Script.Parse Component Component.Tables Written Text

variable {name : String} {names : List String}

/-! ## Unions -/

/-- The alternative that a constructor stands for. -/
def alternative (name : String) : Alternative :=
  if name = "Array" then .list else if name = "Function" then .function
  else .word (constructorType name)

theorem text_alternative (name : String) : (alternative name).text = constructorType name := by
  unfold alternative
  split
  · next h => rw [h]; rfl
  · split
    · next h => rw [h]; rfl
    · rfl

theorem constructorType_freeWord (h : FreeWord name) (harray : name ≠ "Array")
    (hfunction : name ≠ "Function") : FreeWord (constructorType name) := by
  unfold constructorType
  split
  case h_4 => exact absurd rfl harray
  case h_7 => exact absurd rfl hfunction
  case h_8 => exact h
  all_goals exact ⟨by decide, by decide, by decide⟩

theorem constructorType_mem_typeOperators :
    constructorType name ∈ Alternative.typeOperators ↔ name ∈ Alternative.typeOperators := by
  unfold constructorType
  split
  case h_8 => exact Iff.rfl
  all_goals decide

theorem alternative_isFree (h : FreeWord name) : (alternative name).IsFree := by
  unfold alternative
  split
  · trivial
  · next harray =>
    split
    · trivial
    · next hfunction => exact constructorType_freeWord h harray hfunction

theorem alternative_eq_function : alternative name = .function ↔ name = "Function" := by
  unfold alternative
  split
  · next h => simp [h]
  · split
    · next h => simp [h]
    · next h => simp [h]

/-- The constructors whose types are operators of types are those of that name. -/
theorem forall_word_alternative :
    (∀ w, .word w ∈ names.map alternative → w ∉ Alternative.typeOperators) ↔
      ∀ name ∈ names, name ∉ Alternative.typeOperators := by
  constructor
  · intro h name hname hoperator
    have hword : alternative name = .word (constructorType name) := by
      unfold alternative
      split
      · next harray =>
        rw [harray] at hoperator
        exact absurd hoperator (by decide)
      · split
        · next hfunction =>
          rw [hfunction] at hoperator
          exact absurd hoperator (by decide)
        · rfl
    refine h (constructorType name) (List.mem_map.2 ⟨name, hname, hword⟩) ?_
    exact constructorType_mem_typeOperators.2 hoperator
  · intro h w hw hoperator
    obtain ⟨name, hname, hword⟩ := List.mem_map.1 hw
    have htext : constructorType name = w := by
      rw [← text_alternative, hword]
      rfl
    rw [← htext] at hoperator
    exact h name hname (constructorType_mem_typeOperators.1 hoperator)

/-- The type that constructors are written as is the union of their types exactly when it can be. -/
theorem readsAsUnion_constructors (h : ∀ w ∈ names, FreeWord w) (after : List Char) :
    ReadsAsUnion (join " | " (names.map constructorType)).toList (',' :: after)
        (names.map constructorType) ↔
      names ≠ [] ∧ (∀ w ∈ names, w ∉ Alternative.typeOperators) ∧
        ("Function" ∈ names → names.length = 1) := by
  have htexts : (names.map alternative).map (·.text) = names.map constructorType := by
    rw [List.map_map]
    exact List.map_congr_left fun name _ => text_alternative name
  have hfree : ∀ a ∈ names.map alternative, a.IsFree := by
    intro a ha
    obtain ⟨name, hname, rfl⟩ := List.mem_map.1 ha
    exact alternative_isFree (h name hname)
  have hfunction : .function ∈ names.map alternative ↔ "Function" ∈ names := by
    simp [List.mem_map, alternative_eq_function]
  have hiff := readsAsUnion_iff hfree after
  rw [unionText, htexts, forall_word_alternative, hfunction, List.length_map, Ne,
    List.map_eq_nil_iff] at hiff
  exact hiff

/-! ## The interface of the inputs -/

/-- The entry of an input with this type. -/
def typedEntry (i : Input) (type : String) : String :=
  pad 1 ++ i.name ++ (if i.required then "" else "?") ++ ": " ++ type ++ ","

/-- What the output has for the inputs of a component. -/
structure WritesInputs (s : Scope) (t : Tables) (output : Document) : Prop where
  /-- the interface has an entry for each input, in order -/
  interface : t.inputs ≠ [] → ∃ declaration, output.segment .inputs =
    [join "\n" ("interface Props \x7b" :: t.inputs.map (inputEntry s) ++ ["\x7d"]), declaration]
  /-- the type of an input with constructors is the union of their types where it can be -/
  unions : ∀ i ∈ t.inputs, ∀ names, i.type = .constructors names →
    let type := join " | " (names.map constructorType)
    inputEntry s i = typedEntry i type ∧
    ∀ after, ReadsAsUnion type.toList (',' :: after) (names.map constructorType) ↔
      names ≠ [] ∧ (∀ w ∈ names, w ∉ Alternative.typeOperators) ∧
        ("Function" ∈ names → names.length = 1)

theorem writesInputs_document (s : Scope) {t : Tables} (framework : String)
    (h : ∀ i ∈ t.inputs, ∀ names, i.type = .constructors names → ∀ w ∈ names, FreeWord w) :
    WritesInputs s t (document framework t (writeParts s t)) where
  interface hinputs := by
    have hpieces : segmentPieces framework t (writeParts s t) .inputs =
        (inputDeclarations s t.inputs).value := rfl
    rw [segment_document, hpieces, inputDeclarations, if_neg (by simpa using hinputs)]
    exact ⟨_, rfl⟩
  unions i hi names hnames := by
    refine ⟨?_, fun after => readsAsUnion_constructors (h i hi names hnames) after⟩
    rw [inputEntry, typedEntry, hnames, inputTypeText]

/-- Each input whose field has no annotation is written with the types of its constructors. -/
theorem convertScript_writes_unions {source : String} {lang : Lang} {o : Options} {c : Converted}
    (h : convertScript source lang o = .ok c) :
    ∃ items t, parseModule lang source = .ok items ∧
      ofModule source.toList o.denied items = .ok t ∧
      let s := Scope.ofTables source.toList t
      let output := document o.framework t (writeParts s t)
      let roles := moduleRoles source.toList items
      c.code = output.render ∧ List.Forall₂ Becomes (moduleMembers items) roles ∧
      t.inputs = roles.foldl placeInput [] ∧ WritesInputs s t output := by
  obtain ⟨items, t, hitems, htables, rfl⟩ := convertScript_eq_ok_iff.1 h
  refine ⟨items, t, hitems, htables, rfl, becomes_members htables, inputs_ofModule htables, ?_⟩
  exact writesInputs_document _ o.framework fun i hi names hnames =>
    freeWord_of_constructors hitems htables hi hnames

/-- The input has these constructors. -/
def hasConstructors (names : List String) (i : Input) : Bool :=
  match i.type with
  | .constructors cs => cs == names
  | _ => false

theorem hasConstructors_iff {i : Input} :
    hasConstructors names i = true ↔ i.type = .constructors names := by
  unfold hasConstructors
  split
  · next cs h => simp [h]
  · next h => exact iff_of_false Bool.false_ne_true (h names)

/-- A component with an array of constructors and with a constructor among options. -/
def constructorsSource : String :=
  "@Component export default class A \x7b @Prop([String, Array, Date]) a; " ++
    "@Prop(\x7b type: Function, required: true \x7d) b; \x7d"

theorem constructors_are_unions :
    ∃ c items t, convertScript constructorsSource .typeScript {} = .ok c ∧
      parseModule .typeScript constructorsSource = .ok items ∧
      ofModule constructorsSource.toList ({} : Options).denied items = .ok t ∧
      WritesInputs (Scope.ofTables constructorsSource.toList t) t
        (document "vue" t (writeParts (Scope.ofTables constructorsSource.toList t) t)) ∧
      c = ⟨"interface Props \x7b\n  a?: string | any[] | Date,\n" ++
        "  b: (...args: any[]) => any,\n\x7d\nconst props = defineProps<Props>();", []⟩ ∧
      ∀ after, ReadsAsUnion "string | any[] | Date".toList (',' :: after)
        ["string", "any[]", "Date"] := by
  obtain ⟨items, t, hitems, ht, htables, hcode, hany⟩ :=
    exists_tables constructorsSource .typeScript (toList_append_ofList String.toList_ofList)
      (fun cs _ t => untrimmed cs t =
        ("interface Props \x7b\n  a?: string | any[] | Date,\n" ++
          "  b: (...args: any[]) => any,\n\x7d\nconst props = defineProps<Props>();" ++
          "\n\n", []) ∧
        t.inputs.any (hasConstructors ["String", "Array", "Date"]) = true)
      (by decide +kernel)
  have hc := convertScript_eq_ok.2 ⟨t, htables, convertTables_of_untrimmed hcode
    (toList_append_ofList String.toList_ofList) (by decide +kernel)⟩
  obtain ⟨items', t', hitems', ht', -, -, -, hinputs⟩ := convertScript_writes_unions hc
  cases hitems.symm.trans hitems'
  cases ht.symm.trans ht'
  obtain ⟨i, hi, hnames⟩ := List.any_eq_true.1 hany
  have hunion := (hinputs.unions i hi _ (hasConstructors_iff.1 hnames)).2
  refine ⟨_, items, t, hc, hitems, ht, hinputs, rfl, fun after => ?_⟩
  exact (hunion after).2 (by decide)

/-- A component with an input whose constructors are `Function` and another. -/
def functionUnionSource : String :=
  "@Component export default class A \x7b @Prop([Function, String]) a; \x7d"

/-- The other constructor becomes part of what the function gives. -/
theorem function_takes_alternatives :
    convertScript functionUnionSource .typeScript {} = .ok
      ⟨"interface Props \x7b\n  a?: (...args: any[]) => any | string,\n\x7d\n" ++
        "const props = defineProps<Props>();", []⟩ ∧
    ∀ after, ¬ ReadsAsUnion "(...args: any[]) => any | string".toList (',' :: after)
      ["(...args: any[]) => any", "string"] := by
  constructor
  · obtain ⟨-, t, -, -, htables, hcode⟩ :=
      exists_tables functionUnionSource .typeScript String.toList_ofList
        (fun cs _ t => untrimmed cs t =
          ("interface Props \x7b\n  a?: (...args: any[]) => any | string,\n\x7d\n" ++
            "const props = defineProps<Props>();" ++ "\n\n", [])) (by decide +kernel)
    exact convertScript_eq_ok.2 ⟨t, htables, convertTables_of_untrimmed hcode
      (toList_append_ofList String.toList_ofList) (by decide +kernel)⟩
  · intro after hunion
    have hone := (readsAsUnion_function_iff [.word "string"] after).1 hunion
    cases hone

end ScriptSetup.Setup
