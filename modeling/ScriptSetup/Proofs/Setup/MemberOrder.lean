import ScriptSetup.Proofs.Component.Relocation
import ScriptSetup.Proofs.Setup.Capture
import ScriptSetup.Proofs.Setup.Relocation

/-!
# The order of members and the document

The members of a component can be written in another order, as long as the order within each
category is the same: the document is the same. Two things change when members trade places. The
tables are filled in another order, which they do not show, and all code behind the first of these
members stands in another place, which the document does not show.
-/

set_option autoImplicit false

namespace ScriptSetup.Setup

open Script Component Written

/-! ## Writing tables in their new place -/

theorem SameText.all {α β γ : Type} {f : β → Written γ} {f' : α → Written γ} {g : α → β}
    {as : List α} (h : ∀ a ∈ as, SameText (f (g a)) (f' a)) :
    SameText (all f (as.map g)) (all f' as) := by
  induction as with
  | nil => exact .refl _
  | cons a as ih =>
    obtain ⟨ha, has⟩ := List.forall_mem_cons.1 h
    exact ha.bind fun _ => (ih has).last

section

variable {ρ : Span → Span} {s : Scope} {source' : List Char}

theorem inputEntry_relocate {i : Input} (h : inputKeeps (SameCopy ρ s.source source') i) :
    inputEntry (s.over source') (relocateInput ρ i) = inputEntry s i := by
  have htype :
      inputTypeText (s.over source') (relocateInputType ρ i.type) = inputTypeText s i.type := by
    cases htype : i.type with
    | written t =>
      have hcopy := h.1
      rw [htype] at hcopy
      exact typeText_relocate hcopy
    | constructors names | unknown => rfl
  rw [inputEntry, inputEntry]
  show _ ++ inputTypeText (s.over source') (relocateInputType ρ i.type) ++ _ = _
  rw [htype]
  rfl

theorem forwarded_relocate : ∀ p : Pat, SameText (forwarded (relocatePat ρ p)) (forwarded p)
  | .rest _ arg _ => (forwarded_relocate arg).last
  | .withDefault _ left _ => forwarded_relocate left
  | .ident _ _ _ | .array _ _ _ | .object _ _ _ | .expr _ | .hole => ⟨rfl, rfl⟩

theorem arrowFunction_relocate (level : Nat) {f : Func}
    (h : funcKeeps (SameCopy ρ s.source source') f) :
    SameText (arrowFunction (s.over source') level (relocateFunc ρ f)) (arrowFunction s level f) :=
  (funcText_relocate f h).lastEq fun _ => by rw [isAsync_relocateFunc]

theorem functionDecl_relocate (level : Nat) (name : String) {f : Func}
    (h : funcKeeps (SameCopy ρ s.source source') f) :
    SameText (functionDecl (s.over source') level name (relocateFunc ρ f))
      (functionDecl s level name f) :=
  (funcText_relocate f h).lastEq fun _ => by
    rw [isAsync_relocateFunc, isGenerator_relocateFunc]

theorem inputFallback_relocate {i : Input} (h : inputKeeps (SameCopy ρ s.source source') i) :
    SameText (inputFallback (s.over source') (relocateInput ρ i)) (inputFallback s i) := by
  obtain ⟨name, type, required, fallback⟩ := i
  match fallback with
  | none => exact .refl _
  | some (.value e) => exact (exprText_relocate e h.2).last
  | some (.factory f) => exact (arrowFunction_relocate 1 h.2).last

theorem inputDeclarations_relocate {inputs : List Input}
    (h : ∀ i ∈ inputs, inputKeeps (SameCopy ρ s.source source') i) :
    SameText (inputDeclarations (s.over source') (inputs.map (relocateInput ρ)))
      (inputDeclarations s inputs) := by
  have hentries : (inputs.map (relocateInput ρ)).map (inputEntry (s.over source')) =
      inputs.map (inputEntry s) := by
    rw [List.map_map]
    exact List.map_congr_left fun i hi => inputEntry_relocate (h i hi)
  rw [inputDeclarations, inputDeclarations, List.isEmpty_map, hentries]
  split
  · exact .refl _
  · exact (SameText.all fun i hi => inputFallback_relocate (h i hi)).last

theorem eventEntry_relocate {e : Event} (h : funcKeeps (SameCopy ρ s.source source') e.handler) :
    SameText (eventEntry (s.over source') (relocateEvent ρ e)) (eventEntry s e) := by
  obtain ⟨method, event, ⟨span, isAsync, isGenerator, tps, params, result, hasBody, body⟩⟩ := e
  refine (patTexts_relocate params h.2.1).bind fun _ => ?_
  cases result with
  | none => exact .refl _
  | some t =>
    show SameText (pure (_ ++ (s.over source').typeText (relocateType ρ t) ++ _)) _
    rw [typeText_relocate h.2.2.1]
    exact .refl _

theorem eventDeclarations_relocate {events : List Event}
    (h : ∀ e ∈ events, funcKeeps (SameCopy ρ s.source source') e.handler) :
    SameText (eventDeclarations (s.over source') (events.map (relocateEvent ρ)))
      (eventDeclarations s events) := by
  rw [eventDeclarations, eventDeclarations, List.isEmpty_map]
  split
  · exact .refl _
  · exact (SameText.all fun e he => eventEntry_relocate (h e he)).last

theorem emitMethod_relocate {e : Event} (h : funcKeeps (SameCopy ρ s.source source') e.handler) :
    SameText (emitMethod (s.over source') (relocateEvent ρ e)) (emitMethod s e) := by
  obtain ⟨method, event, ⟨span, isAsync, isGenerator, tps, params, result, hasBody, body⟩⟩ := e
  have hargs : SameText (all forwarded (relocatePats ρ params)) (all forwarded params) := by
    rw [relocatePats_eq_map]
    exact SameText.all fun p _ => forwarded_relocate p
  refine (patTexts_relocate params h.2.1).bind fun _ => hargs.bind fun _ => ?_
  show SameText (pure (_ ++ (s.over source').typeAnn (result.map (relocateType ρ)) ++ _ ++ _ ++ _))
    _
  rw [typeAnn_relocate h.2.2.1]
  exact .refl _

theorem watchSource_relocate {e : Expr} (h : exprKeeps (SameCopy ρ s.source source') e) :
    SameText (watchSource (s.over source') (relocateExpr ρ e)) (watchSource s e) := by
  have htext := @exprText_relocate ρ s source' 0 e h
  cases e with
  | string lit => exact .refl _
  | _ => exact htext

theorem watchRegistration_relocate {w : Watcher}
    (h : watcherKeeps (SameCopy ρ s.source source') w) :
    SameText (watchRegistration (s.over source') (relocateWatcher ρ w))
      (watchRegistration s w) := by
  obtain ⟨target, options, handler⟩ := w
  refine (watchSource_relocate h.1).bind fun _ =>
    (arrowFunction_relocate 0 h.2.2).bind fun _ => ?_
  cases options with
  | none => exact .refl _
  | some e => exact (exprText_relocate e h.2.1).last

theorem computedBinding_relocate {a : Accessor}
    (hgetter : ∀ f ∈ a.getter, funcKeeps (SameCopy ρ s.source source') f)
    (hsetter : ∀ f ∈ a.setter, funcKeeps (SameCopy ρ s.source source') f) :
    SameText (computedBinding (s.over source') (relocateAccessor ρ a)) (computedBinding s a) := by
  obtain ⟨name, getter, setter⟩ := a
  match getter, setter with
  | none, none => exact .refl _
  | some getter, none =>
    exact (arrowFunction_relocate 0 (hgetter getter rfl)).last
  | none, some setter =>
    -- the finding about a setter without a getter is all that differs
    refine SameText.bind ⟨rfl, rfl⟩ fun _ => SameText.bind (.refl _) fun _ => ?_
    exact (arrowFunction_relocate 1 (hsetter setter rfl)).last
  | some getter, some setter =>
    refine (arrowFunction_relocate 1 (hgetter getter rfl)).bind fun _ =>
      SameText.bind (.refl _) fun _ => ?_
    exact (arrowFunction_relocate 1 (hsetter setter rfl)).last

theorem refBinding_relocate {f : RefField}
    (h : refKeeps (SameCopy ρ s.source source') f) :
    SameText (refBinding (s.over source') (relocateRef ρ f)) (refBinding s f) := by
  obtain ⟨name, type, init⟩ := f
  cases type with
  | none =>
    cases init with
    | none => exact .refl _
    | some e => exact (exprText_relocate e h.2).last
  | some t =>
    simp only [refBinding, relocateRef, Option.map_some, typeText_relocate h.1]
    cases init with
    | none => exact .refl _
    | some e => exact (exprText_relocate e h.2).last

theorem fieldText_relocate (name : String) (isReadonly : Bool) {type : Option TypeText}
    {value : Option Expr}
    (htype : typeKeeps (SameCopy ρ s.source source') type)
    (hvalue : optionKeeps (SameCopy ρ s.source source') value) :
    SameText (fieldText (s.over source') name isReadonly (type.map (relocateType ρ))
      (relocateOption ρ value)) (fieldText s name isReadonly type value) := by
  cases value with
  | none => exact ⟨congrArg ("let " ++ name ++ · ++ ";") (typeAnn_relocate htype), rfl⟩
  | some e =>
    exact (exprText_relocate e hvalue).lastEq fun _ => by rw [typeAnn_relocate htype]

theorem keepsExport_relocate (decl : Stmt) :
    keepsExport (relocateStmt ρ decl) = keepsExport decl := by
  cases decl with
  | typeDecl kind span inside => cases kind <;> rfl
  | _ => rfl

theorem exportText_relocate {span : Span} {decl : Stmt}
    (h : SameCopy ρ s.source source' span ∧ stmtKeeps (SameCopy ρ s.source source') decl) :
    SameText (exportText (s.over source') (ρ span) (relocateStmt ρ decl))
      (exportText s span decl) := by
  rw [exportText_eq, exportText_eq, keepsExport_relocate]
  split
  · exact copied_relocate h.1
  · exact SameText.bind ⟨rfl, rfl⟩ fun _ => stmtText_relocate decl h.2

theorem bodyText_relocate {events : List Event} {item : BodyItem}
    (hevents : ∀ e ∈ events, funcKeeps (SameCopy ρ s.source source') e.handler)
    (hitem : bodyKeeps (SameCopy ρ s.source source') item) :
    SameText (bodyText (s.over source') (events.map (relocateEvent ρ)) (relocateBody ρ item))
      (bodyText s events item) := by
  cases item with
  | stmt stmt => exact stmtText_relocate stmt hitem
  | exportDecl span decl => exact exportText_relocate hitem
  | moduleDecl span => exact ⟨rfl, rfl⟩
  | field name isReadonly type value => exact fieldText_relocate name isReadonly hitem.1 hitem.2
  | method name f => exact functionDecl_relocate 0 name hitem
  | lifecycle hook f => exact (arrowFunction_relocate 0 hitem).last
  | hoisted body =>
    refine SameText.bind ?_ fun _ => .refl _
    rw [relocateStmts_eq_map]
    exact SameText.all fun stmt hstmt => stmtText_relocate stmt (stmtKeeps_of_mem hitem hstmt)
  | emit index =>
    rw [relocateBody, bodyText, bodyText, List.getElem?_map]
    cases hevent : events[index]? with
    | none => exact .refl _
    | some e => exact emitMethod_relocate (hevents e (List.mem_of_getElem? hevent))
  | unsupported => exact .refl _

/-- Tables in their new place are written the same. -/
theorem writeParts_relocate {t : Tables} (h : TablesKeep (SameCopy ρ s.source source') t) :
    SameText (writeParts (s.over source') (relocateTables ρ t)) (writeParts s t) :=
  (inputDeclarations_relocate h.inputs).bind fun _ =>
  (eventDeclarations_relocate h.events).bind fun _ =>
  (SameText.all fun w hw => watchRegistration_relocate (h.watchers w hw)).bind fun _ =>
  (SameText.all fun a ha =>
    computedBinding_relocate (h.getters a ha) (h.setters a ha)).bind fun _ =>
  (SameText.all fun item hitem => bodyText_relocate h.events (h.body item hitem)).bind fun _ =>
  (SameText.all fun f hf => refBinding_relocate (h.refs f hf)).last

end

variable {framework : String} {t : Tables} {source : List Char}

/-! ## The document -/

theorem frameworkNames_relocate (ρ : Span → Span) (t : Tables) (templateRefs : List String) :
    frameworkNames (relocateTables ρ t) templateRefs = frameworkNames t templateRefs := by
  simp only [frameworkNames, relocateTables, List.isEmpty_map]

theorem document_relocate {ρ : Span → Span} {w w' : Written Parts} (h : SameText w' w) :
    document framework (relocateTables ρ t) w' = document framework t w := by
  have himports : (relocateTables ρ t).imports.map importText = t.imports.map importText := by
    rw [relocateTables, List.map_map]
    rfl
  simp only [document, h.value, h.templateRefs, himports, frameworkNames_relocate]

theorem code_convertTables_relocate {ρ : Span → Span} {source' : List Char}
    (h : TablesKeep (SameCopy ρ source source') t) :
    (convertTables source' framework (relocateTables ρ t)).code =
      (convertTables source framework t).code := by
  have hscope : Scope.ofTables source' (relocateTables ρ t) =
      (Scope.ofTables source t).over source' := by
    refine congrArg (Scope.mk source') ?_
    rw [relocateTables, List.map_map]
    rfl
  rw [convertTables, hscope]
  exact congrArg Document.render
    (document_relocate (writeParts_relocate (s := Scope.ofTables source t) h))

/-- What is only reported has no part in the document. -/
theorem code_convertTables_congr {t' : Tables} (h : t.code = t'.code) :
    (convertTables source framework t).code = (convertTables source framework t').code := by
  show (convertTables source framework t.code).code = (convertTables source framework t'.code).code
  rw [h]

/-! ## Members in another order -/

/-- The second module is the first with the members of its component in another order, which is
the same within each category, and with all of it moved to where the same text stands in the second
source. -/
inductive Reordered (ρ : Span → Span) (source source' : List Char) :
    List ModuleItem → List ModuleItem → Prop where
  | intro (before after : List ModuleItem) (c : Script.Class) (members : List Member)
      (perm : members.Perm c.members)
      (order : SameOrder (c.members.map (roleOf source)) (members.map (roleOf source)))
      (texts : ∀ item ∈ before ++ .component c :: after,
        itemKeeps (SameCopy ρ (withoutMark source) (withoutMark source')) item) :
      Reordered ρ source source' (before ++ .component c :: after)
        ((before ++ .component { c with members } :: after).map (relocateItem ρ))

/-- What is copied is the same text in both sources. Places are counted from after a byte order
mark, but text is copied from the source with its mark. -/
def CopiesAlike (ρ : Span → Span) (source source' : List Char) (items : List ModuleItem) : Prop :=
  withoutMark source = source ∧ withoutMark source' = source' ∨
    ∀ item ∈ items, itemKeeps (SameCopy ρ source source') item

theorem Reordered.tables {ρ : Span → Span} {source' : List Char} {denied : List String}
    {items items' : List ModuleItem} (h : Reordered ρ source source' items items')
    (hcopies : CopiesAlike ρ source source' items)
    (ht : Tables.ofModule source denied items = .ok t) :
    ∃ t', Tables.ofModule source' denied items' = .ok t' ∧
      (convertTables source' framework t').code = (convertTables source framework t).code := by
  obtain ⟨before, after, c, members, perm, order, texts⟩ := h
  obtain ⟨t₁, ht₁, hcode⟩ := Tables.ofModule_reordered perm order ht
  have copies : ∀ item ∈ before ++ .component c :: after,
      itemKeeps (SameCopy ρ source source') item := by
    rcases hcopies with ⟨hsource, hsource'⟩ | hcopies
    · rwa [hsource, hsource'] at texts
    · exact hcopies
  have hcopies : ∀ item ∈ before ++ .component { c with members } :: after,
      itemKeeps (SameCopy ρ source source') item := by
    obtain ⟨hbefore, hrest⟩ := List.forall_mem_append.1 copies
    obtain ⟨hcomponent, hafter⟩ := List.forall_mem_cons.1 hrest
    refine List.forall_mem_append.2 ⟨hbefore, List.forall_mem_cons.2 ⟨?_, hafter⟩⟩
    exact fun m hm => hcomponent m (perm.subset hm)
  obtain ⟨hkeeps, t', ht', hcode'⟩ := Tables.ofModule_relocate hcopies ht₁
  refine ⟨t', ht', ?_⟩
  calc (convertTables source' framework t').code
      = (convertTables source' framework (relocateTables ρ t₁)).code :=
        code_convertTables_congr hcode'
    _ = (convertTables source framework t₁).code := code_convertTables_relocate hkeeps
    _ = (convertTables source framework t).code := code_convertTables_congr hcode

/-- A component whose members stand in another order, which is the same within each category, is
converted to the same text, when no byte order mark stands before it or what is copied behind the
mark is the same all the same. -/
theorem convertScript_reordered {source source' : String} {lang : Lang} {o : Options}
    {items items' : List ModuleItem} {ρ : Span → Span} {converted : Converted}
    (hitems : parseModule lang source = .ok items)
    (hitems' : parseModule lang source' = .ok items')
    (hreordered : Reordered ρ source.toList source'.toList items items')
    (hcopies : CopiesAlike ρ source.toList source'.toList items)
    (h : convertScript source lang o = .ok converted) :
    ∃ converted', convertScript source' lang o = .ok converted' ∧
      converted'.code = converted.code := by
  obtain ⟨items₁, t, hitems₁, ht, rfl⟩ := convertScript_eq_ok_iff.1 h
  cases hitems.symm.trans hitems₁
  obtain ⟨t', ht', hcode⟩ := hreordered.tables hcopies ht
  exact ⟨_, convertScript_eq_ok_iff.2 ⟨items', t', hitems', ht', rfl⟩, hcode⟩

/-! ### A getter and a field -/

/-- A component with a getter before a field. -/
def getterFirst : String := "export default class A\x7bget x()\x7b\x7da:T;\x7d"

/-- The same component with the field before the getter. -/
def fieldFirst : String := "export default class A\x7ba:T;get x()\x7b\x7d\x7d"

/-- The getter, from `p` on. -/
def getterAt (p : Nat) : Member :=
  .method ⟨p, p + 9⟩ [] .getter (.ident ⟨"x", p + 4, p + 5⟩)
    (.mk ⟨p, p + 9⟩ false false none [] none true []) []

/-- The field, from `p` on. -/
def fieldAt (p : Nat) : Member :=
  .field ⟨p, p + 4⟩ [] false (.ident ⟨"a", p, p + 1⟩) (some ⟨⟨p + 2, p + 3⟩, []⟩) none

/-- The member is the getter from `p` on. -/
def isGetterAt (p : Nat) : Member → Bool
  | .method s [] .getter (.ident k) (.mk f false false none [] none true []) [] =>
    s = ⟨p, p + 9⟩ ∧ k = ⟨"x", p + 4, p + 5⟩ ∧ f = ⟨p, p + 9⟩
  | _ => false

/-- The member is the field from `p` on. -/
def isFieldAt (p : Nat) : Member → Bool
  | .field s [] false (.ident k) (some t) none =>
    s = ⟨p, p + 4⟩ ∧ k = ⟨"a", p, p + 1⟩ ∧ t = ⟨⟨p + 2, p + 3⟩, []⟩
  | _ => false

theorem eq_getterAt {p : Nat} {m : Member} (h : isGetterAt p m = true) : m = getterAt p := by
  rw [isGetterAt.eq_def] at h
  split at h
  · obtain ⟨rfl, rfl, rfl⟩ := of_decide_eq_true h
    rfl
  · cases h

theorem eq_fieldAt {p : Nat} {m : Member} (h : isFieldAt p m = true) : m = fieldAt p := by
  rw [isFieldAt.eq_def] at h
  split at h
  · obtain ⟨rfl, rfl, rfl⟩ := of_decide_eq_true h
    rfl
  · cases h

/-- The module is the component with these members. -/
def componentOf (m m' : Member) : List ModuleItem := [.component ⟨⟨15, 37⟩, none, [m, m']⟩]

/-- The module is one component, with two members that pass the tests. -/
def isComponentOf (p p' : Member → Bool) : List ModuleItem → Bool
  | [.component ⟨span, none, [m, m']⟩] => decide (span = ⟨15, 37⟩) && p m && p' m'
  | _ => false

theorem parse_componentOf {text : String} {p p' : Member → Bool} {m m' : Member}
    (hm : ∀ {x}, p x = true → x = m) (hm' : ∀ {x}, p' x = true → x = m')
    (h : (parseModule .typeScript text).toOption.any (isComponentOf p p') = true) :
    parseModule .typeScript text = .ok (componentOf m m') := by
  obtain ⟨items, hitems, h⟩ := exists_ok_of_any h
  rw [isComponentOf.eq_def] at h
  split at h
  · simp only [Bool.and_eq_true, decide_eq_true_eq] at h
    obtain ⟨⟨rfl, hx⟩, hx'⟩ := h
    rw [hitems, hm hx, hm' hx']
    rfl
  · cases h

theorem parse_getterFirst : parseModule .typeScript getterFirst =
    .ok (componentOf (getterAt 23) (fieldAt 32)) :=
  parse_componentOf eq_getterAt eq_fieldAt (by decide +kernel)

theorem parse_fieldFirst : parseModule .typeScript fieldFirst =
    .ok (componentOf (fieldAt 23) (getterAt 27)) :=
  parse_componentOf eq_fieldAt eq_getterAt (by decide +kernel)

/-- Where the getter and the field go when they trade places. -/
def tradePlaces (span : Span) : Span :=
  if span.start < 23 then span
  else if span.start < 32 then ⟨span.start + 4, span.stop + 4⟩
  else ⟨span.start - 9, span.stop - 9⟩

theorem reordered_getterFirst {source source' : List Char}
    (h : withoutMark source = getterFirst.toList)
    (h' : withoutMark source' = fieldFirst.toList) :
    Reordered tradePlaces source source' (componentOf (getterAt 23) (fieldAt 32))
      (componentOf (fieldAt 23) (getterAt 27)) := by
  refine .intro [] [] ⟨⟨15, 37⟩, none, [getterAt 23, fieldAt 32]⟩ [fieldAt 32, getterAt 23]
    (.swap _ _ _) ⟨rfl, rfl, rfl, rfl, rfl, fun _ => rfl, fun _ => rfl⟩ ?_
  rw [h, h']
  have htype : SameCopy tradePlaces getterFirst.toList fieldFirst.toList ⟨34, 35⟩ := by
    decide +kernel
  refine List.forall_mem_singleton.2 (List.forall_mem_cons.2 ⟨?_, List.forall_mem_singleton.2 ?_⟩)
  · exact ⟨List.forall_mem_nil _, trivial, trivial, trivial, trivial⟩
  · exact ⟨List.forall_mem_nil _, htype, trivial⟩

theorem getter_before_field_converts_alike :
    ∃ converted converted', convertScript getterFirst .typeScript {} = .ok converted ∧
      convertScript fieldFirst .typeScript {} = .ok converted' ∧
        converted'.code = converted.code := by
  obtain ⟨converted, h, -⟩ := exists_ok_of_any (x := convertScript getterFirst .typeScript {})
    (p := fun _ => true) (by decide +kernel)
  have hmarks : withoutMark getterFirst.toList = getterFirst.toList ∧
      withoutMark fieldFirst.toList = fieldFirst.toList := by decide +kernel
  obtain ⟨converted', h', hcode⟩ := convertScript_reordered parse_getterFirst parse_fieldFirst
    (reordered_getterFirst hmarks.1 hmarks.2) (.inl hmarks) h
  exact ⟨converted, converted', h, h', hcode⟩

/-- Behind a byte order mark the type of the field is copied from three bytes before it, which is
where the getter ends or where the class begins. -/
theorem marked_members_convert_apart :
    Reordered tradePlaces ("\ufeff" ++ getterFirst).toList ("\ufeff" ++ fieldFirst).toList
      (componentOf (getterAt 23) (fieldAt 32)) (componentOf (fieldAt 23) (getterAt 27)) ∧
    (parseModule .typeScript ("\ufeff" ++ getterFirst) =
        .ok (componentOf (getterAt 23) (fieldAt 32)) ∧
      parseModule .typeScript ("\ufeff" ++ fieldFirst) =
        .ok (componentOf (fieldAt 23) (getterAt 27))) ∧
    convertScript ("\ufeff" ++ getterFirst) .typeScript {} =
      .ok ⟨"import \x7b computed \x7d from 'vue';\n\nconst x = computed(() => \x7b\x7d);\n\n" ++
        "let a: \x7d;", []⟩ ∧
    convertScript ("\ufeff" ++ fieldFirst) .typeScript {} =
      .ok ⟨"import \x7b computed \x7d from 'vue';\n\nconst x = computed(() => \x7b\x7d);\n\n" ++
        "let a: \x7b;", []⟩ := by
  have hmarked (source : String) : ("\ufeff" ++ source).toList = '\ufeff' :: source.toList :=
    String.toList_append
  have hparse {source : String} (h : withoutMark source.toList = source.toList) :
      parseModule .typeScript ("\ufeff" ++ source) = parseModule .typeScript source := by
    rw [parseModule, parseModule, parseChars, parseChars, hmarked, h]
    rfl
  refine ⟨reordered_getterFirst (by rw [hmarked]; rfl) (by rw [hmarked]; rfl), ⟨?_, ?_⟩,
    eq_ok_of_toOption (by decide +kernel), eq_ok_of_toOption (by decide +kernel)⟩
  · exact (hparse (by decide +kernel)).trans parse_getterFirst
  · exact (hparse (by decide +kernel)).trans parse_fieldFirst

end ScriptSetup.Setup
