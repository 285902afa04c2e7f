import ScriptSetup.Proofs.Setup.Accesses
import ScriptSetup.Proofs.Setup.PartDrafts

/-!
# Accesses to names that are not declared

A component is searched for accesses to names that it does not declare, and each name that is
found is reported. The search and the writing do not look at the same accesses. The search looks
at those with a dot outside functions with a `this` of their own, in everything that the members
hold; what is written may have other accesses, and not everything is written.
-/

set_option autoImplicit false

namespace ScriptSetup.Setup

open Script Component Written

/-! ## Accesses of the tables -/

/-- The accesses in the members of a component, in the order in which they are written. -/
def writtenAccesses (t : Tables) : List Access := accessesOf (memberUses t)

/-- The uses in what a member becomes. -/
def roleUses (locals : List String) : Role → List Use
  | .ref f => refUses locals f
  | .input i => inputUses locals i
  | .watcher w => watcherUses locals w
  | .event e => paramUses locals e.handler
  | .lifecycle _ f | .getter _ f | .setter _ f | .method _ f => funcUses locals f
  | .setupHook f => stmtsUses locals f.body
  | .field _ _ _ value => optionUses locals value
  | .nothing | .unsupported _ _ => []

theorem itemUses_of_role {events : List Event} {locals : List String} {r : Role} {item : BodyItem}
    (h : r.item? = some item) : itemUses events locals item = roleUses locals r := by
  cases r with
  | setupHook f =>
    rw [Role.item?] at h
    split at h <;> cases h
    rfl
  | lifecycle | field | method | unsupported =>
    cases h
    rfl
  | _ => cases h

/-- What is written of a component is written of one of its members. -/
theorem exists_role_of_mem_memberUses {source : List Char} {denied : List String}
    {items : List ModuleItem} {t : Tables} (h : Tables.ofModule source denied items = .ok t)
    {u : Use} (hu : u ∈ memberUses t) :
    ∃ m ∈ moduleMembers items, ∃ r, Becomes m r ∧ ∃ locals, u ∈ roleUses locals r := by
  have hmade := Tables.ofModule_madeOf h
  have hrole {r : Role} (hr : ∃ m ∈ moduleMembers items, Becomes m r) {locals : List String}
      (hu : u ∈ roleUses locals r) :
      ∃ m ∈ moduleMembers items, ∃ r, Becomes m r ∧ ∃ locals, u ∈ roleUses locals r := by
    obtain ⟨m, hm, hr⟩ := hr
    exact ⟨m, hm, r, hr, locals, hu⟩
  simp only [memberUses, List.mem_append, List.mem_flatMap] at hu
  rcases hu with ((((⟨i, hi, hu⟩ | ⟨e, he, hu⟩) | ⟨w, hw, hu⟩) | ⟨a, ha, hu⟩) | ⟨b, hb, hu⟩) |
    ⟨f, hf, hu⟩
  · exact hrole (hmade.inputs i hi) hu
  · exact hrole (hmade.events e he) hu
  · exact hrole (hmade.watchers w hw) hu
  · have hhalf {locals : List String} {half : Option Func} (hu : u ∈ accessUses locals half) :
        ∃ f ∈ half, u ∈ funcUses locals f := by
      cases half with
      | none => cases hu
      | some f => exact ⟨f, rfl, hu⟩
    rcases List.mem_append.1 hu with hu | hu
    · obtain ⟨f, hf, hu⟩ := hhalf hu
      obtain ⟨name, hr⟩ := hmade.getters a ha f hf
      exact hrole hr hu
    · obtain ⟨f, hf, hu⟩ := hhalf hu
      obtain ⟨name, hr⟩ := hmade.setters a ha f hf
      exact hrole hr hu
  · rcases hmade.body b hb with ⟨r, hr, hitem⟩ | ⟨index, rfl⟩ | hb
    · rw [itemUses_of_role hitem] at hu
      exact hrole hr hu
    · rw [itemUses] at hu
      split at hu
      · rename_i e he
        exact hrole (hmade.events e (List.mem_of_getElem? he)) hu
      · cases hu
    · obtain ⟨item, -, hb⟩ := List.mem_flatMap.1 hb
      cases item with
      | importDecl | component => cases hb
      | _ =>
        cases List.mem_singleton.1 hb
        cases hu
  · exact hrole (hmade.refs f hf) hu

/-! ## Plain accesses are found in members -/

theorem mem_exprsSelfNames {e : Expr} {es : List Expr} (h : e ∈ es) :
    e.selfNames ⊆ exprsSelfNames es := by
  induction es with
  | nil => cases h
  | cons e' es ih =>
    rcases List.mem_cons.1 h with rfl | h
    · exact List.subset_append_left _ _
    · exact List.Subset.trans (ih h) (List.subset_append_right _ _)

/-- The arguments of the first decorator with a meaning are searched. -/
theorem exprsSelfNames_of_first {ds : List Decorator} {d : Decorator}
    {kind : DecoratorKind} {args : List Expr} (h : FirstMeaning ds d kind args) :
    exprsSelfNames args ⊆ decoratorsSelfNames ds := by
  obtain ⟨hd, hmeans⟩ := h.mem
  intro id hid
  refine List.mem_flatMap.2 ⟨d, hd, ?_⟩
  cases hmeans with
  | name => cases hid
  | call hexpr =>
    rw [hexpr]
    exact List.mem_append_left _ (List.mem_append_right _ hid)

theorem propertySelfNames_subset {props : List Property} {p : Property} (h : p ∈ props) :
    p.selfNames ⊆ propertiesSelfNames props := by
  induction h with
  | head => exact List.subset_append_left ..
  | tail p _ ih => exact List.Subset.trans ih (List.subset_append_right ..)

theorem found_inputOptions {args : List Expr} {o : InputOptions} (h : inputOptions args = .ok o)
    (locals : List String) {i : Input} (hi : i.fallback = o.fallback) :
    Found (inputUses locals i) (exprsSelfNames args) := by
  rw [inputUses, hi]
  cases hd : o.fallback with
  | none => exact .nil _
  | some d =>
    obtain ⟨span, props, rest, rfl, hd⟩ := inputOptions_fallback h hd
    cases hd with
    | value key e hmem =>
      exact ((expr_found e).right.mono (propertySelfNames_subset hmem)).left
    | factory span key f hmem =>
      exact ((func_found f).right.mono (propertySelfNames_subset hmem)).left

theorem exists_of_mem_patsSelfNames {id : Ident} {ps : List Pat} (h : id ∈ patsSelfNames ps) :
    ∃ p ∈ ps, id ∈ p.selfNames := by
  induction ps with
  | nil => cases h
  | cons p ps ih =>
    rcases List.mem_append.1 h with h | h
    · exact ⟨p, List.mem_cons_self, h⟩
    · obtain ⟨q, hq, h⟩ := ih h
      exact ⟨q, List.mem_cons_of_mem p hq, h⟩

theorem patsSelfNames_subset (decorators : List (List Decorator)) (params : List Pat) :
    patsSelfNames params ⊆ paramsSelfNames decorators params := by
  intro id hid
  obtain ⟨p, hp, hid⟩ := exists_of_mem_patsSelfNames hid
  obtain ⟨i, hi, rfl⟩ := List.getElem_of_mem hp
  refine List.mem_flatMap.2 ⟨i, List.mem_range.2 hi, List.mem_append_right _ ?_⟩
  rwa [List.getD_eq_getElem?_getD, List.getElem?_eq_getElem hi]

/-- The plain accesses of a member that are written are found in the member: a field is searched
with its value and its decorators, a method with its parameters, its body and its decorators. -/
theorem found_of_becomes {m : Member} {r : Role} (h : Becomes m r) (locals : List String) :
    Found (roleUses locals r) m.selfNames := by
  have hvalue {span : Span} {ds : List Decorator} {isReadonly : Bool} {key : Key}
      {type : Option TypeText} {value : Option Expr} : Found (optionUses locals value)
        (Member.field span ds isReadonly key type value).selfNames := by
    cases value with
    | none => exact .nil _
    | some e => exact (expr_found e).right.left.left
  have hparams {locals : List String} {span : Span} {ds : List Decorator} {kind : MethodKind}
      {key : Key} {f : Func} {ps : List (List Decorator)} :
      Found (patsUses true locals f.params) (Member.method span ds kind key f ps).selfNames :=
    ((pats_found f.params).mono (patsSelfNames_subset ps f.params)).right.left.left.left.left
  have hbody {locals : List String} {span : Span} {ds : List Decorator} {kind : MethodKind}
      {key : Key} {f : Func} {ps : List (List Decorator)} :
      Found (stmtsUses locals f.body) (Member.method span ds kind key f ps).selfNames :=
    (stmts_found f.body).right.left.left
  have hfunc {span : Span} {ds : List Decorator} {kind : MethodKind} {key : Key} {f : Func}
      {ps : List (List Decorator)} :
      Found (funcUses locals f) (Member.method span ds kind key f ps).selfNames := by
    have hboth {ls ls' : List String} :=
      (@hparams ls span ds kind key f ps).both (@hbody ls' span ds kind key f ps)
    cases f
    exact hboth
  cases h with
  | unnamedField | unnamedMethod | classOnly | empty => exact .nil _
  | field | ref => exact hvalue
  | input _ hfirst hargs =>
    exact Found.right ((found_inputOptions hargs locals rfl).mono (exprsSelfNames_of_first hfirst))
  | @watcher key _ ds _ args target options _ hfirst hargs span kind f ps =>
    have hsearched {e : Expr} (he : e ∈ args) :
        Found (exprUses locals e) (Member.method span ds kind key f ps).selfNames :=
      ((expr_found e).mono (List.Subset.trans (mem_exprsSelfNames he)
        (exprsSelfNames_of_first hfirst))).right.left.left.left
    obtain ⟨-, ⟨rfl, rfl⟩ | ⟨optionsSpan, props, rest, rfl, rfl⟩⟩ := watchArguments_eq_ok.1 hargs
    · exact ((hsearched List.mem_cons_self).both hfunc).both (.nil _)
    · exact ((hsearched List.mem_cons_self).both hfunc).both
        (hsearched (List.mem_cons_of_mem _ List.mem_cons_self))
  | event => exact hparams
  | setupHook => exact hbody
  | getter | setter | lifecycle | method => exact hfunc

/-! ## What is reported -/

/-- The name is reported as not declared. -/
def Reports (findings : List Finding) (name : String) : Prop :=
  ∃ f ∈ findings, f.cause = .undeclared name

instance (findings : List Finding) (name : String) : Decidable (Reports findings name) :=
  inferInstanceAs (Decidable (∃ f ∈ findings, _))

theorem reports_append {fs gs : List Finding} {name : String} :
    Reports (fs ++ gs) name ↔ Reports fs name ∨ Reports gs name := by
  simp only [Reports, List.mem_append, or_and_right, exists_or]

theorem reports_sortByStart {fs : List Finding} {name : String} :
    Reports (Finding.sortByStart fs) name ↔ Reports fs name := by
  simp only [Reports, Finding.sortByStart, List.mem_mergeSort]

theorem not_reports_of_caused {α : Type} {w : Written α} (h : CausedBy isWritingCause w)
    (name : String) : ¬ Reports w.findings name := by
  rintro ⟨f, hf, hcause⟩
  have hwriting := h f hf
  rw [hcause] at hwriting
  cases hwriting

theorem exists_firstAccesses {ids : List Ident} {name : String} :
    (∃ id ∈ firstAccesses ids, id.name = name) ↔ ∃ id ∈ ids, id.name = name := by
  induction ids with
  | nil => exact Iff.rfl
  | cons id rest ih =>
    have hcons (l : List Ident) :
        (∃ x ∈ id :: l, x.name = name) ↔ id.name = name ∨ ∃ x ∈ l, x.name = name := by
      simp only [List.mem_cons, or_and_right, exists_or, exists_eq_left]
    rw [firstAccesses, hcons, hcons, ← ih]
    by_cases hname : id.name = name
    · simp only [hname, true_or]
    · simp only [hname, false_or, List.mem_filter, bne_iff_ne, ne_eq]
      refine exists_congr fun x => ⟨fun h => ⟨h.1.1, h.2⟩, fun h => ⟨⟨h.1, ?_⟩, h.2⟩⟩
      rw [h.2]
      exact Ne.symm hname

/-- A name that is not declared is reported when there is an access to it. -/
theorem reports_undeclaredAccesses {declared : List String} {members : List Member}
    {name : String} (hdeclared : name ∉ declared) :
    Reports (undeclaredAccesses declared members) name ↔
      name ≠ "$refs" ∧ ∃ id ∈ members.flatMap Member.selfNames, id.name = name := by
  rw [← exists_firstAccesses]
  constructor
  · rintro ⟨f, hf, hcause⟩
    obtain ⟨id, hid, rfl⟩ := List.mem_map.1 hf
    obtain ⟨hid, hkept⟩ := List.mem_filter.1 hid
    have hname : id.name = name := FindingCause.undeclared.inj hcause
    simp only [Bool.and_eq_true, bne_iff_ne, ne_eq, hname] at hkept
    exact ⟨hkept.1, id, hid, hname⟩
  · rintro ⟨hrefs, id, hid, hname⟩
    refine ⟨_, List.mem_map_of_mem (List.mem_filter.2 ⟨hid, ?_⟩), congrArg _ hname⟩
    simp [hname, hrefs, hdeclared]

/-- Decorators are reported as such. -/
theorem not_reports_memberRole {source : List Char} {m : Member} {r : Role}
    {findings : List Finding} (h : memberRole source m = .ok (r, findings)) (name : String) :
    ¬ Reports findings name := by
  rintro ⟨f, hf, hcause⟩
  obtain ⟨dropped, member, hdropped⟩ := (becomes_of_memberRole h).2 f hf
  cases hcause.symm.trans hdropped

theorem reports_place (t : Tables) (r : Role) (name : String) :
    Reports (t.place r).findings name ↔ Reports t.findings name := by
  cases r with
  | unsupported what span =>
    refine reports_append.trans (or_iff_left ?_)
    rintro ⟨f, hf, hcause⟩
    cases List.mem_singleton.1 hf
    cases hcause
  | _ => exact Iff.rfl

section

variable {source : List Char} {denied : List String} {t t' : Tables}

theorem reports_foldlM_addMember {members : List Member}
    (h : members.foldlM (Tables.addMember source) t = .ok t') (name : String) :
    Reports t'.findings name ↔ Reports t.findings name := by
  induction members generalizing t with
  | nil =>
    cases h
    exact Iff.rfl
  | cons m members ih =>
    obtain ⟨t₁, hm, h⟩ := bind_eq_ok.1 h
    obtain ⟨⟨role, findings⟩, hrole, hm⟩ := bind_eq_ok.1 hm
    rw [ih h, ← Except.ok.inj hm, reports_place, reports_append]
    exact or_iff_left (not_reports_memberRole hrole name)

/-- What the items of a module report about a name that is not declared in the end. -/
theorem reports_addItem {item : ModuleItem} {name : String}
    (h : t.addItem source denied item = .ok t') (hname : name ∉ t'.declared) :
    Reports t'.findings name ↔ Reports t.findings name ∨
      (name ≠ "$refs" ∧ ∃ id ∈ (itemMembers item).flatMap Member.selfNames, id.name = name) := by
  have hother {f : Finding} (hf : ∀ n, f.cause ≠ .undeclared n) :
      Reports (t.findings ++ [f]) name ↔ Reports t.findings name ∨
        (name ≠ "$refs" ∧ ∃ id ∈ ([] : List Ident), id.name = name) := by
    have hno : ¬ Reports [f] name := by
      rintro ⟨g, hg, hcause⟩
      cases List.mem_singleton.1 hg
      exact hf name hcause
    rw [reports_append, or_iff_left hno]
    simp
  cases item with
  | component c =>
    obtain ⟨t₁, hmembers, h⟩ := bind_eq_ok.1 h
    cases h
    rw [reports_append, reports_undeclaredAccesses hname, reports_foldlM_addMember hmembers,
      reports_append]
    refine or_congr_left (or_iff_left ?_)
    rintro ⟨f, hf, hcause⟩
    split at hf
    · cases List.mem_singleton.1 hf
      cases hcause
    · cases hf
  | importDecl decl =>
    cases h
    rw [Tables.addImport]
    split
    · exact hother (by simp)
    · simp [itemMembers]
  | defaultDecl span =>
    cases h
    exact hother (by simp)
  | _ =>
    cases h
    simp [itemMembers]

theorem reports_foldlM_addItem {items : List ModuleItem} {name : String}
    (hconsistent : t.Consistent) (h : items.foldlM (Tables.addItem source denied) t = .ok t')
    (hname : name ∉ t'.declared) :
    Reports t'.findings name ↔ Reports t.findings name ∨
      (name ≠ "$refs" ∧ ∃ id ∈ (moduleMembers items).flatMap Member.selfNames, id.name = name) := by
  induction items generalizing t with
  | nil =>
    cases h
    simp [moduleMembers]
  | cons item items ih =>
    obtain ⟨t₁, hitem, h⟩ := bind_eq_ok.1 h
    obtain ⟨hconsistent₁, -⟩ := Tables.memberNames_addItem hconsistent hitem
    obtain ⟨-, -, -, hdeclared⟩ := Tables.memberNames_foldlM_addItem hconsistent₁ h
    -- declared names only become more, so the name was not declared before either
    have hname₁ : name ∉ t₁.declared := fun hn => hname ((hdeclared name).2 (.inl hn))
    rw [ih hconsistent₁ h, reports_addItem hitem hname₁, or_assoc, ← and_or_left]
    refine or_congr_right (and_congr_right fun _ => ?_)
    simp only [moduleMembers, List.flatMap_cons, List.flatMap_append, List.mem_append,
      or_and_right, exists_or]

/-- A name that the component does not declare is reported exactly when the search finds an
access to it. -/
theorem reports_ofModule {items : List ModuleItem} {name : String}
    (h : Tables.ofModule source denied items = .ok t) (hname : name ∉ t.declared) :
    Reports t.findings name ↔
      name ≠ "$refs" ∧ ∃ id ∈ (moduleMembers items).flatMap Member.selfNames, id.name = name :=
  (reports_foldlM_addItem Tables.consistent_empty h hname).trans (or_iff_right nofun)

end

/-- The item is a component. -/
def isComponent : ModuleItem → Bool
  | .component _ => true
  | _ => false

section

variable {source : List Char} {denied : List String} {t t' : Tables}

/-- Other items than components declare nothing and report no access. -/
theorem foldlM_addItem_beside {items : List ModuleItem}
    (hbeside : ∀ i ∈ items, isComponent i = false)
    (h : items.foldlM (Tables.addItem source denied) t = .ok t') :
    t'.declared = t.declared ∧ ∀ name, Reports t'.findings name ↔ Reports t.findings name := by
  have hother {fs : List Finding} {f : Finding} (hf : ∀ n, f.cause ≠ .undeclared n)
      (name : String) : Reports (fs ++ [f]) name ↔ Reports fs name := by
    rw [reports_append]
    refine or_iff_left ?_
    rintro ⟨g, hg, hcause⟩
    cases List.mem_singleton.1 hg
    exact hf name hcause
  induction items generalizing t with
  | nil =>
    cases h
    exact ⟨rfl, fun _ => Iff.rfl⟩
  | cons item items ih =>
    obtain ⟨t₁, hitem, h⟩ := bind_eq_ok.1 h
    obtain ⟨hdeclared, hreports⟩ := ih (fun i hi => hbeside i (List.mem_cons_of_mem item hi)) h
    have hstep : t₁.declared = t.declared ∧
        ∀ name, Reports t₁.findings name ↔ Reports t.findings name := by
      cases item with
      | component c => cases hbeside _ List.mem_cons_self
      | importDecl decl =>
        cases hitem
        rw [Tables.addImport]
        split
        · exact ⟨rfl, hother (by simp)⟩
        · exact ⟨rfl, fun _ => Iff.rfl⟩
      | defaultDecl span =>
        cases hitem
        exact ⟨rfl, hother (by simp)⟩
      | _ =>
        cases hitem
        exact ⟨rfl, fun _ => Iff.rfl⟩
    exact ⟨hdeclared.trans hstep.1, fun name => (hreports name).trans (hstep.2 name)⟩

theorem not_mem_of_reports_undeclaredAccesses {declared : List String} {members : List Member}
    {name : String} (h : Reports (undeclaredAccesses declared members) name) :
    name ∉ declared := by
  obtain ⟨f, hf, hcause⟩ := h
  obtain ⟨id, hid, rfl⟩ := List.mem_map.1 hf
  obtain ⟨-, hkept⟩ := List.mem_filter.1 hid
  have hname : id.name = name := FindingCause.undeclared.inj hcause
  simp only [Bool.and_eq_true, Bool.not_eq_true', hname] at hkept
  simpa using hkept.2

/-- A name that the component of a module declares is not reported. -/
theorem not_mem_declared_of_reports {before after : List ModuleItem} {c : Script.Class}
    (hbefore : ∀ i ∈ before, isComponent i = false) (hafter : ∀ i ∈ after, isComponent i = false)
    (h : Tables.ofModule source denied (before ++ .component c :: after) = .ok t) {name : String}
    (hreports : Reports t.findings name) : name ∉ t.declared := by
  rw [Tables.ofModule, List.foldlM_append] at h
  obtain ⟨t₀, hfirst, h⟩ := bind_eq_ok.1 h
  obtain ⟨t₁, hcomponent, hlast⟩ := bind_eq_ok.1 h
  obtain ⟨-, hreports₀⟩ := foldlM_addItem_beside hbefore hfirst
  obtain ⟨hdeclared, hreports₁⟩ := foldlM_addItem_beside hafter hlast
  rw [hdeclared]
  rw [hreports₁] at hreports
  obtain ⟨t₂, hmembers, hcomponent⟩ := bind_eq_ok.1 hcomponent
  cases hcomponent
  rcases reports_append.1 hreports with hreports | hreports
  · rw [reports_foldlM_addMember hmembers, reports_append, hreports₀] at hreports
    rcases hreports with ⟨f, hf, -⟩ | ⟨f, hf, hcause⟩
    · cases hf
    · split at hf
      · cases List.mem_singleton.1 hf
        cases hcause
      · cases hf
  · exact not_mem_of_reports_undeclaredAccesses hreports

end

/-! ## When the reports are those of the written accesses -/

/-- The names that are reported are those of the accesses that are written, among the names that
the component does not declare. -/
def ReportsWritten (t : Tables) (findings : List Finding) : Prop :=
  ∀ name, name ∉ t.declared → (name ∈ selfNamesOf (memberUses t) ↔ Reports findings name)

/-- The search of the members sees what is written. Every written access to a name that is not
declared is found under its name, though it may itself be none that is searched for, and is not to
`$refs`, which the search leaves out. Every access to such a name that is found, though it may
itself be none that is written, is written under its name. -/
structure SearchSees (t : Tables) (found : List Ident) : Prop where
  refs : "$refs" ∉ t.declared → ∀ a ∈ writtenAccesses t, a.name ≠ "$refs"
  notPlain : ∀ a ∈ writtenAccesses t, a.name ∉ t.declared → a.isPlain = false →
    ∃ id ∈ found, id.name = a.name
  notWritten : ∀ id ∈ found, id.name ∉ t.declared → id.name ≠ "$refs" →
    (∀ a ∈ writtenAccesses t, a.ident ≠ id) → ∃ a ∈ writtenAccesses t, a.name = id.name

theorem reportsWritten_iff {source : List Char} {denied : List String} {items : List ModuleItem}
    {t : Tables} (h : Tables.ofModule source denied items = .ok t) {α : Type} {w : Written α}
    (hw : CausedBy isWritingCause w) :
    ReportsWritten t (Finding.sortByStart (t.findings ++ w.findings)) ↔
      SearchSees t ((moduleMembers items).flatMap Member.selfNames) := by
  have hwritten (name : String) :
      name ∈ selfNamesOf (memberUses t) ↔ ∃ a ∈ writtenAccesses t, a.name = name := by
    rw [← accessesOf_names, List.mem_map]
    exact Iff.rfl
  have hreports {name : String} (hname : name ∉ t.declared) :
      Reports (Finding.sortByStart (t.findings ++ w.findings)) name ↔
        name ≠ "$refs" ∧
          ∃ id ∈ (moduleMembers items).flatMap Member.selfNames, id.name = name := by
    rw [reports_sortByStart, reports_append, or_iff_left (not_reports_of_caused hw name),
      reports_ofModule h hname]
  have hplain {a : Access} (ha : a ∈ writtenAccesses t) (hplain : a.isPlain = true) :
      a.ident ∈ (moduleMembers items).flatMap Member.selfNames := by
    refine Found.of_access? (fun u hu name span href hown => ?_) ha hplain
    obtain ⟨m, hm, r, hr, locals, hu⟩ := exists_role_of_mem_memberUses h hu
    exact List.mem_flatMap.2 ⟨m, hm, found_of_becomes hr locals u hu name span href hown⟩
  constructor
  · intro hsame
    have hfound {a : Access} (ha : a ∈ writtenAccesses t) (hname : a.name ∉ t.declared) :=
      (hreports hname).1 ((hsame a.name hname).1 ((hwritten a.name).2 ⟨a, ha, rfl⟩))
    refine ⟨fun hrefs a ha hname => ?_, fun a ha hname _ => (hfound ha hname).2,
      fun id hid hname hrefs _ => ?_⟩
    · exact (hfound ha (hname ▸ hrefs)).1 hname
    · exact (hwritten id.name).1
        ((hsame id.name hname).2 ((hreports hname).2 ⟨hrefs, id, hid, rfl⟩))
  · rintro ⟨hrefs, hnotPlain, hnotWritten⟩ name hname
    rw [hwritten, hreports hname]
    constructor
    · rintro ⟨a, ha, rfl⟩
      refine ⟨fun heq => hrefs (heq ▸ hname) a ha heq, ?_⟩
      cases ha' : a.isPlain with
      | true => exact ⟨a.ident, hplain ha ha', rfl⟩
      | false => exact hnotPlain a ha hname ha'
    · rintro ⟨hne, id, hid, rfl⟩
      by_cases hid' : ∃ a ∈ writtenAccesses t, a.ident = id
      · obtain ⟨a, ha, rfl⟩ := hid'
        exact ⟨a, ha, rfl⟩
      · exact hnotWritten id hid hname hne fun a ha heq => hid' ⟨a, ha, heq⟩

/-- The accesses that are written are the self references of the members, which the output has as
names. The names reported as not declared are those of the written accesses exactly when the
search sees what is written; and no name is reported that the only component declares. -/
theorem convertScript_reports_written_iff {source : String} {lang : Lang} {o : Options}
    {c : Converted} (h : convertScript source lang o = .ok c) :
    ∃ items t, parseModule lang source = .ok items ∧
      Tables.ofModule source.toList o.denied items = .ok t ∧
      let s := Scope.ofTables source.toList t
      let printed := resolveTables s.reactive t
      c.code = (document o.framework t (writeParts s t)).render ∧
      (writeParts s t).value = (writeParts s printed).value ∧
      memberUses printed = (memberUses t).map Use.resolve ∧
      (writtenAccesses t).map (·.name) = selfNamesOf (memberUses t) ∧
      (ReportsWritten t c.findings ↔
        SearchSees t ((moduleMembers items).flatMap Member.selfNames)) ∧
      ∀ before after cls, items = before ++ .component cls :: after →
        (∀ i ∈ before ++ after, isComponent i = false) →
        ∀ name, Reports c.findings name → name ∉ t.declared := by
  obtain ⟨items, t, hitems, htables, rfl⟩ := convertScript_eq_ok_iff.1 h
  have hwriting := writeParts_caused (Scope.ofTables source.toList t) t
  refine ⟨items, t, hitems, htables, rfl, ?_, memberUses_resolve _ t,
    accessesOf_names _, reportsWritten_iff htables hwriting, ?_⟩
  · rw [(writeParts_settles _ t).settled]
    rfl
  · rintro before after cls rfl hbeside name hreports
    have hreports := (reports_append.1 (reports_sortByStart.1 hreports)).resolve_right
      (not_reports_of_caused hwriting name)
    exact not_mem_declared_of_reports (fun i hi => hbeside i (List.mem_append_left _ hi))
      (fun i hi => hbeside i (List.mem_append_right _ hi)) htables hreports

/-- A component with accesses to names that it does not declare, with a dot and without. -/
def searchedSource : String :=
  "@Component export default class A \x7b @Ref a; go(b = this['c']) \x7b this.a; this.c; " ++
    "this.$refs.d; return () => this.e; \x7d \x7d"

theorem reports_written_where_search_sees :
    ∃ c t, convertScript searchedSource .javaScript {} = .ok c ∧
      scriptTables searchedSource .javaScript {} = .ok t ∧
      selfNamesOf (memberUses t) = ["c", "a", "c", "e"] ∧ ReportsWritten t c.findings := by
  obtain ⟨items, t, hitems, ht, htables, hnames, hrefs, hfound, hwritten⟩ :=
    exists_tables searchedSource .javaScript (toList_append_ofList String.toList_ofList)
      (fun _ items t =>
        let found := (moduleMembers items).flatMap Member.selfNames
        selfNamesOf (memberUses t) = ["c", "a", "c", "e"] ∧
        (∀ a ∈ writtenAccesses t, a.name ≠ "$refs") ∧
        (∀ a ∈ writtenAccesses t, ∃ id ∈ found, id.name = a.name) ∧
        ∀ id ∈ found, id.name ≠ "$refs" → ∃ a ∈ writtenAccesses t, a.name = id.name)
      (by decide +kernel)
  have hconverts := convertScript_eq_ok.2 ⟨t, htables, rfl⟩
  obtain ⟨items', t', hitems', ht', -, -, -, -, hiff, -⟩ :=
    convertScript_reports_written_iff hconverts
  cases hitems.symm.trans hitems'
  cases ht.symm.trans ht'
  exact ⟨_, t, hconverts, htables, hnames, hiff.2 ⟨fun _ => hrefs, fun a ha _ _ => hfound a ha,
    fun id hid _ hne _ => hwritten id hid hne⟩⟩

/-- A component with an access to a name that it does not declare. -/
def keyedAccessSource : String :=
  "@Component export default class A \x7b go() \x7b return this['store']; \x7d \x7d"

/-- The access is written as a name, and nothing is reported. -/
theorem keyed_access_unreported :
    convertScript keyedAccessSource .javaScript {} = .ok
      ⟨"function go() \x7b\n  return store;\n\x7d", []⟩ ∧
    ∃ t, scriptTables keyedAccessSource .javaScript {} = .ok t ∧
      ¬ ReportsWritten t [] := by
  obtain ⟨-, t, -, -, ht, hconverted, hdeclared, hwritten⟩ :=
    exists_tables keyedAccessSource .javaScript String.toList_ofList
      (fun cs _ t => convertTables cs "vue" t =
        ⟨"function go() \x7b\n  return store;\n\x7d", []⟩ ∧
        "store" ∉ t.declared ∧ "store" ∈ selfNamesOf (memberUses t))
      (by decide +kernel)
  refine ⟨convertScript_eq_ok.2 ⟨t, ht, hconverted⟩, t, ht, fun hreports => ?_⟩
  obtain ⟨f, hf, -⟩ := (hreports "store" hdeclared).1 hwritten
  cases hf

end ScriptSetup.Setup
