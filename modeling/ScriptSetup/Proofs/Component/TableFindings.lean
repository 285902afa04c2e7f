import ScriptSetup.Proofs.Component.TableContents

/-!
# What the tables report

While the tables are filled, findings are made about members, and one about each import that is
dropped. What a member is said to be fits on a line.
-/

set_option autoImplicit false

namespace ScriptSetup.Component

open Script

/-- The causes of findings about the members of a component and about what stands in its place. -/
def isMemberCause : FindingCause → Bool
  | .noEquivalent what => !Text.isMultiline what
  | .mixins | .droppedDecorator _ _ | .undeclared _ => true
  | .replacedExpr _ | .replacedStmt _ | .setterOnly _ | .removedExport | .removedImport _ => false

/-- The import that an item is, when it is dropped. -/
def droppedImports (denied : List String) : ModuleItem → List ImportDecl
  | .importDecl decl =>
    if denied.contains (Text.afterLast '/' decl.source.value) then [decl] else []
  | _ => []

/-- The finding about a dropped import. -/
def droppedFinding (decl : ImportDecl) : Finding :=
  ⟨.removedImport decl.source.value, decl.span⟩

/-- The findings that are not about members. -/
def importFindings (fs : List Finding) : List Finding :=
  fs.filter fun f => !isMemberCause f.cause

theorem importFindings_append (fs gs : List Finding) :
    importFindings (fs ++ gs) = importFindings fs ++ importFindings gs :=
  List.filter_append ..

theorem importFindings_eq_nil {fs : List Finding} (h : ∀ f ∈ fs, isMemberCause f.cause = true) :
    importFindings fs = [] :=
  List.filter_eq_nil_iff.2 fun f hf => by simp [h f hf]

namespace Tables

variable {source : List Char} {denied : List String} {t t' : Tables}

theorem not_isMultiline_of_unsupported {m : Member} {what : String} {span : Span}
    (h : Becomes m (.unsupported what span)) : Text.isMultiline what = false := by
  cases h with
  | unnamedField | unnamedMethod => rfl
  | classOnly kind => cases kind <;> rfl

/-- A role is reported, if at all, as one of a member. -/
theorem importFindings_place (t : Tables) {m : Member} {r : Role} (h : Becomes m r) :
    importFindings (t.place r).findings = importFindings t.findings := by
  cases r with
  | unsupported what span =>
    have hcause : isMemberCause (.noEquivalent what) = true := by
      rw [isMemberCause, not_isMultiline_of_unsupported h]
      rfl
    refine (importFindings_append _ _).trans ?_
    rw [importFindings_eq_nil (List.forall_mem_singleton.2 hcause), List.append_nil]
  | _ => rfl

theorem importFindings_addMember {m : Member} (h : t.addMember source m = .ok t') :
    importFindings t'.findings = importFindings t.findings := by
  obtain ⟨⟨role, findings⟩, hrole, h⟩ := bind_eq_ok.1 h
  obtain ⟨hbecomes, hdropped⟩ := becomes_of_memberRole hrole
  have hmember : ∀ f ∈ findings, isMemberCause f.cause = true := by
    intro f hf
    obtain ⟨name, member, hcause⟩ := hdropped f hf
    rw [hcause]
    rfl
  rw [← Except.ok.inj h, importFindings_place _ hbecomes]
  rw [importFindings_append, importFindings_eq_nil hmember, List.append_nil]

theorem importFindings_foldlM_addMember {members : List Member}
    (h : members.foldlM (addMember source) t = .ok t') :
    importFindings t'.findings = importFindings t.findings := by
  induction members generalizing t with
  | nil =>
    cases h
    rfl
  | cons m members ih =>
    obtain ⟨t₁, hm, h⟩ := bind_eq_ok.1 h
    rw [ih h, importFindings_addMember hm]

theorem importFindings_addComponent {c : Script.Class} (h : t.addComponent source c = .ok t') :
    importFindings t'.findings = importFindings t.findings := by
  obtain ⟨t₁, hmembers, h⟩ := bind_eq_ok.1 h
  have hmixins : ∀ f ∈ (if extendsCall c then [⟨.mixins, c.span⟩] else [] : List Finding),
      isMemberCause f.cause = true := by
    intro f hf
    split at hf
    · cases List.mem_singleton.1 hf
      rfl
    · cases hf
  have hundeclared : ∀ f ∈ undeclaredAccesses t₁.declared c.members,
      isMemberCause f.cause = true := by
    intro f hf
    obtain ⟨id, -, rfl⟩ := List.mem_map.1 hf
    rfl
  cases h
  rw [importFindings_append, importFindings_eq_nil hundeclared, List.append_nil,
    importFindings_foldlM_addMember hmembers, importFindings_append, importFindings_eq_nil hmixins,
    List.append_nil]

theorem importFindings_addItem {item : ModuleItem} (h : t.addItem source denied item = .ok t') :
    importFindings t'.findings =
      importFindings t.findings ++ (droppedImports denied item).map droppedFinding := by
  cases item with
  | component c =>
    rw [importFindings_addComponent h]
    exact (List.append_nil _).symm
  | importDecl decl =>
    cases h
    rw [addImport, droppedImports]
    split
    · exact importFindings_append _ _
    · exact (List.append_nil _).symm
  | defaultDecl span =>
    cases h
    exact importFindings_append _ _
  | exportDecl | moduleDecl | stmt =>
    cases h
    exact (List.append_nil _).symm

theorem importFindings_foldlM_addItem {items : List ModuleItem}
    (h : items.foldlM (addItem source denied) t = .ok t') :
    importFindings t'.findings =
      importFindings t.findings ++ (items.flatMap (droppedImports denied)).map droppedFinding := by
  induction items generalizing t with
  | nil =>
    cases h
    exact (List.append_nil _).symm
  | cons item items ih =>
    obtain ⟨t₁, hitem, h⟩ := bind_eq_ok.1 h
    rw [ih h, importFindings_addItem hitem, List.flatMap_cons, List.map_append, List.append_assoc]

/-- Each dropped import has one finding, and all other findings are about members. -/
theorem importFindings_ofModule {items : List ModuleItem}
    (h : ofModule source denied items = .ok t) :
    importFindings t.findings = (items.flatMap (droppedImports denied)).map droppedFinding :=
  importFindings_foldlM_addItem h

end Tables

end ScriptSetup.Component
