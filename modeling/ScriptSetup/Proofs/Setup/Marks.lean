import ScriptSetup.Proofs.Setup.PartDrafts

/-!
# Members that have nothing to become

A member that has no meaning outside a class, and a default export that is no class, leave a mark in
the body and a finding. `Marks` says that the tables have one of each for every such item, in the
order of the module.
-/

set_option autoImplicit false

namespace ScriptSetup.Setup

open Script Component

/-- A placeholder for a member or declaration. -/
def replacedItem (what : String) (span : Span) : Placeholder :=
  ⟨stmtPlaceholder, span, some ⟨.noEquivalent what, span⟩⟩

/-- The placeholder for a member that has nothing to become. -/
def memberPlaceholder? : Member → Option Placeholder
  | .field span _ _ key _ _ =>
    if key.staticName?.isNone then some (replacedItem "computed field name" span) else none
  | .method span _ _ key _ _ =>
    if key.staticName?.isNone then some (replacedItem "computed method name" span) else none
  | .classOnly what span _ => some (replacedItem what.text span)
  | .empty => none

/-- The placeholders for what has nothing to become, in an item of a module. -/
def itemPlaceholders : ModuleItem → List Placeholder
  | .component c => c.members.filterMap memberPlaceholder?
  | .defaultDecl span => [replacedItem "default export" span]
  | .importDecl _ | .exportDecl _ _ | .moduleDecl _ | .stmt _ => []

/-- The placeholders for what has nothing to become, in a module. -/
def modulePlaceholders (items : List ModuleItem) : List Placeholder :=
  items.flatMap itemPlaceholders

theorem reported_replacedItem (what : String) (span : Span) : (replacedItem what span).Reported :=
  ⟨.inr rfl, _, rfl, by simp [replacementCodes, Finding.code, FindingCause.code], .refl span⟩

theorem mem_modulePlaceholders {items : List ModuleItem} {h : Placeholder}
    (hh : h ∈ modulePlaceholders items) : ∃ what span, h = replacedItem what span := by
  obtain ⟨item, -, hh⟩ := List.mem_flatMap.1 hh
  cases item with
  | component c =>
    obtain ⟨m, -, hm⟩ := List.mem_filterMap.1 hh
    cases m with
    | field | method =>
      rw [memberPlaceholder?] at hm
      split at hm
      · exact ⟨_, _, (Option.some.inj hm).symm⟩
      · cases hm
    | classOnly what span inside => exact ⟨_, _, (Option.some.inj hm).symm⟩
    | empty => cases hm
  | defaultDecl span => exact ⟨_, _, List.mem_singleton.1 hh⟩
  | _ => cases hh

/-! ## Marks in the tables -/

/-- The tables have a mark and a finding for each of the placeholders. -/
structure Marks (hs : List Placeholder) (t : Tables) : Prop where
  findings : t.findings.filter isReplacement = reported hs
  body : (t.body.filter isUnsupported).length = hs.length

namespace Marks

variable {hs : List Placeholder} {t : Tables}

theorem addFindings (h : Marks hs t) {fs : List Finding} (hfs : ∀ f ∈ fs, isReplacement f = false) :
    Marks hs { t with findings := t.findings ++ fs } := by
  refine ⟨?_, h.body⟩
  rw [List.filter_append, h.findings, List.filter_eq_nil_iff.2, List.append_nil]
  intro f hf
  rw [hfs f hf]
  exact Bool.false_ne_true

theorem addBody (h : Marks hs t) {item : BodyItem} (hitem : item ≠ .unsupported) :
    Marks hs { t with body := t.body ++ [item] } := by
  refine ⟨h.findings, ?_⟩
  rw [List.filter_append, List.filter_cons_of_neg (not_isUnsupported hitem), List.filter_nil,
    List.append_nil]
  exact h.body

theorem unsupported (h : Marks hs t) (what : String) (span : Span) :
    Marks (hs ++ [replacedItem what span]) (t.unsupported what span) := by
  refine ⟨?_, ?_⟩
  · rw [reported_append, ← h.findings]
    exact List.filter_append ..
  · rw [List.length_append, ← h.body, Tables.unsupported, List.filter_append, List.length_append]
    rfl

theorem place (h : Marks hs t) {m : Member} {r : Role} (hr : Becomes m r) :
    Marks (hs ++ (memberPlaceholder? m).toList) (t.place r) := by
  have hplain {item : BodyItem} (hitem : item ≠ .unsupported) :
      Marks (hs ++ []) { t with body := t.body ++ [item] } := by
    rw [List.append_nil]
    exact h.addBody hitem
  have hsame : Marks (hs ++ []) t := by
    rwa [List.append_nil]
  cases hr with
  | unnamedField hkey span | unnamedMethod hkey span =>
    rw [memberPlaceholder?, hkey]
    exact h.unsupported _ span
  | classOnly what span inside => exact h.unsupported _ span
  | field hkey | method hkey =>
    rw [memberPlaceholder?, hkey]
    exact hplain (by simp)
  | event hkey =>
    rw [memberPlaceholder?, hkey]
    exact { @hplain (.emit t.events.length) (by simp) with }
  | @lifecycle key name hook ds hkey hmeaning hhook span f ps =>
    rw [memberPlaceholder?, hkey]
    exact { @hplain (.lifecycle hook f) (by simp) with }
  | @setupHook key name ds hkey hmeaning hsetup span f ps =>
    have hnone : memberPlaceholder? (.method span ds .method key f ps) = none := by
      rw [memberPlaceholder?, hkey]
      rfl
    rw [hnone, Tables.place]
    split
    · exact hplain (by simp)
    · exact (List.append_nil t.body).symm ▸ hsame
  | ref hkey | input hkey | watcher hkey | getter hkey | setter hkey =>
    rw [memberPlaceholder?, hkey]
    exact { hsame with }
  | empty => exact hsame

variable {source : List Char} {denied : List String} {t' : Tables}

theorem addMember (h : Marks hs t) {m : Member} (hm : t.addMember source m = .ok t') :
    Marks (hs ++ (memberPlaceholder? m).toList) t' := by
  obtain ⟨⟨role, findings⟩, hrole, hm⟩ := bind_eq_ok.1 hm
  obtain rfl := Except.ok.inj hm
  obtain ⟨hbecomes, hdropped⟩ := becomes_of_memberRole hrole
  refine Marks.place (h.addFindings fun f hf => ?_) hbecomes
  obtain ⟨name, member, hcause⟩ := hdropped f hf
  rw [isReplacement, hcause]

theorem foldlM_addMember (h : Marks hs t) {members : List Member}
    (hmembers : members.foldlM (Tables.addMember source) t = .ok t') :
    Marks (hs ++ members.filterMap memberPlaceholder?) t' := by
  induction members generalizing hs t with
  | nil =>
    cases hmembers
    rwa [List.filterMap_nil, List.append_nil]
  | cons m members ih =>
    obtain ⟨t₁, hm, hmembers⟩ := bind_eq_ok.1 hmembers
    have hrest := ih (h.addMember hm) hmembers
    rw [List.filterMap_cons]
    cases hplaceholder : memberPlaceholder? m with
    | none | some p => simpa [hplaceholder] using hrest

theorem addItem (h : Marks hs t) {item : ModuleItem}
    (hitem : t.addItem source denied item = .ok t') :
    Marks (hs ++ itemPlaceholders item) t' := by
  cases item with
  | component c =>
    obtain ⟨t₁, hmembers, hitem⟩ := bind_eq_ok.1 hitem
    obtain rfl := Except.ok.inj hitem
    refine (Marks.foldlM_addMember ?_ hmembers).addFindings fun f hf => ?_
    · have hmixins := @addFindings hs t h (if extendsCall c then [⟨.mixins, c.span⟩] else []) ?_
      · exact { hmixins with }
      · intro f hf
        split at hf
        · cases List.mem_singleton.1 hf
          rfl
        · cases hf
    · obtain ⟨id, -, rfl⟩ := List.mem_map.1 hf
      rfl
  | importDecl decl =>
    cases hitem
    rw [itemPlaceholders, List.append_nil, Tables.addImport]
    split
    · exact h.addFindings (List.forall_mem_singleton.2 rfl)
    · exact { h with }
  | defaultDecl span =>
    cases hitem
    exact h.unsupported _ span
  | exportDecl | moduleDecl | stmt =>
    cases hitem
    rw [itemPlaceholders, List.append_nil]
    exact h.addBody (by simp)

theorem foldlM_addItem (h : Marks hs t) {items : List ModuleItem}
    (hitems : items.foldlM (Tables.addItem source denied) t = .ok t') :
    Marks (hs ++ modulePlaceholders items) t' := by
  induction items generalizing hs t with
  | nil =>
    cases hitems
    rwa [modulePlaceholders, List.flatMap_nil, List.append_nil]
  | cons item items ih =>
    obtain ⟨t₁, hitem, hitems⟩ := bind_eq_ok.1 hitems
    rw [modulePlaceholders, List.flatMap_cons, ← List.append_assoc]
    exact ih (h.addItem hitem) hitems

/-- The tables of a module mark what has nothing to become. -/
theorem ofModule {items : List ModuleItem} (h : Tables.ofModule source denied items = .ok t) :
    Marks (modulePlaceholders items) t :=
  @foldlM_addItem [] {} source denied t ⟨rfl, rfl⟩ items h

end Marks

end ScriptSetup.Setup
