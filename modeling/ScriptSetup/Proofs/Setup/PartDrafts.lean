import ScriptSetup.Proofs.Component.TableNodes
import ScriptSetup.Proofs.Setup.SoundDrafts

/-!
# Drafts of the parts of a document

What is written from the tables, as drafts. A member without a meaning outside a class leaves only
a mark in the body; its placeholder comes from the module.
-/

set_option autoImplicit false

namespace ScriptSetup.Setup

open Script Component Written Text

variable {α : Type}

/-! ## Drafts of entries -/

/-- The type of an input. -/
def inputTypeDraft (s : Scope) : InputType → Draft
  | .written t => typeDraft s t
  | .constructors names => Text.join " | " (names.map constructorType)
  | .unknown => "any"

/-- The entry of an input. -/
def inputEntryDraft (s : Scope) (i : Input) : Draft :=
  pad 1 ++ i.name ++ (if i.required then "" else "?") ++ ": " ++ inputTypeDraft s i.type ++ ","

/-- A function as an arrow function. -/
def arrowDraft (s : Scope) (level : Nat) (f : Func) : Draft :=
  asyncText f.isAsync ++ funcDraft s " => " level f

/-- The default value of an input, when it has one. -/
def fallbackDraft (s : Scope) (i : Input) : Option Draft :=
  match i.fallback with
  | none => none
  | some (.value e) => some (pad 1 ++ i.name ++ ": " ++ exprDraft s 1 e ++ ",")
  | some (.factory f) => some (pad 1 ++ i.name ++ ": " ++ arrowDraft s 1 f ++ ",")

/-- The declaration of the inputs from their default values. -/
def propsDraft (fallbacks : List Draft) : Draft :=
  if fallbacks.isEmpty then "const props = defineProps<Props>();"
  else "const props = withDefaults(defineProps<Props>(), \x7b\n" ++ Draft.join "\n" fallbacks
    ++ "\n\x7d);"

/-- The interface of the inputs and their declaration. -/
def inputDrafts (s : Scope) (inputs : List Input) : List Draft :=
  if inputs.isEmpty then []
  else
    [Draft.join "\n"
      (.text "interface Props \x7b" :: inputs.map (inputEntryDraft s) ++ [.text "\x7d"]),
      propsDraft (inputs.filterMap (fallbackDraft s))]

/-- The type that an event gives back. -/
def resultDraft (s : Scope) : Option TypeText → Draft
  | some t => typeDraft s t
  | none => "void"

/-- The call signature of an event. -/
def eventEntryDraft (s : Scope) (e : Event) : Draft :=
  pad 1 ++ "("
    ++ Draft.join ", " (.text ("e: " ++ quote e.event) :: patDrafts s 1 e.handler.params)
    ++ "): " ++ resultDraft s e.handler.returnType ++ ","

/-- The interface of the events and their declaration. -/
def eventDrafts (s : Scope) (events : List Event) : List Draft :=
  if events.isEmpty then []
  else
    [Draft.join "\n"
      (.text "interface Emits \x7b" :: events.map (eventEntryDraft s) ++ [.text "\x7d"]),
      .text "const emit = defineEmits<Emits>();"]

/-- The expression that passes a parameter on. -/
def forwardedDraft : Pat → Draft
  | .ident id _ _ => id.name
  | .rest _ arg _ => "..." ++ forwardedDraft arg
  | .withDefault _ left _ => forwardedDraft left
  | .array span _ _ | .object span _ _ => .replacedExpr "destructured event parameter" span
  | .expr e => .replacedExpr "destructured event parameter" e.span
  | .hole => .replacedExpr "destructured event parameter" default

/-- The method of an event. -/
def emitDraft (s : Scope) (e : Event) : Draft :=
  asyncText e.handler.isAsync ++ "function " ++ e.method ++ "("
    ++ Draft.join ", " (patDrafts s 0 e.handler.params) ++ ")"
    ++ typeAnnDraft s e.handler.returnType ++ " \x7b\n  emit("
    ++ Draft.join ", " (.text (quote e.event) :: e.handler.params.map forwardedDraft)
    ++ ");\n\x7d"

/-- What is watched. -/
def watchSourceDraft (s : Scope) : Expr → Draft
  | .string lit =>
    match splitOnce? '.' lit.value with
    | none => lit.value
    | some (head, rest) => "() => " ++ s.selfAccess head ++ "." ++ rest
  | e => exprDraft s 0 e

/-- The options of a watcher, or nothing. -/
def watchOptionsDraft (s : Scope) : Option Expr → Draft
  | some e => ", " ++ exprDraft s 0 e
  | none => ""

/-- The registration of a watcher. -/
def watchDraft (s : Scope) (w : Watcher) : Draft :=
  "watch(" ++ watchSourceDraft s w.target ++ ", " ++ arrowDraft s 0 w.handler
    ++ watchOptionsDraft s w.options ++ ");"

/-- The line of a computed value that reads it, when there is one. -/
def getterDrafts (s : Scope) : Option Func → List Draft
  | some getter => [pad 1 ++ "get: " ++ arrowDraft s 1 getter ++ ","]
  | none => []

/-- The binding of a computed value, when there is anything to bind. -/
def computedDraft (s : Scope) (a : Accessor) : Option Draft :=
  match a.getter, a.setter with
  | none, none => none
  | some getter, none =>
    some ("const " ++ a.name ++ " = computed(" ++ arrowDraft s 0 getter ++ ");")
  | getter, some setter =>
    some (Draft.join "\n" (.text ("const " ++ a.name ++ " = computed(\x7b") :: getterDrafts s getter
      ++ [pad 1 ++ "set: " ++ arrowDraft s 1 setter ++ ",", .text "\x7d);"]))

/-- The type of a piece of state, or nothing. -/
def refTypeDraft (s : Scope) : Option TypeText → Draft
  | some t => "<" ++ typeDraft s t ++ ">"
  | none => ""

/-- The first value of a piece of state, or nothing. -/
def refInitDraft (s : Scope) : Option Expr → Draft
  | some e => exprDraft s 0 e
  | none => ""

/-- The binding of a piece of state. -/
def refDraft (s : Scope) (f : RefField) : Draft :=
  "const " ++ f.name ++ " = ref" ++ refTypeDraft s f.type ++ "(" ++ refInitDraft s f.init ++ ");"

/-- A field without a meaning of its own. -/
def fieldDraft (s : Scope) (name : String) (isReadonly : Bool) (type : Option TypeText) :
    Option Expr → Draft
  | none => "let " ++ name ++ typeAnnDraft s type ++ ";"
  | some e =>
    (if isReadonly then "const " else "let ") ++ name ++ typeAnnDraft s type ++ " = "
      ++ exprDraft s 0 e ++ ";"

/-- An exported declaration. -/
def exportDraft (s : Scope) (span : Span) : Stmt → Draft
  | .typeDecl .interface _ _ | .typeDecl .alias _ _ => copiedDraft s "type export" span
  | decl => stmtDraft s 0 decl

/-- An item of the body. -/
def bodyDraft (s : Scope) (events : List Event) : BodyItem → Draft
  | .stmt stmt => stmtDraft s 0 stmt
  | .exportDecl span decl => exportDraft s span decl
  | .moduleDecl span => .replacedStmt "module declaration" span
  | .field name isReadonly type value => fieldDraft s name isReadonly type value
  | .method name f =>
    asyncText f.isAsync ++ "function" ++ starText f.isGenerator ++ " " ++ name
      ++ funcDraft s " " 0 f
  | .lifecycle hook f => hook ++ "(" ++ arrowDraft s 0 f ++ ");"
  | .hoisted body => .hoisted (body.map (stmtDraft s 0))
  | .emit index =>
    match events[index]? with
    | some e => emitDraft s e
    | none => ""
  | .unsupported => .hole ⟨stmtPlaceholder, default, none⟩

/-- The items of the body, with these placeholders where something was replaced. -/
def bodyDrafts (s : Scope) (events : List Event) : List BodyItem → List Placeholder → List Draft
  | [], _ => []
  | .unsupported :: items, h :: hs => .hole h :: bodyDrafts s events items hs
  | item :: items, hs => bodyDraft s events item :: bodyDrafts s events items hs

/-! ## Entries are written as drafted -/

@[simp] theorem value_pure (a : α) : (pure a : Written α).value = a := rfl

variable {p : FindingCause → Bool}

theorem gives_all {β : Type} {f : α → Written β} {value : α → β} {findings : α → List Finding}
    (h : ∀ a, Gives p (f a) (value a) (findings a)) (as : List α) :
    Gives p (all f as) (as.map value) (as.flatMap findings) := by
  induction as with
  | nil => exact .of []
  | cons a as ih => exact (h a).bind ih.last

theorem reported_flatMap (holes : α → List Placeholder) (as : List α) :
    reported (as.flatMap holes) = as.flatMap fun a => reported (holes a) := by
  induction as with
  | nil => rfl
  | cons a as ih => rw [List.flatMap_cons, reported_append, ih, List.flatMap_cons]

theorem drafted_all {f : α → Written String} {draft : α → Draft}
    (h : ∀ a, Drafted p (f a) (draft a)) (as : List α) :
    AllDrafted p (all f as) (as.map draft) := by
  refine (gives_all h as).congr ?_ ?_
  · rw [List.map_map]
    rfl
  · rw [List.flatMap_map, reported_flatMap]

/-- A text that may be missing is that of the draft. -/
def OptionDrafted (p : FindingCause → Bool) (w : Written (Option String)) (d : Option Draft) :
    Prop :=
  Gives p w (d.map (Draft.textWith Placeholder.text)) (reported (d.toList.flatMap Draft.holes))

theorem filterMap_texts (draft : α → Option Draft) (as : List α) :
    (as.map fun a => (draft a).map (Draft.textWith Placeholder.text)).filterMap id =
      (as.filterMap draft).map (Draft.textWith Placeholder.text) := by
  rw [List.filterMap_map, List.map_filterMap]
  rfl

theorem flatMap_reported (draft : α → Option Draft) (as : List α) :
    (as.flatMap fun a => reported ((draft a).toList.flatMap Draft.holes)) =
      reported ((as.filterMap draft).flatMap Draft.holes) := by
  induction as with
  | nil => rfl
  | cons a as ih =>
    rw [List.flatMap_cons, List.filterMap_cons, ih]
    cases draft a <;> simp

section

variable (s : Scope)

variable {events : List Event} {f : Func} {item : BodyItem}

theorem arrowFunction_drafted (level : Nat) (f : Func) :
    Drafted isPlainCause (arrowFunction s level f) (arrowDraft s level f) :=
  (func_drafted s f).last.congr (by simp [arrowDraft]) (by simp [arrowDraft])

@[simp] theorem textWith_inputEntryDraft (i : Input) :
    (inputEntryDraft s i).textWith Placeholder.text = inputEntry s i := by
  cases htype : i.type <;> simp [inputEntryDraft, inputEntry, inputTypeDraft, inputTypeText, htype]

@[simp] theorem reported_inputEntryDraft (i : Input) :
    reported (inputEntryDraft s i).holes = [] := by
  cases htype : i.type <;> simp [inputEntryDraft, inputTypeDraft, htype]

theorem inputFallback_drafted (i : Input) :
    OptionDrafted isPlainCause (inputFallback s i) (fallbackDraft s i) := by
  rw [inputFallback, fallbackDraft]
  match i.fallback with
  | none => exact .of none
  | some (.value e) => exact (expr_drafted s e).last.congr (by simp) (by simp)
  | some (.factory f) => exact (arrowFunction_drafted s 1 f).last.congr (by simp) (by simp)

theorem textWith_propsDraft (fill : Placeholder → String) (fallbacks : List Draft) :
    (propsDraft fallbacks).textWith fill =
      if fallbacks.isEmpty then "const props = defineProps<Props>();"
      else "const props = withDefaults(defineProps<Props>(), \x7b\n"
        ++ Text.join "\n" (fallbacks.map (Draft.textWith fill)) ++ "\n\x7d);" := by
  rw [propsDraft]
  split <;> simp

@[simp] theorem holes_propsDraft (fallbacks : List Draft) :
    (propsDraft fallbacks).holes = fallbacks.flatMap Draft.holes := by
  cases fallbacks with
  | nil => rfl
  | cons d ds => simp [propsDraft]

theorem inputDeclarations_drafted (inputs : List Input) :
    AllDrafted isPlainCause (inputDeclarations s inputs) (inputDrafts s inputs) := by
  rw [inputDeclarations, inputDrafts]
  split
  · exact .of []
  · have hentries : inputs.map (inputEntry s) =
        (inputs.map (inputEntryDraft s)).map (Draft.textWith Placeholder.text) := by
      simp
    have hsilent : reported ((inputs.map (inputEntryDraft s)).flatMap Draft.holes) = [] := by
      rw [List.flatMap_map, reported_flatMap]
      simp
    refine (gives_all (inputFallback_drafted s) inputs).last.congr ?_ ?_
    · simp only [filterMap_texts, hentries]
      simp [textWith_propsDraft]
    · rw [flatMap_reported]
      simp [hsilent]

theorem eventEntry_drafted (e : Event) :
    Drafted isPlainCause (eventEntry s e) (eventEntryDraft s e) := by
  refine (pats_drafted s e.handler.params).last.congr ?_ ?_
  · cases hresult : e.handler.returnType <;> simp [eventEntryDraft, resultDraft, hresult]
  · cases hresult : e.handler.returnType <;> simp [eventEntryDraft, resultDraft, hresult]

theorem eventDeclarations_drafted (events : List Event) :
    AllDrafted isPlainCause (eventDeclarations s events) (eventDrafts s events) := by
  rw [eventDeclarations, eventDrafts]
  split
  · exact .of []
  · exact (drafted_all (eventEntry_drafted s) events).last.congr (by simp) (by simp)

theorem forwarded_drafted : ∀ p : Pat,
    Drafted isWritingCause (forwarded p) (forwardedDraft p)
  | .ident _ _ _ => .of _
  | .rest _ arg _ =>
    (forwarded_drafted arg).last.congr (by simp [forwardedDraft]) (by simp [forwardedDraft])
  | .withDefault _ left _ => forwarded_drafted left
  | .array _ _ _ | .object _ _ _ | .expr _ | .hole => drafted_unsupportedExpr _ (by decide)

theorem emitMethod_drafted (e : Event) :
    Drafted isWritingCause (emitMethod s e) (emitDraft s e) :=
  ((pats_drafted s e.handler.params).writing.bind
    (drafted_all forwarded_drafted e.handler.params).last).congr
    (by simp [emitDraft]) (by simp [emitDraft])

theorem watchSource_drafted (e : Expr) :
    Drafted isPlainCause (watchSource s e) (watchSourceDraft s e) := by
  cases e with
  | string lit =>
    rw [watchSource, watchSourceDraft]
    cases splitOnce? '.' lit.value with
    | none => exact .of _
    | some parts => exact (Gives.of _).congr (by simp) (by simp)
  | _ => exact expr_drafted s _

theorem watchRegistration_drafted (w : Watcher) :
    Drafted isPlainCause (watchRegistration s w) (watchDraft s w) := by
  rw [watchRegistration, watchDraft]
  cases w.options with
  | none =>
    exact ((watchSource_drafted s w.target).bind ((arrowFunction_drafted s 0 w.handler).bind
      (Gives.of "").last)).congr (by simp [watchOptionsDraft]) (by simp [watchOptionsDraft])
  | some e =>
    exact ((watchSource_drafted s w.target).bind ((arrowFunction_drafted s 0 w.handler).bind
      ((expr_drafted s e).bind (Gives.of _).last))).congr
      (by simp [watchOptionsDraft]) (by simp [watchOptionsDraft])

theorem computedBinding_drafted (a : Accessor) :
    OptionDrafted isPlainCause (computedBinding s a) (computedDraft s a) := by
  rw [computedBinding, computedDraft]
  match a.getter, a.setter with
  | none, none => exact .of none
  | some getter, none => exact (arrowFunction_drafted s 0 getter).last.congr (by simp) (by simp)
  | some getter, some setter =>
    exact ((arrowFunction_drafted s 1 getter).bind ((Gives.of _).bind
      (arrowFunction_drafted s 1 setter).last)).congr
      (by simp [getterDrafts]) (by simp [getterDrafts])
  | none, some setter =>
    have hfinding : Gives isPlainCause (finding (.setterOnly a.name) setter.span) () [] :=
      ⟨rfl, rfl, .single rfl⟩
    exact (hfinding.bind ((Gives.of []).bind (arrowFunction_drafted s 1 setter).last)).congr
      (by simp [getterDrafts]) (by simp [getterDrafts])

theorem refBinding_drafted (f : RefField) :
    Drafted isPlainCause (refBinding s f) (refDraft s f) := by
  rw [refBinding, refDraft]
  cases f.init with
  | none =>
    refine (Gives.of "").last.congr ?_ ?_
    · cases f.type <;> simp [refTypeDraft, refInitDraft]
    · cases f.type <;> simp [refTypeDraft, refInitDraft]
  | some e =>
    refine (expr_drafted s e).last.congr ?_ ?_
    · cases f.type <;> simp [refTypeDraft, refInitDraft]
    · cases f.type <;> simp [refTypeDraft, refInitDraft]

theorem fieldText_drafted (name : String) (isReadonly : Bool) (type : Option TypeText)
    (value : Option Expr) :
    Drafted isPlainCause (fieldText s name isReadonly type value)
      (fieldDraft s name isReadonly type value) := by
  cases value with
  | none => exact (Gives.of _).congr (by simp [fieldDraft]) (by simp [fieldDraft])
  | some e =>
    exact (expr_drafted s e).last.congr (by simp [fieldDraft]) (by simp [fieldDraft])

theorem exportText_drafted (span : Span) (decl : Stmt) :
    Drafted isPlainCause (exportText s span decl) (exportDraft s span decl) := by
  have hfinding : Gives isPlainCause (finding .removedExport span) () [] :=
    ⟨rfl, rfl, .single rfl⟩
  have hplain : Drafted isPlainCause (finding .removedExport span >>= fun _ => stmtText s 0 decl)
      (stmtDraft s 0 decl) := hfinding.bind (stmt_drafted s decl)
  cases decl with
  | typeDecl kind span' inside =>
    match kind with
    | .interface | .alias => exact drafted_copied s span (by decide)
    | .enum | .namespace => exact hplain
  | _ => exact hplain

/-- The causes of findings about an item of the body. -/
def bodyCause : BodyItem → FindingCause → Bool
  | .emit _ => isWritingCause
  | _ => isPlainCause

theorem bodyText_drafted (events : List Event) (h : item ≠ .unsupported) :
    Drafted (bodyCause item) (bodyText s events item) (bodyDraft s events item) := by
  cases item with
  | stmt stmt => exact stmt_drafted s stmt
  | exportDecl span decl => exact exportText_drafted s span decl
  | moduleDecl span => exact drafted_unsupportedStmt span rfl
  | field name isReadonly type value => exact fieldText_drafted s name isReadonly type value
  | method name f =>
    exact (func_drafted s f).last.congr (by simp [bodyDraft]) (by simp [bodyDraft])
  | lifecycle hook f =>
    exact (arrowFunction_drafted s 0 f).last.congr (by simp [bodyDraft]) (by simp [bodyDraft])
  | hoisted body =>
    exact (drafted_all (stmt_drafted s) body).last.congr (by simp [bodyDraft])
      (by simp [bodyDraft])
  | emit index =>
    rw [bodyText, bodyDraft]
    cases events[index]? with
    | some e => exact emitMethod_drafted s e
    | none => exact .of ""
  | unsupported => cases h rfl

theorem bodyText_caused (events : List Event) (item : BodyItem) :
    CausedBy (bodyCause item) (bodyText s events item) := by
  by_cases h : item = .unsupported
  · rw [h]
    exact .of stmtPlaceholder
  · exact (bodyText_drafted s events h).caused

/-- What is reported while the tables are written. -/
theorem writeParts_caused (t : Tables) : CausedBy isWritingCause (writeParts s t) := by
  have hbody (item : BodyItem) : CausedBy isWritingCause (bodyText s t.events item) := by
    refine (bodyText_caused s t.events item).mono fun cause h => ?_
    cases item with
    | emit index => exact h
    | _ => exact isWritingCause_of_plain h
  exact (inputDeclarations_drafted s t.inputs).writing.caused.bind
    ((eventDeclarations_drafted s t.events).writing.caused.bind
      ((CausedBy.all (fun w => (watchRegistration_drafted s w).writing.caused) t.watchers).bind
        ((CausedBy.all (fun a => (computedBinding_drafted s a).writing.caused) t.accessors).bind
          ((CausedBy.all hbody t.body).bind
            ((CausedBy.all (fun f => (refBinding_drafted s f).writing.caused) t.refs).bind
              (.of _))))))

/-- Something was replaced by a placeholder. -/
def isUnsupported : BodyItem → Bool
  | .unsupported => true
  | _ => false

theorem not_isUnsupported (h : item ≠ .unsupported) : ¬ isUnsupported item = true := by
  cases item with
  | unsupported => cases h rfl
  | _ => exact nofun

theorem bodyDrafts_cons {s : Scope} (h : item ≠ .unsupported) (items : List BodyItem)
    (hs : List Placeholder) : bodyDrafts s events (item :: items) hs =
      bodyDraft s events item :: bodyDrafts s events items hs := by
  cases item with
  | unsupported => cases h rfl
  | _ => rfl

theorem findings_all_cons {α β : Type} (f : α → Written β) (a : α) (as : List α) :
    (all f (a :: as)).findings = (f a).findings ++ (all f as).findings :=
  congrArg ((f a).findings ++ ·) (List.append_nil _)

/-- The body is written as drafted. The findings about members were made before. -/
theorem body_drafted (events : List Event) {items : List BodyItem} {hs : List Placeholder}
    (hlength : (items.filter isUnsupported).length = hs.length)
    (htext : ∀ h ∈ hs, h.text = stmtPlaceholder) :
    (all (bodyText s events) items).value =
      (bodyDrafts s events items hs).map (Draft.textWith Placeholder.text) ∧
    (reported hs ++ (all (bodyText s events) items).findings.filter isReplacement).Perm
      (reported ((bodyDrafts s events items hs).flatMap Draft.holes)) := by
  induction items generalizing hs with
  | nil =>
    obtain rfl := List.length_eq_zero_iff.1 hlength.symm
    exact ⟨rfl, .nil⟩
  | cons item items ih =>
    by_cases hitem : item = .unsupported
    · subst hitem
      cases hs with
      | nil => cases hlength
      | cons h hs =>
        obtain ⟨hh, hhs⟩ := List.forall_mem_cons.1 htext
        obtain ⟨hvalue, hperm⟩ := ih (Nat.succ.inj hlength) hhs
        refine ⟨?_, ?_⟩
        · show stmtPlaceholder :: (all (bodyText s events) items).value = h.text :: _
          rw [hvalue, hh]
        · rw [findings_all_cons]
          show (reported ([h] ++ hs) ++ _).Perm (reported ([h] ++ _))
          rw [reported_append, reported_append, List.append_assoc]
          exact hperm.append_left _
    · obtain ⟨hvalue, hfindings, -⟩ := bodyText_drafted s events hitem
      rw [List.filter_cons_of_neg (not_isUnsupported hitem)] at hlength
      obtain ⟨hvalues, hperm⟩ := ih hlength htext
      rw [bodyDrafts_cons hitem]
      refine ⟨?_, ?_⟩
      · show (bodyText s events item).value :: (all (bodyText s events) items).value = _
        rw [hvalue, hvalues, List.map_cons]
      · rw [findings_all_cons, List.filter_append, hfindings, List.flatMap_cons, reported_append]
        exact (List.perm_append_comm_assoc ..).trans (hperm.append_left _)

/-! ## Sound drafts of entries -/

variable {s}

theorem sound_arrowDraft {level : Nat} (h : NodesSound s.source (funcNodes f)) :
    (arrowDraft s level f).Sound := by
  simpa [arrowDraft] using @func_sound s " => " level f h

theorem sound_inputEntryDraft {i : Input} (h : NodesSound s.source (inputNodes i)) :
    (inputEntryDraft s i).Sound := by
  have htype : (inputTypeDraft s i.type).Sound := by
    rw [inputNodes, nodesSound_append] at h
    cases htype : i.type with
    | written t =>
      rw [htype] at h
      exact sound_typeDraft (h.1 (.type t) List.mem_cons_self)
    | constructors names | unknown => trivial
  simpa [inputEntryDraft] using htype

theorem sound_fallbackDraft {i : Input} (h : NodesSound s.source (inputNodes i)) :
    ∀ d ∈ fallbackDraft s i, d.Sound := by
  rw [inputNodes, nodesSound_append] at h
  rw [fallbackDraft]
  cases hfallback : i.fallback with
  | none => rintro d ⟨⟩
  | some fallback =>
    rw [hfallback] at h
    rintro d hd
    cases fallback with
    | value e =>
      cases hd
      simpa using @expr_sound s 1 e h.2
    | factory f =>
      cases hd
      simpa using sound_arrowDraft h.2

theorem sound_inputDrafts {inputs : List Input}
    (h : NodesSound s.source (inputs.flatMap inputNodes)) :
    draftsSound (inputDrafts s inputs) := by
  have hinput : ∀ i ∈ inputs, NodesSound s.source (inputNodes i) := fun i hi n hn =>
    h n (List.mem_flatMap.2 ⟨i, hi, hn⟩)
  rw [inputDrafts]
  split
  · trivial
  · have hfallbacks : (propsDraft (inputs.filterMap (fallbackDraft s))).Sound := by
      rw [propsDraft]
      split
      · trivial
      · simp only [Draft.sound_append, Draft.sound_text, Draft.sound_join, true_and, and_true,
          draftsSound_iff, List.forall_mem_filterMap]
        exact fun i hi d hd => sound_fallbackDraft (hinput i hi) d hd
    simp only [draftsSound_iff, List.forall_mem_cons]
    refine ⟨?_, hfallbacks, List.forall_mem_nil _⟩
    simp only [Draft.sound_join, draftsSound_iff, List.mem_append, List.mem_cons, List.mem_map]
    rintro d ((rfl | ⟨i, hi, rfl⟩) | rfl | hd)
    · trivial
    · exact sound_inputEntryDraft (hinput i hi)
    · trivial
    · cases hd

theorem params_sound {level : Nat} (h : NodesSound s.source (funcNodes f)) :
    draftsSound (patDrafts s level f.params) := by
  cases f
  simp only [funcNodes, nodesSound_append] at h
  exact pats_sound s _ h.1.1.2

theorem returnType_sound (h : NodesSound s.source (funcNodes f)) :
    NodesSound s.source (typeNodes f.returnType) := by
  cases f
  simp only [funcNodes, nodesSound_append] at h
  exact h.1.2

theorem sound_eventEntryDraft {e : Event} (h : NodesSound s.source (eventNodes e)) :
    (eventEntryDraft s e).Sound := by
  have hresult : (resultDraft s e.handler.returnType).Sound := by
    have htype := returnType_sound h
    cases hreturn : e.handler.returnType with
    | none => trivial
    | some t =>
      rw [hreturn] at htype
      exact sound_typeDraft (htype (.type t) List.mem_cons_self)
  simp [eventEntryDraft, draftsSound, hresult, params_sound h]

theorem sound_eventDrafts (h : NodesSound s.source (events.flatMap eventNodes)) :
    draftsSound (eventDrafts s events) := by
  rw [eventDrafts]
  split
  · trivial
  · refine ⟨?_, trivial, trivial⟩
    simp only [Draft.sound_join, draftsSound_iff, List.mem_append, List.mem_cons, List.mem_map]
    rintro d ((rfl | ⟨e, he, rfl⟩) | rfl | hd)
    · trivial
    · exact sound_eventEntryDraft fun n hn => h n (List.mem_flatMap.2 ⟨e, he, hn⟩)
    · trivial
    · cases hd

theorem sound_forwardedDraft : ∀ p : Pat, (forwardedDraft p).Sound
  | .ident _ _ _ => trivial
  | .rest _ arg _ => by simpa [forwardedDraft] using sound_forwardedDraft arg
  | .withDefault _ left _ => sound_forwardedDraft left
  | .array _ _ _ | .object _ _ _ | .expr _ | .hole => Draft.sound_replacedExpr _ _

theorem sound_emitDraft {e : Event} (h : NodesSound s.source (eventNodes e)) :
    (emitDraft s e).Sound := by
  have hforwarded : draftsSound (e.handler.params.map forwardedDraft) :=
    (draftsSound_iff _).2 (List.forall_mem_map.2 fun p _ => sound_forwardedDraft p)
  simp [emitDraft, draftsSound, hforwarded, params_sound h,
    sound_typeAnnDraft (returnType_sound h)]

theorem sound_watchDraft {w : Watcher} (h : NodesSound s.source (watcherNodes w)) :
    (watchDraft s w).Sound := by
  simp only [watcherNodes, nodesSound_append] at h
  obtain ⟨⟨htarget, hoptions⟩, hhandler⟩ := h
  have hsource : (watchSourceDraft s w.target).Sound := by
    cases hw : w.target with
    | string lit =>
      rw [watchSourceDraft]
      split <;> simp
    | _ =>
      rw [hw] at htarget
      exact expr_sound s _ htarget
  have hoptions : (watchOptionsDraft s w.options).Sound := by
    cases hw : w.options with
    | none => trivial
    | some e =>
      rw [hw] at hoptions
      simpa [watchOptionsDraft] using @expr_sound s 0 e hoptions
  simp [watchDraft, hsource, hoptions, sound_arrowDraft hhandler]

theorem sound_computedDraft {a : Accessor} (h : NodesSound s.source (accessorNodes a)) :
    ∀ d ∈ computedDraft s a, d.Sound := by
  rw [accessorNodes, nodesSound_append] at h
  have hgetter : ∀ f, a.getter = some f → NodesSound s.source (funcNodes f) := by
    intro f hf n hn
    exact h.1 n (by simp [hf, hn])
  have hsetter : ∀ f, a.setter = some f → NodesSound s.source (funcNodes f) := by
    intro f hf n hn
    exact h.2 n (by simp [hf, hn])
  rw [computedDraft]
  cases hg : a.getter with
  | none =>
    cases hs : a.setter with
    | none => rintro d ⟨⟩
    | some setter =>
      rintro d hd
      cases hd
      simp [draftsSound, getterDrafts, sound_arrowDraft (hsetter setter hs)]
  | some getter =>
    cases hs : a.setter with
    | none =>
      rintro d hd
      cases hd
      simp [sound_arrowDraft (hgetter getter hg)]
    | some setter =>
      rintro d hd
      cases hd
      simp [draftsSound, getterDrafts, sound_arrowDraft (hgetter getter hg),
        sound_arrowDraft (hsetter setter hs)]

theorem sound_refDraft {f : RefField} (h : NodesSound s.source (refNodes f)) :
    (refDraft s f).Sound := by
  rw [refNodes, nodesSound_append] at h
  have htype : (refTypeDraft s f.type).Sound := by
    cases hf : f.type with
    | none => trivial
    | some t =>
      rw [hf] at h
      simpa [refTypeDraft] using sound_typeDraft (h.1 (.type t) List.mem_cons_self)
  have hinit : (refInitDraft s f.init).Sound := by
    cases hf : f.init with
    | none => trivial
    | some e =>
      rw [hf] at h
      exact expr_sound s e h.2
  simp [refDraft, htype, hinit]

theorem sound_fieldDraft {name : String} {isReadonly : Bool} {type : Option TypeText}
    {value : Option Expr} (h : NodesSound s.source (typeNodes type ++ optionNodes value)) :
    (fieldDraft s name isReadonly type value).Sound := by
  obtain ⟨htype, hvalue⟩ := nodesSound_append.1 h
  cases value with
  | none => simp [fieldDraft, sound_typeAnnDraft htype]
  | some e => simp [fieldDraft, sound_typeAnnDraft htype, @expr_sound s 0 e hvalue]

theorem sound_exportDraft {span : Span} {decl : Stmt} (h : NodesSound s.source (stmtNodes decl)) :
    (exportDraft s span decl).Sound := by
  rw [exportDraft.eq_def]
  split
  · exact sound_copiedDraft s "type export" span
  · exact sound_copiedDraft s "type export" span
  · exact stmt_sound s decl h

theorem sound_bodyDraft (hevents : NodesSound s.source (events.flatMap eventNodes))
    (h : NodesSound s.source (bodyNodes item)) (hitem : item ≠ .unsupported) :
    (bodyDraft s events item).Sound := by
  cases item with
  | stmt stmt => exact stmt_sound s stmt h
  | exportDecl span decl => exact sound_exportDraft h
  | moduleDecl span => exact Draft.sound_replacedStmt _ _
  | field name isReadonly type value => exact sound_fieldDraft h
  | method name f => simpa [bodyDraft] using @func_sound s " " 0 f h
  | lifecycle hook f => simpa [bodyDraft] using sound_arrowDraft h
  | hoisted body =>
    simp only [bodyDraft, Draft.sound_hoisted, draftsSound_iff, List.forall_mem_map]
    intro stmt hstmt
    refine @stmt_sound s 0 stmt fun n hn => h n ?_
    rw [bodyNodes, stmtsNodes_eq_flatMap]
    exact List.mem_flatMap.2 ⟨stmt, hstmt, hn⟩
  | emit index =>
    rw [bodyDraft]
    split
    · rename_i e he
      exact sound_emitDraft fun n hn =>
        hevents n (List.mem_flatMap.2 ⟨e, List.mem_of_getElem? he, hn⟩)
    · trivial
  | unsupported => cases hitem rfl

theorem sound_bodyDrafts {items : List BodyItem} {hs : List Placeholder}
    (hlength : (items.filter isUnsupported).length = hs.length) (hreported : ∀ h ∈ hs, h.Reported)
    (hevents : NodesSound s.source (events.flatMap eventNodes))
    (hitems : NodesSound s.source (items.flatMap bodyNodes)) :
    draftsSound (bodyDrafts s events items hs) := by
  induction items generalizing hs with
  | nil => trivial
  | cons item items ih =>
    rw [List.flatMap_cons, nodesSound_append] at hitems
    by_cases hitem : item = .unsupported
    · subst hitem
      cases hs with
      | nil => cases hlength
      | cons h hs =>
        obtain ⟨hh, hhs⟩ := List.forall_mem_cons.1 hreported
        exact ⟨hh, ih (Nat.succ.inj hlength) hhs hitems.2⟩
    · rw [List.filter_cons_of_neg (not_isUnsupported hitem)] at hlength
      rw [bodyDrafts_cons hitem]
      exact ⟨sound_bodyDraft hevents hitems.1 hitem, ih hlength hreported hitems.2⟩

end

end ScriptSetup.Setup
