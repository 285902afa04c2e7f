import ScriptSetup.Proofs.Component.TableFindings
import ScriptSetup.Proofs.Script.ModuleReaders
import ScriptSetup.Proofs.Setup.Bindings
import ScriptSetup.Proofs.Setup.DocumentLayout
import ScriptSetup.Proofs.Setup.PartDrafts

/-!
# The methods of events

A method that raises an event is written as a function in its place. The function calls `emit` with
the name of the event, which the call signature of the event gives too, and with every parameter.
Its head is that of any other function unless the method is a generator or has type parameters:
these are left out.
-/

set_option autoImplicit false

namespace ScriptSetup.Setup

open Script Component Component.Tables Written Text

/-! ## Parameters -/

/-- The name that a parameter binds, without its default and its dots. -/
def boundName? : Pat → Option String
  | .ident id _ _ => some id.name
  | .rest _ p _ | .withDefault _ p _ => boundName? p
  | .hole | .array _ _ _ | .object _ _ _ | .expr _ => none

/-- Where the pattern is when a parameter takes its value apart. -/
def patternSpan? : Pat → Option Span
  | .array span _ _ | .object span _ _ => some span
  | .rest _ p _ | .withDefault _ p _ => patternSpan? p
  | .hole | .ident _ _ _ | .expr _ => none

/-- The dots of a rest. -/
def dots (p : Pat) : String := if p.isRest then "..." else ""

/-- The text passes a parameter on: its name with its dots, or a placeholder where there is no
name. -/
inductive Passes (p : Pat) : String → Prop where
  | name {name : String} (h : boundName? p = some name) : Passes p (dots p ++ name)
  | pattern {span : Span} (h : patternSpan? p = some span) : Passes p (dots p ++ exprPlaceholder)

/-- The finding about a parameter that takes its value apart. -/
def parameterFinding (span : Span) : Finding :=
  ⟨.replacedExpr "destructured event parameter", span⟩

theorem dots_of_isBinding {p : Pat} (h : p.isBinding = true) : dots p = "" := by
  cases p with
  | ident | array | object => rfl
  | hole | rest | withDefault | expr => cases h

/-- What a name or a pattern is passed on as does not depend on a default or on dots around it. -/
theorem forwarded_binding {p : Pat} (h : p.isBinding = true) :
    (boundName? p = some (forwarded p).value ∧ patternSpan? p = none ∧
        (forwarded p).findings = []) ∨
      ∃ span, patternSpan? p = some span ∧ (forwarded p).value = exprPlaceholder ∧
        (forwarded p).findings = [parameterFinding span] := by
  cases p with
  | ident => exact .inl ⟨rfl, rfl, rfl⟩
  | array span | object span => exact .inr ⟨span, rfl, rfl, rfl⟩
  | hole | rest | withDefault | expr => cases h

/-- A parameter around a name or a pattern. -/
theorem passes_of_isBinding {p q : Pat} (hq : q.isBinding = true)
    (hname : boundName? p = boundName? q) (hspan : patternSpan? p = patternSpan? q) :
    Passes p (dots p ++ (forwarded q).value) := by
  rcases forwarded_binding hq with ⟨hbound, -, -⟩ | ⟨span, hpattern, hvalue, -⟩
  · exact .name (hname.trans hbound)
  · rw [hvalue]
    exact .pattern (hspan.trans hpattern)

theorem isParam_cases {p : Pat} (h : p.isParam = true) :
    p.isBinding = true ∨ (∃ span q e, p = .withDefault span q e ∧ q.isBinding = true) ∨
      ∃ span q t, p = .rest span q t ∧ q.isBinding = true := by
  cases p with
  | withDefault span q e => exact .inr (.inl ⟨span, q, e, rfl, h⟩)
  | rest span q t => exact .inr (.inr ⟨span, q, t, rfl, h⟩)
  | ident | array | object | hole | expr => exact .inl h

/-- Every parameter is passed on. -/
theorem forwarded_passes {p : Pat} (h : p.isParam = true) : Passes p (forwarded p).value := by
  rcases isParam_cases h with hp | ⟨span, q, e, rfl, hq⟩ | ⟨span, q, t, rfl, hq⟩
  · have hpasses := passes_of_isBinding hp rfl rfl
    rwa [dots_of_isBinding hp, String.empty_append] at hpasses
  · have hdots : dots (.withDefault span q e) = "" := rfl
    have hpasses := passes_of_isBinding (p := .withDefault span q e) hq rfl rfl
    rwa [hdots, String.empty_append] at hpasses
  · exact passes_of_isBinding (p := .rest span q t) hq rfl rfl

/-- A parameter is reported exactly when it takes its value apart. -/
theorem findings_forwarded {p : Pat} (h : p.isParam = true) :
    (forwarded p).findings = (patternSpan? p).toList.map parameterFinding := by
  have hbinding {q : Pat} (hq : q.isBinding = true) :
      (forwarded q).findings = (patternSpan? q).toList.map parameterFinding := by
    rcases forwarded_binding hq with ⟨-, hspan, hfindings⟩ | ⟨span, hspan, -, hfindings⟩
    · rw [hspan, hfindings]
      rfl
    · rw [hspan, hfindings]
      rfl
  rcases isParam_cases h with hp | ⟨span, q, e, rfl, hq⟩ | ⟨span, q, t, rfl, hq⟩
  · exact hbinding hp
  · have hforwarded : forwarded (.withDefault span q e) = forwarded q := rfl
    rw [hforwarded]
    exact hbinding hq
  · exact (List.append_nil _).trans (hbinding hq)

/-! ## Texts -/

/-- The head of a function: all that stands before its body. -/
def functionHead (s : Scope) (name : String) (f : Func) : String :=
  asyncText f.isAsync ++ "function" ++ starText f.isGenerator ++ " " ++ name
    ++ s.typeList f.typeParams ++ "(" ++ join ", " (patTexts s 0 f.params).value ++ ")"
    ++ s.typeAnn f.returnType ++ " "

/-- The head without what tells a generator and without type parameters. -/
def plainHead (s : Scope) (name : String) (f : Func) : String :=
  asyncText f.isAsync ++ "function " ++ name ++ "(" ++ join ", " (patTexts s 0 f.params).value
    ++ ")" ++ s.typeAnn f.returnType ++ " "

/-- The call that raises an event. -/
def raiseText (e : Event) (args : List String) : String :=
  "emit(" ++ join ", " (quote e.event :: args) ++ ");"

/-- The call signature of an event in the interface of the events. -/
def callSignature (s : Scope) (e : Event) : String :=
  pad 1 ++ "(" ++ join ", " (("e: " ++ quote e.event) :: (patTexts s 1 e.handler.params).value)
    ++ "): " ++ (e.handler.returnType.map s.typeText).getD "void" ++ ","

section

variable (s : Scope)

theorem functionDecl_value (name : String) (f : Func) :
    (functionDecl s 0 name f).value =
      functionHead s name f ++ blockText 0 (blockLines s 1 f.body).value := by
  obtain ⟨span, isAsync, isGenerator, tps, ps, result, hasBody, body⟩ := f
  have htext :
      (functionDecl s 0 name (.mk span isAsync isGenerator tps ps result hasBody body)).value =
        asyncText isAsync ++ "function" ++ starText isGenerator ++ " " ++ name ++
          (s.typeList tps ++ "(" ++ join ", " (patTexts s 0 ps).value ++ ")" ++ s.typeAnn result ++
          " " ++ blockText 0 (blockLines s 1 body).value) := by
    rw [functionDecl, funcText]
    rfl
  rw [htext, functionHead]
  simp only [String.append_assoc]
  rfl

theorem emitMethod_value (e : Event) :
    (emitMethod s e).value = plainHead s e.method e.handler ++
      blockText 0 [raiseText e (e.handler.params.map fun p => (forwarded p).value)] := by
  have htext : (emitMethod s e).value = asyncText e.handler.isAsync ++ "function " ++ e.method
      ++ "(" ++ join ", " (patTexts s 0 e.handler.params).value ++ ")"
      ++ s.typeAnn e.handler.returnType ++ " \x7b\n  emit("
      ++ join ", " (quote e.event :: (all forwarded e.handler.params).value) ++ ");\n\x7d" := rfl
  have hblock (args : List String) : blockText 0 [raiseText e args] =
      "\x7b\n" ++ (pad 1 ++ raiseText e args) ++ "\n" ++ pad 0 ++ "\x7d" := rfl
  have hopen : (" \x7b\n  emit(" : String) = " " ++ ("\x7b\n" ++ (pad 1 ++ "emit(")) := by decide
  have hclose : (");\n\x7d" : String) = ");" ++ ("\n" ++ (pad 0 ++ "\x7d")) := by decide
  rw [htext, hblock, value_all, plainHead, raiseText, hopen, hclose]
  simp only [String.append_assoc]

theorem eventEntry_value (e : Event) : (eventEntry s e).value = callSignature s e := by
  rw [callSignature]
  cases h : e.handler.returnType with
  | none | some t =>
    rw [eventEntry, h]
    rfl

/-- The head is complete exactly when nothing of it is left out. -/
theorem plainHead_eq_iff {name : String} {f : Func} (body : String) :
    plainHead s name f ++ body = functionHead s name f ++ body ↔
      f.isGenerator = false ∧ s.typeList f.typeParams = "" := by
  constructor
  · intro h
    have hlength := congrArg String.length h
    simp only [plainHead, functionHead, String.length_append] at hlength
    have hfunction : "function ".length = "function".length + " ".length := by decide
    have hstar : (starText f.isGenerator).length = 0 := by omega
    have htypes : (s.typeList f.typeParams).length = 0 := by omega
    refine ⟨?_, String.length_eq_zero_iff.1 htypes⟩
    cases hgenerator : f.isGenerator with
    | false => rfl
    | true =>
      rw [hgenerator] at hstar
      cases hstar
  · rintro ⟨hgenerator, htypes⟩
    have hfunction : ("function " : String) = "function" ++ starText false ++ " " := by decide
    rw [plainHead, functionHead, hgenerator, htypes, hfunction]
    simp only [String.append_assoc, String.append_empty]

end

/-! ## Findings -/

/-- The findings about parameters of events. -/
def parametersOnly (fs : List Finding) : List Finding :=
  fs.filter fun f => isParameterCause f.cause

theorem parametersOnly_append (fs gs : List Finding) :
    parametersOnly (fs ++ gs) = parametersOnly fs ++ parametersOnly gs :=
  List.filter_append ..

theorem parametersOnly_of_plain {α : Type} {w : Written α} (h : CausedBy isPlainCause w) :
    parametersOnly w.findings = [] := by
  refine List.filter_eq_nil_iff.2 fun f hf hcause => ?_
  have hplain := (Bool.and_eq_true_iff.1 (h f hf)).2
  rw [hcause] at hplain
  cases hplain

/-- The findings about the parameters of an event. -/
def parameterFindings (e : Event) : List Finding :=
  (e.handler.params.filterMap patternSpan?).map parameterFinding

theorem findings_all {α β : Type} (f : α → Written β) (as : List α) :
    (all f as).findings = as.flatMap fun a => (f a).findings := by
  induction as with
  | nil => rfl
  | cons a as ih =>
    rw [List.flatMap_cons, ← ih]
    exact congrArg _ (List.append_nil _)

theorem flatMap_toList {α β γ : Type} (g : α → Option β) (f : β → List γ) (as : List α) :
    (as.flatMap fun a => (g a).toList.flatMap f) = (as.filterMap g).flatMap f := by
  induction as with
  | nil => rfl
  | cons a as ih =>
    rw [List.flatMap_cons, List.filterMap_cons, ih]
    cases g a with
    | none => rfl
    | some b => exact congrArg (· ++ _) (List.append_nil _)

/-- The entries of a list, by their numbers. -/
theorem filterMap_range_getElem? {α : Type} (as : List α) :
    (List.range as.length).filterMap (fun i => as[i]?) = as := by
  induction as with
  | nil => rfl
  | cons a as ih =>
    rw [List.length_cons, List.range_succ_eq_map, List.filterMap_cons, List.filterMap_map]
    exact congrArg (a :: ·) ih

section

variable (s : Scope)

theorem parametersOnly_emitMethod {e : Event} (h : ∀ p ∈ e.handler.params, p.isParam = true) :
    parametersOnly (emitMethod s e).findings = parameterFindings e := by
  have hfindings : (emitMethod s e).findings = (patTexts s 0 e.handler.params).findings ++
      ((all forwarded e.handler.params).findings ++ []) := rfl
  have hforwarded : (all forwarded e.handler.params).findings = parameterFindings e := by
    rw [findings_all, parameterFindings, List.map_eq_flatMap, ← flatMap_toList]
    refine List.flatMap_congr fun p hp => (findings_forwarded (h p hp)).trans ?_
    exact List.map_eq_flatMap
  rw [hfindings, parametersOnly_append, parametersOnly_of_plain (@pats_drafted s 0 _).caused,
    List.nil_append, List.append_nil, hforwarded]
  refine List.filter_eq_self.2 fun f hf => ?_
  obtain ⟨span, -, rfl⟩ := List.mem_map.1 hf
  rfl

theorem parametersOnly_bodyText {events : List Event}
    (h : ∀ e ∈ events, ∀ p ∈ e.handler.params, p.isParam = true) (item : BodyItem) :
    parametersOnly (bodyText s events item).findings =
      ((emitIndex? item).bind (events[·]?)).toList.flatMap parameterFindings := by
  cases item with
  | emit index =>
    rw [bodyText, emitIndex?, Option.bind_some]
    cases hevent : events[index]? with
    | none => rfl
    | some e =>
      have hmem := List.mem_of_getElem? hevent
      exact (parametersOnly_emitMethod s (h e hmem)).trans (List.append_nil _).symm
  | _ => exact parametersOnly_of_plain (bodyText_caused s events _)

/-- Writing reports each parameter that takes its value apart once, event by event. -/
theorem parametersOnly_writeParts {t : Tables}
    (hindices : t.body.filterMap emitIndex? = List.range t.events.length)
    (h : ∀ e ∈ t.events, ∀ p ∈ e.handler.params, p.isParam = true) :
    parametersOnly (writeParts s t).findings = t.events.flatMap parameterFindings := by
  have hfindings : (writeParts s t).findings = (inputDeclarations s t.inputs).findings ++
      ((eventDeclarations s t.events).findings ++ ((all (watchRegistration s) t.watchers).findings
        ++ ((all (computedBinding s) t.accessors).findings ++
          ((all (bodyText s t.events) t.body).findings ++
            ((all (refBinding s) t.refs).findings ++ []))))) := rfl
  have hbody : parametersOnly (all (bodyText s t.events) t.body).findings =
      t.events.flatMap parameterFindings := by
    rw [findings_all, parametersOnly, List.filter_flatMap]
    refine (List.flatMap_congr fun item _ => parametersOnly_bodyText s h item).trans ?_
    rw [flatMap_toList, ← List.filterMap_filterMap, hindices, filterMap_range_getElem?]
  simp only [hfindings, parametersOnly_append, hbody,
    parametersOnly_of_plain (inputDeclarations_drafted s t.inputs).caused,
    parametersOnly_of_plain (eventDeclarations_drafted s t.events).caused,
    parametersOnly_of_plain (gives_all (watchRegistration_drafted s) t.watchers).caused,
    parametersOnly_of_plain (gives_all (computedBinding_drafted s) t.accessors).caused,
    parametersOnly_of_plain (gives_all (refBinding_drafted s) t.refs).caused]
  exact List.append_nil _

end

/-! ## Events and their methods -/

section

variable {source : List Char} {denied : List String} {items : List ModuleItem} {t : Tables}

/-- An event has a method with its parameters. -/
theorem exists_member_of_event (h : ofModule source denied items = .ok t) {e : Event}
    (he : e ∈ t.events) : ∃ m ∈ moduleMembers items, memberParams m = e.handler.params := by
  rw [events_ofModule h] at he
  obtain ⟨r, hr, hevent⟩ := List.mem_filterMap.1 he
  obtain ⟨m, hm, rfl⟩ := List.mem_map.1 hr
  have hbecomes := becomes_roleOf (hasRole_ofModule h m hm)
  refine ⟨m, hm, ?_⟩
  cases hrole : roleOf source m with
  | event e' =>
    rw [hrole] at hevent hbecomes
    cases hevent
    cases hbecomes with
    | event => rfl
  | _ =>
    rw [hrole] at hevent
    cases hevent

theorem events_areParams {lang : Lang} {text : String} (hitems : parseModule lang text = .ok items)
    (h : ofModule source denied items = .ok t) :
    ∀ e ∈ t.events, ∀ p ∈ e.handler.params, p.isParam = true := by
  intro e he p hp
  obtain ⟨m, hm, hparams⟩ := exists_member_of_event h he
  obtain ⟨item, hitem, hm⟩ := List.mem_flatMap.1 hm
  refine parseModule_params hitems item hitem p ?_
  cases item with
  | component c => exact List.mem_flatMap.2 ⟨m, hm, hparams ▸ hp⟩
  | _ => cases hm

/-- The tables themselves report no parameter. -/
theorem parametersOnly_tables (h : ofModule source denied items = .ok t) :
    parametersOnly t.findings = [] := by
  refine List.filter_eq_nil_iff.2 fun f hf hcause => ?_
  have hreplaced : f.cause = .replacedExpr "destructured event parameter" := eq_of_beq hcause
  have himport : f ∈ importFindings t.findings :=
    List.mem_filter.2 ⟨hf, by rw [hreplaced]; rfl⟩
  rw [importFindings_ofModule h] at himport
  obtain ⟨decl, -, rfl⟩ := List.mem_map.1 himport
  cases hreplaced

end

/-- What the output has for the events of a component. -/
structure WritesEvents (s : Scope) (t : Tables) (output : Document) : Prop where
  /-- the interface has a call signature for each event, in order -/
  interface : t.events ≠ [] → ∃ declaration, output.segment .events =
    [join "\n" ("interface Emits \x7b" :: t.events.map (callSignature s) ++ ["\x7d"]), declaration]
  /-- where the method of an event stood, there is a function that raises the event with all
  parameters; its head is that of any function when nothing of it is left out -/
  methods : ∀ (k i : Nat) (e : Event), t.body[k]? = some (.emit i) → t.events[i]? = some e →
    ∃ args, List.Forall₂ Passes e.handler.params args ∧
      (output.segment .body)[k]? =
        some (plainHead s e.method e.handler ++ blockText 0 [raiseText e args]) ∧
      ((output.segment .body)[k]? =
          some (functionHead s e.method e.handler ++ blockText 0 [raiseText e args]) ↔
        e.handler.isGenerator = false ∧ s.typeList e.handler.typeParams = "")
  /-- the head of any function -/
  heads : ∀ e ∈ t.events, (functionDecl s 0 e.method e.handler).value =
    functionHead s e.method e.handler ++ blockText 0 (blockLines s 1 e.handler.body).value

theorem writesEvents_document (s : Scope) {t : Tables} (framework : String)
    (h : ∀ e ∈ t.events, ∀ p ∈ e.handler.params, p.isParam = true) :
    WritesEvents s t (document framework t (writeParts s t)) where
  interface hevents := by
    refine ⟨"const emit = defineEmits<Emits>();", ?_⟩
    have hpieces : segmentPieces framework t (writeParts s t) .events =
        (eventDeclarations s t.events).value := rfl
    rw [segment_document, hpieces, eventDeclarations, if_neg (by simpa using hevents)]
    have hentries : (all (eventEntry s) t.events).value = t.events.map (callSignature s) :=
      (value_all _ _).trans (List.map_congr_left fun e _ => eventEntry_value s e)
    rw [← hentries]
    rfl
  methods k i e hitem hevent := by
    have hmem := List.mem_of_getElem? hevent
    have htext : (document framework t (writeParts s t)).segment .body =
        t.body.map fun item => (bodyText s t.events item).value :=
      (segment_document framework t (writeParts s t) .body).trans (writeParts_body s t)
    have hplace : (bodyText s t.events (.emit i)).value = (emitMethod s e).value := by
      rw [bodyText, hevent]
    refine ⟨e.handler.params.map fun p => (forwarded p).value, ?_, ?_, ?_⟩
    · refine List.forall₂_map_right_iff.2 (List.forall₂_same.2 fun p hp => ?_)
      exact forwarded_passes (h e hmem p hp)
    · rw [htext, List.getElem?_map, hitem, Option.map_some, hplace, emitMethod_value]
    · rw [htext, List.getElem?_map, hitem, Option.map_some, hplace, emitMethod_value,
        Option.some_inj]
      exact plainHead_eq_iff s _
  heads e _ := functionDecl_value s e.method e.handler

/-- Each method that raises an event becomes a function that passes all its parameters on. Those
that take their values apart, and no others, are reported. -/
theorem convertScript_forwards_events {source : String} {lang : Lang} {o : Options}
    {c : Converted} (h : convertScript source lang o = .ok c) :
    ∃ items t, parseModule lang source = .ok items ∧
      ofModule source.toList o.denied items = .ok t ∧
      let s := Scope.ofTables source.toList t
      let output := document o.framework t (writeParts s t)
      let roles := moduleRoles source.toList items
      c.code = output.render ∧ List.Forall₂ Becomes (moduleMembers items) roles ∧
      t.events = roles.filterMap Role.event? ∧ t.WellFormed items ∧ WritesEvents s t output ∧
      (parametersOnly c.findings).Perm (t.events.flatMap parameterFindings) := by
  obtain ⟨items, t, hitems, htables, rfl⟩ := convertScript_eq_ok_iff.1 h
  have hparams := events_areParams hitems htables
  refine ⟨items, t, hitems, htables, rfl, becomes_members htables, events_ofModule htables,
    ofModule_wellFormed htables, writesEvents_document _ o.framework hparams, ?_⟩
  refine ((List.mergeSort_perm _ _).filter _).trans (.of_eq ?_)
  refine (parametersOnly_append _ _).trans ?_
  rw [parametersOnly_tables htables, List.nil_append]
  exact parametersOnly_writeParts _ (emitIndices_ofModule htables) hparams

/-- A component with an event whose parameters are of every kind. -/
def forwardingSource : String :=
  "@Component export default class A \x7b " ++
    "@Emit('moved') async go(a, b = 1, [c] = d, ...e): T \x7b\x7d \x7d"

theorem every_parameter_forwarded :
    ∃ c items t, convertScript forwardingSource .typeScript {} = .ok c ∧
      parseModule .typeScript forwardingSource = .ok items ∧
      ofModule forwardingSource.toList ({} : Options).denied items = .ok t ∧
      WritesEvents (Scope.ofTables forwardingSource.toList t) t
        (document "vue" t (writeParts (Scope.ofTables forwardingSource.toList t) t)) ∧
      (parametersOnly c.findings).Perm (t.events.flatMap parameterFindings) ∧
      c = ⟨"interface Emits \x7b\n  (e: 'moved', a, b = 1, [c] = d, ...e): T,\n\x7d\n" ++
        "const emit = defineEmits<Emits>();\n\n" ++
        "async function go(a, b = 1, [c] = d, ...e): T \x7b\n" ++
        "  emit('moved', a, b, /* TODO: automatic conversion failed */, ...e);\n\x7d",
        [parameterFinding ⟨70, 73⟩]⟩ := by
  obtain ⟨-, t₀, -, -, htables, hcode⟩ := exists_tables forwardingSource .typeScript
    (toList_append_ofList String.toList_ofList)
    (fun cs _ t => untrimmed cs t =
      ("interface Emits \x7b\n  (e: 'moved', a, b = 1, [c] = d, ...e): T,\n\x7d\n" ++
        "const emit = defineEmits<Emits>();\n\n" ++
        "async function go(a, b = 1, [c] = d, ...e): T \x7b\n" ++
        "  emit('moved', a, b, /* TODO: automatic conversion failed */, ...e);\n\x7d" ++ "\n",
        [parameterFinding ⟨70, 73⟩]))
    (by decide +kernel)
  have hc := convertScript_eq_ok.2 ⟨t₀, htables, convertTables_of_untrimmed hcode
    (toList_append_ofList (toList_append_ofList (toList_append_ofList String.toList_ofList)))
    (by decide +kernel)⟩
  obtain ⟨items, t, hitems, ht, -, -, -, -, hevents, hfindings⟩ :=
    convertScript_forwards_events hc
  exact ⟨_, items, t, hc, hitems, ht, hevents, hfindings, rfl⟩

/-- A component with an event whose method has a type parameter. -/
def genericEventSource : String :=
  "@Component export default class A \x7b @Emit() go<T>(a: T) \x7b\x7d \x7d"

/-- The type parameter is lost. -/
theorem type_parameter_lost :
    convertScript genericEventSource .typeScript {} = .ok
      ⟨"interface Emits \x7b\n  (e: 'go', a: T): void,\n\x7d\n" ++
        "const emit = defineEmits<Emits>();\n\nfunction go(a: T) \x7b\n  emit('go', a);\n\x7d",
        []⟩ ∧
    ∃ items t, parseModule .typeScript genericEventSource = .ok items ∧
      ofModule genericEventSource.toList ({} : Options).denied items = .ok t ∧
      t.events.map (fun e =>
        functionHead (Scope.ofTables genericEventSource.toList t) e.method e.handler) =
        ["function go<T>(a: T) "] := by
  obtain ⟨items, t, hitems, ht, htables, hcode, hheads⟩ :=
    exists_tables genericEventSource .typeScript String.toList_ofList
      (fun cs _ t => untrimmed cs t =
        ("interface Emits \x7b\n  (e: 'go', a: T): void,\n\x7d\n" ++
          "const emit = defineEmits<Emits>();\n\nfunction go(a: T) \x7b\n  emit('go', a);\n\x7d" ++
          "\n", []) ∧
        t.events.map (fun e => functionHead (Scope.ofTables cs t) e.method e.handler) =
          ["function go<T>(a: T) "])
      (by decide +kernel)
  have hconverted := convertTables_of_untrimmed hcode (toList_append_ofList String.toList_ofList)
    (by decide +kernel)
  exact ⟨convertScript_eq_ok.2 ⟨t, htables, hconverted⟩, items, t, hitems, ht, hheads⟩

end ScriptSetup.Setup
