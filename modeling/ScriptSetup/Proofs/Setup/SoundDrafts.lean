import ScriptSetup.Proofs.Script.Nodes
import ScriptSetup.Proofs.Setup.Drafting

/-!
# Drafts without silent holes

Where every type can be copied, every `super` stands within its call and every template has a
chunk around each expression, each hole of a draft has a finding of its own, within what it stands
for, and no hole is dropped.
-/

set_option autoImplicit false

namespace ScriptSetup.Setup

open Script Component

/-! ## Reported holes -/

/-- The codes of findings about replaced code. -/
def replacementCodes : List FindingCode :=
  [.unsupportedExpression, .unsupportedStatement, .unsupportedMember]

/-- The placeholder is one of the two usual ones and has a finding, within what it stands for. -/
structure Placeholder.Reported (h : Placeholder) : Prop where
  text : h.text = exprPlaceholder ∨ h.text = stmtPlaceholder
  finding : ∃ f, h.finding = some f ∧ f.code ∈ replacementCodes ∧ f.span.Within h.construct

mutual

/-- Every hole is reported and written. -/
def Draft.Sound : Draft → Prop
  | .text _ => True
  | .hole h => h.Reported
  | .append a b => a.Sound ∧ b.Sound
  | .object _ props => draftsSound props
  | .unary _ arg => arg.Sound
  | .hoisted lines => draftsSound lines
  | .dropped _ => False

/-- Every hole of the drafts is reported and written. -/
def draftsSound : List Draft → Prop
  | [] => True
  | d :: ds => d.Sound ∧ draftsSound ds

end

theorem draftsSound_iff (ds : List Draft) : draftsSound ds ↔ ∀ d ∈ ds, d.Sound := by
  induction ds with
  | nil => simp [draftsSound]
  | cons d ds ih => simp [draftsSound, ih]

namespace Draft

@[simp] theorem sound_text (s : String) : (Draft.text s).Sound := trivial

@[simp] theorem sound_append (a b : Draft) : (a ++ b).Sound ↔ a.Sound ∧ b.Sound := Iff.rfl

@[simp] theorem sound_object (level : Nat) (props : List Draft) :
    (Draft.object level props).Sound ↔ draftsSound props := Iff.rfl

@[simp] theorem sound_unary (op : UnaryOp) (arg : Draft) :
    (Draft.unary op arg).Sound ↔ arg.Sound := Iff.rfl

@[simp] theorem sound_hoisted (lines : List Draft) :
    (Draft.hoisted lines).Sound ↔ draftsSound lines := Iff.rfl

@[simp] theorem sound_join (sep : String) (ds : List Draft) :
    (join sep ds).Sound ↔ draftsSound ds := by
  induction ds with
  | nil => simp [join, draftsSound]
  | cons d ds ih =>
    cases ds with
    | nil => simp [join, draftsSound]
    | cons e rest =>
      rw [draftsSound, ← ih]
      simp [join]

@[simp] theorem sound_replacedExpr (what : String) (span : Span) :
    (replacedExpr what span).Sound :=
  ⟨.inl rfl, _, rfl, by simp [replacementCodes, Finding.code, FindingCause.code], .refl span⟩

@[simp] theorem sound_replacedStmt (what : String) (span : Span) :
    (replacedStmt what span).Sound :=
  ⟨.inr rfl, _, rfl, by simp [replacementCodes, Finding.code, FindingCause.code], .refl span⟩

end Draft

/-! ## Pieces -/

@[simp] theorem sound_copiedDraft (s : Scope) (what : String) (span : Span) :
    (copiedDraft s what span).Sound := by
  rw [copiedDraft]
  cases s.verbatim span <;> simp

@[simp] theorem sound_blockDraft (level : Nat) (lines : List Draft) :
    (blockDraft level lines).Sound ↔ draftsSound lines := by
  rw [draftsSound_iff]
  cases lines with
  | nil => simp [blockDraft]
  | cons line lines => simp [blockDraft, draftsSound_iff]

@[simp] theorem sound_patternDraft (props : List Draft) :
    (patternDraft props).Sound ↔ draftsSound props := by
  cases props with
  | nil => simp [patternDraft, draftsSound]
  | cons p ps => simp [patternDraft]

theorem sound_templateDraft {chunks : List String} {es : List Draft}
    (hlength : chunks.length = es.length + 1) (h : draftsSound es) :
    (templateDraft chunks es).Sound := by
  fun_induction templateDraft chunks es with
  | case1 => trivial
  | case2 e es ih => cases hlength
  | case3 chunk chunks ih =>
    obtain rfl := List.length_eq_zero_iff.1 (Nat.succ.inj hlength)
    simp [templateDraft]
  | case4 chunk chunks e es ih =>
    obtain ⟨he, hes⟩ := h
    simpa [he] using ih (Nat.succ.inj hlength) hes

/-! ## Trees -/

/-- What a node has to satisfy for what is written of it to be reported: types can be copied. -/
def NodeSound (source : List Char) : Node → Prop
  | .type t => (t.span.slice? source).isSome = true
  | .expr e => (Node.expr e).WellFormed

/-- Every node satisfies what it has to. -/
def NodesSound (source : List Char) (nodes : List Node) : Prop :=
  ∀ n ∈ nodes, NodeSound source n

section

variable {source : List Char}

@[simp] theorem nodesSound_nil : NodesSound source [] := fun _ => nofun

@[simp] theorem nodesSound_cons {n : Node} {ns : List Node} :
    NodesSound source (n :: ns) ↔ NodeSound source n ∧ NodesSound source ns :=
  List.forall_mem_cons

@[simp] theorem nodesSound_append {ns ns' : List Node} :
    NodesSound source (ns ++ ns') ↔ NodesSound source ns ∧ NodesSound source ns' :=
  List.forall_mem_append

end

section

variable {s : Scope}

theorem sound_typeDraft {t : TypeText} (h : NodeSound s.source (.type t)) :
    (typeDraft s t).Sound := by
  obtain ⟨text, htext⟩ := Option.isSome_iff_exists.1 h
  rw [typeDraft, Scope.verbatim, htext]
  trivial

theorem sound_typeAnnDraft {t : Option TypeText} (h : NodesSound s.source (typeNodes t)) :
    (typeAnnDraft s t).Sound := by
  cases t with
  | none => trivial
  | some t => simpa [typeAnnDraft] using sound_typeDraft (h (.type t) List.mem_cons_self)

theorem sound_boundDraft {id : Ident} {isOptional : Bool} {t : Option TypeText}
    (h : NodesSound s.source (typeNodes t)) : (boundDraft s id isOptional t).Sound := by
  simpa [boundDraft] using sound_typeAnnDraft h

theorem sound_member {level : Nat} {span : Span} {obj : Expr} {key : Key}
    (hobj : (exprDraft s level obj).Sound) (hkey : (accessDraft s level key).Sound) :
    (exprDraft s level (.member span obj key)).Sound := by
  rw [exprDraft]
  split
  · trivial
  · exact Draft.sound_replacedExpr _ _
  · exact ⟨trivial, trivial⟩
  · exact ⟨hobj, hkey⟩

end

theorem length_exprDrafts (s : Scope) (level : Nat) (es : List Expr) :
    (exprDrafts s level es).length = es.length := by
  induction es with
  | nil => rfl
  | cons e es ih => simp [exprDrafts, ih]

section

variable (s : Scope)

-- what a tree is drafted from and the nodes of a tree are both taken apart by simplification
attribute [local simp] exprDraft accessDraft chainLinkDraft keyDraft propertyDraft funcDraft
  functionDraft patDraft targetDraft patPropertyDraft stmtDraft optionDraft catchDraft caseDrafts
  caseLineDrafts headDraft exprNodes keyNodes propertyNodes funcNodes patNodes patPropertyNodes
  stmtNodes optionNodes paramNodes casesNodes headNodes sound_typeDraft sound_typeAnnDraft
  sound_boundDraft

mutual

/-- What is written of an expression is reported. -/
theorem expr_sound {level : Nat} : ∀ e : Expr, NodesSound s.source (exprNodes e) →
    (exprDraft s level e).Sound
  | .template _ chunks es, h => by
    obtain ⟨hlength, hes⟩ := nodesSound_cons.1 h
    rw [exprDraft]
    refine ⟨⟨trivial, sound_templateDraft ?_ (exprs_sound es hes)⟩, trivial⟩
    rw [length_exprDrafts]
    exact hlength
  | .array _ es, h | .seq _ es, h | .importCall _ es, h => by simp_all [exprs_sound es]
  | .spread _ e, h | .unary _ _ e, h | .await _ e, h | .constAssertion _ e, h | .nonNull _ e, h
  | .yield _ _ (some e), h | .typeAssertion _ _ e, h | .asType _ e _, h | .satisfiesType _ e _, h
  | .instantiation _ e _, h => by simp_all [expr_sound e]
  | .update _ _ _ e, h | .paren _ e, h => by
    rw [exprDraft]
    split <;> simp_all [expr_sound e]
  | .object _ props, h => by simp_all [properties_sound props]
  | .func _ f, h => by simp_all [func_sound f]
  | .arrow _ _ _ ps _ body, h => by
    simp_all [pats_sound ps, block_sound body]
  | .arrowExpr _ _ _ ps _ e, h => by
    rw [exprDraft]
    split <;> simp_all [pats_sound ps, expr_sound e]
  | .binary _ _ l r, h => by simp_all [expr_sound l, expr_sound r]
  | .assign _ _ target value, h => by
    simp_all [target_sound target, expr_sound value]
  | .cond _ test yes no, h => by
    simp_all [expr_sound test, expr_sound yes, expr_sound no]
  | .member _ obj key, h => by
    simp only [exprNodes, nodesSound_cons, nodesSound_append] at h
    exact sound_member (expr_sound obj h.2.1) (access_sound key h.2.2)
  | .chainMember _ isOptional obj key, h => by
    simp_all [expr_sound obj, chainLink_sound key]
  | .call _ callee _ args, h | .chainCall _ _ callee _ args, h | .new _ callee args, h => by
    simp_all [expr_sound callee, exprs_sound args]
  | .superCall _ _ _ _, h =>
    ⟨.inl rfl, _, rfl, by simp [replacementCodes, Finding.code, FindingCause.code],
      (nodesSound_cons.1 h).1⟩
  | .this _, _ | .taggedTemplate _ _ _ _, _ | .classExpr _ _, _ | .superMember _ _, _
  | .privateName _, _ | .jsx _ _, _ => Draft.sound_replacedExpr _ _
  | .ident _, _ | .string _, _ | .number _ _, _ | .bigint _ _, _ | .bool _ _, _ | .null _, _
  | .regex _ _ _, _ | .hole, _ | .yield _ _ none, _ | .metaProperty _ .newTarget, _
  | .metaProperty _ .importMeta, _ => by simp

theorem exprs_sound {level : Nat} : ∀ es : List Expr,
    NodesSound s.source (exprsNodes es) → draftsSound (exprDrafts s level es)
  | [], _ => trivial
  | e :: es, h => by
    obtain ⟨he, hes⟩ := nodesSound_append.1 h
    exact ⟨expr_sound e he, exprs_sound es hes⟩

theorem access_sound {level : Nat} : ∀ key : Key, NodesSound s.source (keyNodes key) →
    (accessDraft s level key).Sound
  | .computed _ e, h => by simpa using expr_sound e h
  | .ident _, _ | .string _, _ | .number _ _, _ | .bigint _ _, _ | .privateName _, _ => by simp

theorem chainLink_sound {level : Nat} {isOptional : Bool} : ∀ key : Key,
    NodesSound s.source (keyNodes key) → (chainLinkDraft s level isOptional key).Sound
  | .computed _ e, h => by simpa using expr_sound e h
  | .ident _, _ | .string _, _ | .number _ _, _ | .bigint _ _, _ | .privateName _, _ => by simp

theorem key_sound {level : Nat} : ∀ key : Key, NodesSound s.source (keyNodes key) →
    (keyDraft s level key).Sound
  | .computed _ e, h => by simpa using expr_sound e h
  | .ident _, _ | .string _, _ | .number _ _, _ | .bigint _ _, _ | .privateName _, _ => by simp

theorem property_sound {level : Nat} : ∀ p : Property,
    NodesSound s.source (propertyNodes p) → (propertyDraft s level p).Sound
  | .spread _ e, h | .initialized _ e, h => by simpa using expr_sound e h
  | .shorthand _, _ => trivial
  | .keyValue key value, h => by simp_all [key_sound key, expr_sound value]
  | .getter _ key _ body, h => by simp_all [key_sound key, block_sound body]
  | .setter _ key param body, h => by
    simp_all [key_sound key, pat_sound param, block_sound body]
  | .method _ key f, h => by simp_all [key_sound key, func_sound f]

theorem properties_sound {level : Nat} : ∀ ps : List Property,
    NodesSound s.source (propertiesNodes ps) → draftsSound (propertyDrafts s level ps)
  | [], _ => trivial
  | p :: ps, h => by
    obtain ⟨hp, hps⟩ := nodesSound_append.1 h
    exact ⟨property_sound p hp, properties_sound ps hps⟩

theorem func_sound {gap : String} {level : Nat} : ∀ f : Func,
    NodesSound s.source (funcNodes f) → (funcDraft s gap level f).Sound
  | .mk _ _ _ _ ps _ _ body, h => by
    simp_all [pats_sound ps, block_sound body, Func.returnType]

theorem pat_sound {level : Nat} : ∀ p : Pat, NodesSound s.source (patNodes p) →
    (patDraft s level p).Sound
  | .hole, _ => trivial
  | .ident _ _ _, h => sound_boundDraft h
  | .array _ es _, h => by simp_all [pats_sound es]
  | .object _ ps _, h => by simp_all [patProperties_sound ps]
  | .rest _ arg _, h => by simp_all [pat_sound arg]
  | .withDefault _ left right, h => by simp_all [pat_sound left, expr_sound right]
  | .expr e, h => expr_sound e h

theorem target_sound {level : Nat} : ∀ p : Pat, NodesSound s.source (patNodes p) →
    (targetDraft s level p).Sound
  | .hole, _ | .rest _ _ _, _ | .withDefault _ _ _, _ => trivial
  | .ident _ _ _, h => sound_boundDraft h
  | .array _ es _, h => by simp_all [pats_sound es]
  | .object _ ps _, h => by simp_all [patProperties_sound ps]
  | .expr e, h => by
    cases e with
    | paren span inner => simpa using expr_sound inner (nodesSound_cons.1 h).2
    | member span obj key => exact expr_sound (.member span obj key) h
    | asType span inner t => exact expr_sound (.asType span inner t) h
    | nonNull span inner => exact expr_sound (.nonNull span inner) h
    | chainMember span isOptional obj key =>
      exact expr_sound (.chainMember span isOptional obj key) h
    | chainCall span isOptional callee types args =>
      exact expr_sound (.chainCall span isOptional callee types args) h
    | _ => exact Draft.sound_replacedExpr _ _

theorem pats_sound {level : Nat} : ∀ ps : List Pat,
    NodesSound s.source (patsNodes ps) → draftsSound (patDrafts s level ps)
  | [], _ => trivial
  | p :: ps, h => by
    obtain ⟨hp, hps⟩ := nodesSound_append.1 h
    exact ⟨pat_sound p hp, pats_sound ps hps⟩

theorem patProperty_sound {level : Nat} : ∀ p : PatProperty,
    NodesSound s.source (patPropertyNodes p) → (patPropertyDraft s level p).Sound
  | .keyValue key value, h => by simp_all [key_sound key, pat_sound value]
  | .shorthand _ _ none, _ => trivial
  | .shorthand _ _ (some e), h => by simpa using expr_sound e h
  | .rest _ arg, h => by simpa using pat_sound arg h

theorem patProperties_sound {level : Nat} : ∀ ps : List PatProperty,
    NodesSound s.source (patPropertiesNodes ps) → draftsSound (patPropertyDrafts s level ps)
  | [], _ => trivial
  | p :: ps, h => by
    obtain ⟨hp, hps⟩ := nodesSound_append.1 h
    exact ⟨patProperty_sound p hp, patProperties_sound ps hps⟩

theorem stmt_sound {level : Nat} : ∀ stmt : Stmt,
    NodesSound s.source (stmtNodes stmt) → (stmtDraft s level stmt).Sound
  | .block _ body, h => by simpa using block_sound body h
  | .return _ e, h => by simpa using option_sound e h
  | .throw _ e, h | .expr _ e, h => by simpa using expr_sound e h
  | .labeled _ _ body, h => by simpa using stmt_sound body h
  | .ifThen _ test body, h | .while _ test body, h | .doWhile _ body test, h => by
    simp_all [expr_sound test, stmt_sound body]
  | .ifElse _ test yes no, h => by
    rw [stmtDraft]
    split <;> simp_all [expr_sound test, stmt_sound yes, stmt_sound no]
  | .switch _ subject cases, h => by
    simp_all [expr_sound subject, cases_sound cases]
  | .tryCatch _ body param handler, h => by
    simp_all [block_sound body, catch_sound param, block_sound handler]
  | .tryFinally _ body finalizer, h => by
    simp_all [block_sound body, block_sound finalizer]
  | .tryCatchFinally _ body param handler finalizer, h => by
    simp_all [block_sound body, catch_sound param, block_sound handler, block_sound finalizer]
  | .for _ init test update body, h => by
    simp_all [head_sound init, option_sound test, option_sound update,
      stmt_sound body]
  | .forIn _ left right body, h | .forOf _ _ left right body, h => by
    simp_all [head_sound left, expr_sound right, stmt_sound body]
  | .varDecl _ _ _ ds, h => by simpa using pats_sound ds h
  | .funcDecl _ f, h => by simpa using func_sound f h
  | .typeDecl _ span _, _ => sound_copiedDraft s "type declaration" span
  | .withObject _ _ _, _ | .classDecl _ _, _ | .usingDecl _ _, _ => Draft.sound_replacedStmt _ _
  | .break _ (some _), _ | .continue _ (some _), _ | .empty _, _ | .debugger _, _
  | .break _ none, _ | .continue _ none, _ => by simp

theorem block_sound {level : Nat} : ∀ body : List Stmt,
    NodesSound s.source (stmtsNodes body) → draftsSound (blockDrafts s level body)
  | [], _ => trivial
  | stmt :: rest, h => by
    obtain ⟨hstmt, hrest⟩ := nodesSound_append.1 h
    have hstmt := @stmt_sound level stmt hstmt
    have hrest := @block_sound level rest hrest
    cases stmt with
    | empty span => exact hrest
    | _ => exact ⟨hstmt, hrest⟩

theorem option_sound {level : Nat} : ∀ e : Option Expr,
    NodesSound s.source (optionNodes e) → (optionDraft s level e).Sound
  | none, _ => trivial
  | some e, h => by simpa using expr_sound e h

theorem catch_sound {level : Nat} : ∀ param : Option Pat,
    NodesSound s.source (paramNodes param) → (catchDraft s level param).Sound
  | none, _ => trivial
  | some param, h => by simpa using pat_sound param h

theorem cases_sound {level : Nat} : ∀ cases : List Case,
    NodesSound s.source (casesNodes cases) → (caseDrafts s level cases).Sound
  | [], _ => trivial
  | .mk none body :: rest, h => by
    simp_all [caseLines_sound body, cases_sound rest]
  | .mk (some test) body :: rest, h => by
    simp_all [expr_sound test, caseLines_sound body,
      cases_sound rest]

theorem caseLines_sound {level : Nat} : ∀ body : List Stmt,
    NodesSound s.source (stmtsNodes body) → (caseLineDrafts s level body).Sound
  | [], _ => trivial
  | stmt :: rest, h => by
    obtain ⟨hstmt, hrest⟩ := nodesSound_append.1 h
    simp [stmt_sound stmt hstmt, caseLines_sound rest hrest]

theorem head_sound {level : Nat} : ∀ head : ForHead,
    NodesSound s.source (headNodes head) → (headDraft s level head).Sound
  | .none, _ => trivial
  | .usingDecl _ _, _ => Draft.sound_replacedExpr _ _
  | .varDecl _ _ ds, h => by simpa using pats_sound ds h
  | .pat p, h => pat_sound p h

end

end

end ScriptSetup.Setup
