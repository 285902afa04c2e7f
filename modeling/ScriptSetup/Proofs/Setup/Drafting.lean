import ScriptSetup.Proofs.Setup.Drafts
import ScriptSetup.Proofs.Setup.Resolution
import ScriptSetup.Proofs.Setup.WritingFindings

/-!
# What is written is its draft

The printer and the drafts agree: the text is that of the draft with the usual placeholders, and
the findings about replaced code are those of the holes, in their order. There are no other findings
about trees.
-/

set_option autoImplicit false

namespace ScriptSetup.Setup

open Script Component Written

/-- The finding says that something was replaced by a placeholder. -/
def isReplacement (f : Finding) : Bool :=
  match f.cause with
  | .replacedExpr _ | .replacedStmt _ | .noEquivalent _ => true
  | .mixins | .setterOnly _ | .droppedDecorator _ _ | .undeclared _ | .removedExport
  | .removedImport _ => false

/-- The findings of placeholders. -/
def reported (holes : List Placeholder) : List Finding :=
  holes.filterMap Placeholder.finding

@[simp] theorem reported_nil : reported [] = [] := rfl

@[simp] theorem reported_append (hs hs' : List Placeholder) :
    reported (hs ++ hs') = reported hs ++ reported hs' :=
  List.filterMap_append

/-- A value, with these findings about replaced code. All findings have such a cause. -/
structure Gives {α : Type} (p : FindingCause → Bool) (w : Written α) (value : α)
    (findings : List Finding) : Prop where
  value : w.value = value
  findings : w.findings.filter isReplacement = findings
  caused : CausedBy p w

/-- A text is that of the draft. -/
def Drafted (p : FindingCause → Bool) (w : Written String) (d : Draft) : Prop :=
  Gives p w (d.textWith Placeholder.text) (reported d.holes)

/-- Texts are those of the drafts. -/
def AllDrafted (p : FindingCause → Bool) (w : Written (List String)) (ds : List Draft) : Prop :=
  Gives p w (ds.map (Draft.textWith Placeholder.text)) (reported (ds.flatMap Draft.holes))

variable {p : FindingCause → Bool}

namespace Gives

variable {α β : Type} {w : Written α} {value : α} {findings : List Finding}

theorem of (value : α) : Gives p (Written.of value) value [] := ⟨rfl, rfl, .of value⟩

theorem bind {f : α → Written β} {value' : β} {findings' : List Finding}
    (hw : Gives p w value findings) (hf : Gives p (f value) value' findings') :
    Gives p (w >>= f) value' (findings ++ findings') := by
  obtain ⟨rfl, rfl, hcaused⟩ := hw
  refine ⟨hf.value, ?_, hcaused.bind hf.caused⟩
  rw [← hf.findings]
  exact List.filter_append ..

theorem last {g : α → β} (hw : Gives p w value findings) :
    Gives p (w >>= fun a => pure (g a)) (g value) findings := by
  have h := hw.bind (f := fun a => pure (g a)) (of (g value))
  rwa [List.append_nil] at h

theorem congr {value' : α} {findings' : List Finding} (hw : Gives p w value findings)
    (hvalue : value = value' := by simp) (hfindings : findings = findings' := by simp) :
    Gives p w value' findings' :=
  hvalue ▸ hfindings ▸ hw

/-- Plain findings are findings of writing. -/
theorem writing (hw : Gives isPlainCause w value findings) :
    Gives isWritingCause w value findings :=
  { hw with caused := hw.caused.mono fun _ => isWritingCause_of_plain }

theorem nil : AllDrafted p (Written.of []) [] := of []

theorem cons {w : Written String} {ws : Written (List String)} {d : Draft} {ds : List Draft}
    (hw : Drafted p w d) (hws : AllDrafted p ws ds) :
    AllDrafted p (w >>= fun a => ws >>= fun as => pure (a :: as)) (d :: ds) := by
  refine (hw.bind (f := fun a => ws >>= fun as => pure (a :: as)) hws.last).congr rfl ?_
  rw [← reported_append, List.flatMap_cons]

end Gives

theorem drafted_unsupportedExpr {what : String} (span : Span)
    (h : p (.replacedExpr what) = true) :
    Drafted p (unsupportedExpr what span) (.replacedExpr what span) :=
  ⟨rfl, rfl, .single h⟩

theorem drafted_unsupportedStmt {what : String} (span : Span)
    (h : p (.replacedStmt what) = true) :
    Drafted p (unsupportedStmt what span) (.replacedStmt what span) :=
  ⟨rfl, rfl, .single h⟩

theorem drafted_copied (s : Scope) {what : String} (span : Span)
    (h : p (.replacedStmt what) = true) :
    Drafted p (match s.verbatim span with
      | some text => of text
      | none => unsupportedStmt what span) (copiedDraft s what span) := by
  rw [copiedDraft]
  cases s.verbatim span with
  | none => exact drafted_unsupportedStmt span h
  | some text => exact .of text

/-! ## Pieces -/

@[simp] theorem textWith_typeDraft (s : Scope) (t : TypeText) :
    (typeDraft s t).textWith Placeholder.text = s.typeText t := by
  rw [typeDraft, Scope.typeText]
  cases s.verbatim t.span <;> rfl

@[simp] theorem reported_typeDraft (s : Scope) (t : TypeText) :
    reported (typeDraft s t).holes = [] := by
  rw [typeDraft]
  cases s.verbatim t.span <;> rfl

@[simp] theorem textWith_typeAnnDraft (s : Scope) (t : Option TypeText) :
    (typeAnnDraft s t).textWith Placeholder.text = s.typeAnn t := by
  cases t with
  | none => rfl
  | some t => simp [typeAnnDraft, Scope.typeAnn]

@[simp] theorem reported_typeAnnDraft (s : Scope) (t : Option TypeText) :
    reported (typeAnnDraft s t).holes = [] := by
  cases t with
  | none => rfl
  | some t => simp [typeAnnDraft]

@[simp] theorem textWith_blockDraft (fill : Placeholder → String) (level : Nat)
    (lines : List Draft) :
    (blockDraft level lines).textWith fill = blockText level (lines.map (Draft.textWith fill)) := by
  rw [blockDraft, blockText, List.isEmpty_map]
  split
  · rfl
  · simp [Function.comp_def]

@[simp] theorem holes_blockDraft (level : Nat) (lines : List Draft) :
    (blockDraft level lines).holes = lines.flatMap Draft.holes := by
  cases lines with
  | nil => rfl
  | cons line lines => simp [blockDraft, List.flatMap_map]

@[simp] theorem textWith_patternDraft (fill : Placeholder → String) (props : List Draft) :
    (patternDraft props).textWith fill = patternText (props.map (Draft.textWith fill)) := by
  rw [patternDraft, patternText, List.isEmpty_map]
  split
  · rfl
  · simp

@[simp] theorem holes_patternDraft (props : List Draft) :
    (patternDraft props).holes = props.flatMap Draft.holes := by
  cases props with
  | nil => rfl
  | cons p ps => simp [patternDraft]

@[simp] theorem textWith_templateDraft (fill : Placeholder → String) (chunks : List String)
    (es : List Draft) :
    (templateDraft chunks es).textWith fill =
      templateText chunks (es.map (Draft.textWith fill)) := by
  fun_induction templateDraft chunks es with
  | case1 => rfl
  | case2 e es ih => simpa [templateText] using ih
  | case3 chunk chunks ih | case4 chunk chunks e es ih => simp [templateText, ih]

@[simp] theorem holes_templateDraft (chunks : List String) (es : List Draft) :
    (templateDraft chunks es).holes = es.flatMap Draft.holes := by
  fun_induction templateDraft chunks es with
  | case1 => rfl
  | case2 e es ih | case3 chunk chunks ih | case4 chunk chunks e es ih => simp [ih]

@[simp] theorem textWith_boundDraft (s : Scope) (id : Ident) (isOptional : Bool)
    (type : Option TypeText) :
    (boundDraft s id isOptional type).textWith Placeholder.text =
      boundText s id isOptional type := by
  simp [boundDraft, boundText]

@[simp] theorem reported_boundDraft (s : Scope) (id : Ident) (isOptional : Bool)
    (type : Option TypeText) : reported (boundDraft s id isOptional type).holes = [] := by
  simp [boundDraft]

/-! ## Trees -/

theorem drafted_member {s : Scope} {level : Nat} {span : Span} {obj : Expr} {key : Key}
    (hobj : Drafted isPlainCause (exprText s level obj) (exprDraft s level obj))
    (hkey : Drafted isPlainCause (accessText s level key) (accessDraft s level key)) :
    Drafted isPlainCause (exprText s level (.member span obj key))
      (exprDraft s level (.member span obj key)) := by
  rw [exprText_member, exprDraft]
  generalize isThis obj = this
  generalize isTemplateRefs obj = refs
  generalize accessName? key = name
  match this, refs, name with
  | true, _, some name => exact .of _
  | true, _, none => exact drafted_unsupportedExpr _ (by decide)
  | false, true, some name => exact ⟨rfl, rfl, fun _ => nofun⟩
  | false, true, none | false, false, none | false, false, some _ =>
    exact (hobj.bind hkey.last).congr (by simp) (by simp)

attribute [local simp] exprDraft accessDraft chainLinkDraft keyDraft propertyDraft funcDraft
  patDraft targetDraft patPropertyDraft stmtDraft optionDraft catchDraft caseDrafts caseLineDrafts
  headDraft

section

variable (s : Scope)

mutual

/-- An expression is written as drafted. -/
theorem expr_drafted {level : Nat} : ∀ e : Expr,
    Drafted isPlainCause (exprText s level e) (exprDraft s level e)
  | .template _ _ es | .array _ es | .seq _ es | .importCall _ es => (exprs_drafted es).last.congr
  | .spread _ e | .unary _ _ e | .yield _ _ (some e) | .await _ e
  | .typeAssertion _ _ e | .constAssertion _ e | .asType _ e _ | .satisfiesType _ e _
  | .nonNull _ e | .instantiation _ e _ => (expr_drafted e).last.congr
  | .update _ _ _ e | .paren _ e => by
    refine (expr_drafted e).last.congr ?_ ?_
    · rw [exprDraft]
      split <;> simp
    · rw [exprDraft]
      split <;> simp
  | .object _ props => (properties_drafted props).last.congr
  | .func name f => (func_drafted f).last.congr
      (by cases name <;> simp)
  | .arrow _ _ _ ps _ body => ((pats_drafted ps).bind (block_drafted body).last).congr
  | .arrowExpr _ _ _ ps _ e => by
    refine ((pats_drafted ps).bind (expr_drafted e).last).congr ?_ ?_
    · rw [exprDraft]
      split <;> simp [*]
    · rw [exprDraft]
      split <;> simp
  | .binary _ _ l r => ((expr_drafted l).bind (expr_drafted r).last).congr
  | .assign _ _ target value => ((target_drafted target).bind (expr_drafted value).last).congr
  | .cond _ test yes no => ((expr_drafted test).bind ((expr_drafted yes).bind
      (expr_drafted no).last)).congr
  | .member _ obj key => drafted_member (expr_drafted obj) (access_drafted key)
  | .chainMember _ isOptional obj key =>
    ((expr_drafted obj).bind (chainLink_drafted key).last).congr
  | .call _ callee _ args | .new _ callee args | .chainCall _ _ callee _ args =>
    ((expr_drafted callee).bind (exprs_drafted args).last).congr
  | .this _ | .taggedTemplate _ _ _ _ | .classExpr _ _ | .superMember _ _
  | .privateName _ | .jsx _ _ => drafted_unsupportedExpr _ (by decide)
  | .superCall _ _ _ _ => ⟨rfl, rfl, .single (by decide)⟩
  | .ident _ | .string _ | .number _ _ | .bigint _ _ | .null _ | .hole
  | .yield _ _ none | .metaProperty _ .newTarget | .metaProperty _ .importMeta => .of _
  | .bool _ _ | .regex _ _ _ => (Gives.of _).congr

theorem exprs_drafted {level : Nat} : ∀ es : List Expr,
    AllDrafted isPlainCause (exprTexts s level es) (exprDrafts s level es)
  | [] => .nil
  | e :: es => .cons (expr_drafted e) (exprs_drafted es)

theorem access_drafted {level : Nat} : ∀ key : Key,
    Drafted isPlainCause (accessText s level key) (accessDraft s level key)
  | .computed _ e => (expr_drafted e).last.congr
  | .ident _ | .string _ | .number _ _ | .bigint _ _ | .privateName _ => .of _

theorem chainLink_drafted {level : Nat} {isOptional : Bool} : ∀ key : Key,
    Drafted isPlainCause (chainLinkText s level isOptional key)
      (chainLinkDraft s level isOptional key)
  | .computed _ e => (expr_drafted e).last.congr
  | .ident _ | .string _ | .number _ _ | .bigint _ _ | .privateName _ => .of _

theorem key_drafted {level : Nat} : ∀ key : Key,
    Drafted isPlainCause (keyText s level key) (keyDraft s level key)
  | .computed _ e => (expr_drafted e).last.congr
  | .ident _ | .string _ | .number _ _ | .bigint _ _ | .privateName _ => .of _

theorem property_drafted {level : Nat} : ∀ p : Property,
    Drafted isPlainCause (propertyText s level p) (propertyDraft s level p)
  | .spread _ e | .initialized _ e => (expr_drafted e).last.congr
  | .shorthand _ => .of _
  | .keyValue key value => ((key_drafted key).bind (expr_drafted value).last).congr
  | .getter _ key _ body => ((key_drafted key).bind (block_drafted body).last).congr
  | .setter _ key param body => ((key_drafted key).bind ((pat_drafted param).bind
      (block_drafted body).last)).congr
  | .method _ key f => ((key_drafted key).bind (func_drafted f).last).congr

theorem properties_drafted {level : Nat} : ∀ ps : List Property,
    AllDrafted isPlainCause (propertyTexts s level ps) (propertyDrafts s level ps)
  | [] => .nil
  | p :: ps => .cons (property_drafted p) (properties_drafted ps)

theorem func_drafted {gap : String} {level : Nat} : ∀ f : Func,
    Drafted isPlainCause (funcText s gap level f) (funcDraft s gap level f)
  | .mk _ _ _ _ ps _ _ body =>
    ((pats_drafted ps).bind (block_drafted body).last).congr
      (by simp [functionDraft, functionText]) (by simp [functionDraft])

theorem pat_drafted {level : Nat} : ∀ p : Pat,
    Drafted isPlainCause (patText s level p) (patDraft s level p)
  | .hole => .of _
  | .ident _ _ _ => (Gives.of _).congr
  | .array _ es _ => (pats_drafted es).last.congr
  | .object _ ps _ => (patProperties_drafted ps).last.congr
  | .rest _ arg _ => (pat_drafted arg).last.congr
  | .withDefault _ left right => ((pat_drafted left).bind (expr_drafted right).last).congr
  | .expr e => expr_drafted e

theorem target_drafted {level : Nat} : ∀ p : Pat,
    Drafted isPlainCause (targetText s level p) (targetDraft s level p)
  | .hole | .rest _ _ _ | .withDefault _ _ _ => .of _
  | .ident _ _ _ => (Gives.of _).congr
  | .array _ es _ => (pats_drafted es).last.congr
  | .object _ ps _ => (patProperties_drafted ps).last.congr
  | .expr e => by
    cases e with
    | paren span inner =>
      exact (expr_drafted inner).last.congr
    | member span obj key => exact expr_drafted (.member span obj key)
    | asType span inner t => exact expr_drafted (.asType span inner t)
    | nonNull span inner => exact expr_drafted (.nonNull span inner)
    | chainMember span isOptional obj key =>
      exact expr_drafted (.chainMember span isOptional obj key)
    | chainCall span isOptional callee types args =>
      exact expr_drafted (.chainCall span isOptional callee types args)
    | _ => exact drafted_unsupportedExpr _ (by decide)

theorem pats_drafted {level : Nat} : ∀ ps : List Pat,
    AllDrafted isPlainCause (patTexts s level ps) (patDrafts s level ps)
  | [] => .nil
  | p :: ps => .cons (pat_drafted p) (pats_drafted ps)

theorem patProperty_drafted {level : Nat} : ∀ p : PatProperty,
    Drafted isPlainCause (patPropertyText s level p) (patPropertyDraft s level p)
  | .keyValue key value => ((key_drafted key).bind (pat_drafted value).last).congr
  | .shorthand _ _ none => .of _
  | .shorthand _ _ (some e) => (expr_drafted e).last.congr
  | .rest _ arg => (pat_drafted arg).last.congr

theorem patProperties_drafted {level : Nat} : ∀ ps : List PatProperty,
    AllDrafted isPlainCause (patPropertyTexts s level ps) (patPropertyDrafts s level ps)
  | [] => .nil
  | p :: ps => .cons (patProperty_drafted p) (patProperties_drafted ps)

theorem stmt_drafted {level : Nat} : ∀ stmt : Stmt,
    Drafted isPlainCause (stmtText s level stmt) (stmtDraft s level stmt)
  | .block _ body => (block_drafted body).last.congr
  | .return _ e => (option_drafted e).last.congr
  | .throw _ e | .expr _ e => (expr_drafted e).last.congr
  | .labeled _ _ body => (stmt_drafted body).last.congr
  | .ifThen _ test body | .while _ test body =>
    ((expr_drafted test).bind (stmt_drafted body).last).congr
  | .doWhile _ body test => ((stmt_drafted body).bind (expr_drafted test).last).congr
  | .ifElse _ test yes no => ((expr_drafted test).bind ((stmt_drafted yes).bind
      (stmt_drafted no).last)).congr
  | .switch _ subject cases => ((expr_drafted subject).bind (cases_drafted cases).last).congr
  | .tryCatch _ body param handler =>
    ((block_drafted body).bind ((catch_drafted param).bind
      (block_drafted handler).last)).congr
  | .tryFinally _ body finalizer =>
    ((block_drafted body).bind (block_drafted finalizer).last).congr
  | .tryCatchFinally _ body param handler finalizer =>
    ((block_drafted body).bind ((catch_drafted param).bind
      ((block_drafted handler).bind (block_drafted finalizer).last))).congr
  | .for _ init test update body =>
    ((head_drafted init).bind ((option_drafted test).bind
      ((option_drafted update).bind (stmt_drafted body).last))).congr
  | .forIn _ left right body | .forOf _ _ left right body =>
    ((head_drafted left).bind ((expr_drafted right).bind
      (stmt_drafted body).last)).congr
  | .varDecl _ _ _ ds => (pats_drafted ds).last.congr
  | .funcDecl _ f => (func_drafted f).last.congr
  | .typeDecl _ span _ => drafted_copied s span (by decide)
  | .withObject _ _ _ | .classDecl _ _ | .usingDecl _ _ => drafted_unsupportedStmt _ (by decide)
  | .empty _ | .debugger _ | .break _ none | .break _ (some _)
  | .continue _ none | .continue _ (some _) => .of _

theorem block_drafted {level : Nat} : ∀ body : List Stmt,
    AllDrafted isPlainCause (blockLines s level body) (blockDrafts s level body)
  | [] => .nil
  | stmt :: rest => by
    have hstmt := @stmt_drafted level stmt
    have hrest := @block_drafted level rest
    cases stmt with
    | empty span => exact hrest
    | _ => exact .cons hstmt hrest

theorem option_drafted {level : Nat} : ∀ e : Option Expr,
    Drafted isPlainCause (optionText s level e) (optionDraft s level e)
  | none => .of _
  | some e => (expr_drafted e).last.congr

theorem catch_drafted {level : Nat} : ∀ param : Option Pat,
    Drafted isPlainCause (catchText s level param) (catchDraft s level param)
  | none => .of _
  | some param => (pat_drafted param).last.congr

theorem cases_drafted {level : Nat} : ∀ cases : List Case,
    Drafted isPlainCause (caseTexts s level cases) (caseDrafts s level cases)
  | [] => .of _
  | .mk none body :: rest => ((caseLines_drafted body).bind (cases_drafted rest).last).congr
  | .mk (some test) body :: rest =>
    ((expr_drafted test).bind ((caseLines_drafted body).bind
      (cases_drafted rest).last)).congr

theorem caseLines_drafted {level : Nat} : ∀ body : List Stmt,
    Drafted isPlainCause (caseLines s level body) (caseLineDrafts s level body)
  | [] => .of _
  | stmt :: rest => ((stmt_drafted stmt).bind (caseLines_drafted rest).last).congr

theorem head_drafted {level : Nat} : ∀ head : ForHead,
    Drafted isPlainCause (headText s level head) (headDraft s level head)
  | .none => .of _
  | .usingDecl _ _ => drafted_unsupportedExpr _ (by decide)
  | .varDecl _ _ ds => (pats_drafted ds).last.congr
  | .pat p => pat_drafted p

end

end

end ScriptSetup.Setup
