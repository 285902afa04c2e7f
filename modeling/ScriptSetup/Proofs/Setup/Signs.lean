import Mathlib.Logic.Relation
import ScriptSetup.Proofs.Script.ModuleReaders
import ScriptSetup.Proofs.Setup.PartDrafts

/-!
# Signs

Two signs of one kind side by side are one operator. The text of an expression starts with that
operator where the expressions that it starts with lead to a decrement or increment written before
its operand (`doubled_sign_iff`). The exception are the type parameters of an arrow function, which
are copied from the source. Within a text, no sign stands right after the same sign.
-/

set_option autoImplicit false

namespace ScriptSetup.Setup

open Script Written Text

/-- The expression whose text comes first in the text of an expression. -/
def firstPart? : Expr → Option Expr
  | .update _ _ false e | .cond _ e _ _ | .member _ e _ | .call _ e _ _ | .chainMember _ _ e _
  | .chainCall _ _ e _ _ | .constAssertion _ e | .asType _ e _ | .satisfiesType _ e _
  | .nonNull _ e | .instantiation _ e _ => some e
  | .assign _ _ (.expr e) _ => if isWritableTarget e then some e else none
  | .paren _ e => if carriesParens e then some e else none
  | _ => none

/-- From an expression to those whose texts come first in it. -/
def LeadsTo : Expr → Expr → Prop :=
  Relation.ReflTransGen fun e e' => firstPart? e = some e'

/-- The type parameters that come first in the text of an arrow function. -/
def firstTypes? : Expr → Option TypeText
  | .arrow _ false tps _ _ _ | .arrowExpr _ false tps _ _ _ => tps
  | _ => none

/-- No `this` stands in the expression. -/
def thisFree (e : Expr) : Bool :=
  (exprNodes e).all fun n => match n with
    | .expr e => !isThis e
    | .type _ => true

/-! ## Texts -/

/-- The text starts with something else than a sign. -/
def plain (t : String) : Bool :=
  t.toList.head?.any fun c => c != '-' && c != '+'

/-- What follows does not change whether the text starts with a doubled sign. -/
def Settled (t : String) : Prop :=
  ∀ (op : UpdateOp) (r : String), startsWith op.text (t ++ r) = startsWith op.text t

/-- Whatever follows, the text does not start with a doubled sign. -/
def Single (t : String) : Prop :=
  ∀ (op : UpdateOp) (r : String), startsWith op.text (t ++ r) = false

section

variable {t r : String}

theorem Settled.append (h : Settled t) : Settled (t ++ r) := fun op r' => by
  rw [String.append_assoc, h, h]

theorem Settled.ne_empty (h : Settled t) : t ≠ "" := by
  rintro rfl
  have hsigns := h .increment "++"
  revert hsigns
  decide

theorem Single.append (h : Single t) : Single (t ++ r) := fun op r' => by
  rw [String.append_assoc, h]

theorem Single.starts (h : Single t) (op : UpdateOp) : startsWith op.text t = false := by
  simpa using h op ""

theorem single_of_head {p : Char → Bool} (h : t.toList.head?.any p = true)
    (hp : p '-' = false ∧ p '+' = false := by decide) : Single t := by
  intro op r
  obtain ⟨c, hc, h⟩ := (Option.any_eq_true _ _).1 h
  obtain ⟨cs, ht⟩ := List.head?_eq_some_iff.1 hc
  have hsigns : ('-' == c) = false ∧ ('+' == c) = false := by grind
  rw [startsWith, String.toList_append, ht]
  cases op <;> simp [UpdateOp.text, List.isPrefixOf, hsigns]

theorem single_of_plain (h : plain t = true) : Single t := single_of_head h

theorem single_of_nameFits (h : nameFits t = true) : Single t := by
  refine single_of_head (p := isNameStart) ?_
  rw [nameFits] at h
  split at h
  · cases h
  · next heq =>
    rw [heq]
    exact (Bool.and_eq_true_iff.1 h).1

/-- A sign and its operand are kept apart. -/
theorem unaryText_sign {op : UnaryOp} (hop : op = .minus ∨ op = .plus) (ht : t ≠ "") :
    ∃ r, unaryText op t = op.text ++ r ∧ r ≠ "" ∧ startsWith op.text r = false := by
  by_cases h : startsWith op.text t = true
  · refine ⟨" " ++ t, ?_, by simp, ?_⟩
    · obtain rfl | rfl := hop <;> simp [unaryText, h, String.append_assoc]
    · obtain rfl | rfl := hop <;> simp [startsWith, UnaryOp.text, List.isPrefixOf]
  · refine ⟨t, ?_, ht, by simpa using h⟩
    obtain rfl | rfl := hop <;> simp [unaryText, h]

theorem single_unaryText (op : UnaryOp) (ht : t ≠ "") : Single (unaryText op t) := by
  by_cases hop : op = .minus ∨ op = .plus
  · obtain ⟨r, hr, hne, hstart⟩ := unaryText_sign hop ht
    obtain ⟨c, cs, hcs⟩ := List.exists_cons_of_ne_nil fun h => hne (String.toList_eq_nil_iff.1 h)
    intro u r'
    rw [startsWith, hcs] at hstart
    rw [hr, startsWith, String.toList_append, String.toList_append, hcs]
    obtain rfl | rfl := hop <;> cases u <;>
      simp_all [UpdateOp.text, UnaryOp.text, List.isPrefixOf]
  · refine single_of_plain ?_
    cases op <;> simp_all [unaryText, UnaryOp.text, plain]

theorem startsWith_paren (op : UpdateOp) :
    startsWith op.text (t ++ "(" ++ r) = startsWith op.text t := by
  rw [startsWith, startsWith, String.toList_append, String.toList_append]
  rcases t.toList with _ | ⟨a, _ | ⟨b, cs⟩⟩ <;> cases op <;> simp [UpdateOp.text, List.isPrefixOf]

end

/-! ## Expressions and their first parts -/

/-- The text of an expression that starts with `op` as nothing else comes first in it. -/
def OpensWith (s : Scope) (op : UpdateOp) (e : Expr) : Prop :=
  (∃ span arg, e = .update span op true arg) ∨
    startsWith op.text (s.typeList (firstTypes? e)) = true

/-- The first parts of an expression say whether its text starts with a doubled sign. -/
structure Opens (s : Scope) (e : Expr) (t : String) : Prop where
  settled : Settled t
  starts : ∀ op, startsWith op.text t = true ↔ ∃ e', LeadsTo e e' ∧ OpensWith s op e'

section

variable {s : Scope} {level : Nat} {e e' : Expr} {t r : String}

theorem not_opensWith {op : UpdateOp} (htypes : firstTypes? e = none)
    (hupdate : ∀ span arg, e ≠ .update span op true arg) : ¬ OpensWith s op e := by
  rintro (⟨span, arg, h⟩ | h)
  · exact hupdate span arg h
  · rw [htypes] at h
    cases op <;> cases h

theorem opens_first (h : firstPart? e = some e') (hopens : Opens s e' t) :
    Opens s e (t ++ r) := by
  refine ⟨hopens.settled.append, fun op => ?_⟩
  rw [hopens.settled op r, hopens.starts op]
  refine exists_congr fun x => and_congr_left fun hx => ⟨.head h, fun hlead => ?_⟩
  obtain rfl | ⟨e₁, h₁, hlead⟩ := Relation.ReflTransGen.cases_head hlead
  · refine absurd hx (not_opensWith ?_ ?_)
    · cases e <;> first | rfl | cases h
    · rintro span arg rfl
      cases h
  · cases h.symm.trans h₁
    exact hlead

theorem leadsTo_last (h : firstPart? e = none) (hlead : LeadsTo e e') : e' = e := by
  obtain rfl | ⟨e₁, h₁, -⟩ := Relation.ReflTransGen.cases_head hlead
  · rfl
  · cases h.symm.trans h₁

theorem opens_last (h : firstPart? e = none) (hsettled : Settled t)
    (hstarts : ∀ op, startsWith op.text t = true ↔ OpensWith s op e) : Opens s e t := by
  refine ⟨hsettled, fun op => (hstarts op).trans ⟨fun hop => ⟨e, .refl, hop⟩, ?_⟩⟩
  rintro ⟨e', hlead, hop⟩
  exact leadsTo_last h hlead ▸ hop

theorem opens_update {span : Span} {op : UpdateOp} {arg : Expr} :
    Opens s (.update span op true arg) (op.text ++ r) := by
  refine opens_last rfl (fun op' r' => ?_) fun op' => ?_ <;> cases op <;> cases op' <;>
    simp [startsWith, UpdateOp.text, List.isPrefixOf, OpensWith, firstTypes?, Scope.typeList]

theorem opens_types (r : String) (h : firstPart? e = none)
    (hupdate : ∀ span op arg, e ≠ .update span op true arg) :
    Opens s e (s.typeList (firstTypes? e) ++ "(" ++ r) := by
  refine opens_last h (fun op r' => ?_) fun op => ?_
  · rw [String.append_assoc, startsWith_paren, startsWith_paren]
  · rw [startsWith_paren, OpensWith, or_iff_right]
    rintro ⟨span, arg, he⟩
    exact hupdate span op arg he

theorem opens_single (h : firstPart? e = none) (ht : Single t) (htypes : firstTypes? e = none)
    (hupdate : ∀ span op arg, e ≠ .update span op true arg) : Opens s e t := by
  refine opens_last h (fun op r => by rw [ht, ht.starts]) fun op => ?_
  have hnot : ¬ OpensWith s op e := not_opensWith htypes fun span => hupdate span op
  simp [ht.starts, hnot]

theorem value_bind {α β : Type} (w : Written α) (f : α → Written β) :
    (w >>= f).value = (f w.value).value := rfl

attribute [local simp] exprText value_bind of unsupportedExpr exprPlaceholder plain
  asyncText

theorem single_assign {target : Pat} {span : Span} {op : AssignOp} {value : Expr}
    (h : firstPart? (.assign span op target value) = none) (hsound : target.Sound) :
    Single ((targetText s level target).value ++ " ") := by
  cases target with
  | ident id isOptional type => exact (single_of_nameFits hsound.out.fits).append.append.append
  | expr e =>
    refine single_of_plain ?_
    cases e
    case paren => simp [targetText]
    all_goals simp_all [targetText, firstPart?, isWritableTarget]
  | object span props type =>
    refine single_of_plain ?_
    simp only [targetText, value_bind, value_pure, patternText]
    split <;> simp
  | _ => exact single_of_plain (by simp [targetText])

theorem plain_objectText (props : List String) : plain (objectText level props) = true := by
  unfold objectText
  split
  · simp
  · split <;> simp

/-- The text of an expression in which no other expression comes first. -/
theorem opens_exprText_last (h : firstPart? e = none) (hsound : e.Sound) (hhole : e ≠ .hole)
    (harg : ∀ span op arg, e = .unary span op arg → (exprText s level arg).value ≠ "") :
    Opens s e (exprText s level e).value := by
  cases e
  case hole => exact absurd rfl hhole
  case update span op isBefore arg =>
    cases isBefore with
    | false => cases h
    | true => exact opens_update
  case arrow span isAsync tps ps r b =>
    cases isAsync with
    | false =>
      have hopens := @opens_types s (.arrow span false tps ps r b)
      simpa [String.append_assoc, firstTypes?] using hopens _ rfl
    | true => exact opens_single h (single_of_plain (by simp)) rfl (by simp)
  case arrowExpr span isAsync tps ps r b =>
    cases isAsync with
    | false =>
      have hopens := @opens_types s (.arrowExpr span false tps ps r b)
      simpa [String.append_assoc, firstTypes?] using hopens _ rfl
    | true => exact opens_single h (single_of_plain (by simp)) rfl (by simp)
  -- the others have a first part, or start with a token of their own
  all_goals first
    | (cases h; done)
    | refine opens_single h ?_ rfl (by simp)
  case unary span op arg => exact single_unaryText op (harg span op arg rfl)
  case assign =>
    rw [exprText, value_bind, value_bind]
    exact (single_assign h hsound).append.append.append
  case ident id => exact single_of_nameFits hsound.out.fits
  case number | bigint | string => exact single_of_head hsound
  all_goals refine single_of_plain ?_
  case bool span b => cases b <;> simp
  case object => exact plain_objectText _
  case func name f => cases hf : f.isAsync <;> simp [hf]
  case paren span e => simp_all [firstPart?]
  case yield span delegate e? => cases e? <;> simp
  case metaProperty span kind => cases kind <;> simp
  all_goals simp

theorem not_isThis {obj : Expr} (h : thisFree obj = true) :
    isThis obj = false ∧ isTemplateRefs obj = false := by
  have h := List.all_eq_true.1 h
  refine ⟨by simpa using h _ obj.mem_exprNodes, ?_⟩
  unfold isTemplateRefs
  split
  · exact nomatch h _ (List.mem_cons_of_mem _ List.mem_cons_self)
  · rfl

attribute [local simp] Expr.Sound exprNodes thisFree in
/-- The first part of an expression is part of its tree and of its text. -/
theorem firstPart?_spec (h : firstPart? e = some e') (hsound : e.Sound)
    (hthis : thisFree e = true) :
    (e'.Sound ∧ e' ≠ .hole ∧ thisFree e' = true) ∧ sizeOf e' < sizeOf e ∧
      ∃ r, (exprText s level e).value = (exprText s level e').value ++ r := by
  cases e
  case member span obj key =>
    have hobj : thisFree obj = true := by simp_all
    cases h
    simp_all [not_isThis hobj]
    omega
  case update span op isBefore e =>
    cases isBefore <;> cases h
    simp_all
  case assign span op target value =>
    cases target
    case expr e =>
      simp only [firstPart?, Option.ite_none_right_eq_some, Option.some.injEq] at h
      obtain ⟨hw, rfl⟩ := h
      have htarget : targetText s level (.expr e) = exprText s level e ∧ e ≠ .hole := by
        cases e <;> simp_all [isWritableTarget, targetText]
      refine ⟨⟨hsound, htarget.2, ?_⟩, by simp; omega, ?_⟩
      · simp_all [patNodes]
      · simp [htarget.1, String.append_assoc]
    all_goals cases h
  case paren span e =>
    simp only [firstPart?, Option.ite_none_right_eq_some, Option.some.injEq] at h
    obtain ⟨hw, rfl⟩ := h
    refine ⟨?_, by rw [Expr.paren.sizeOf_spec]; omega, "", by simp [hw]⟩
    cases e <;> simp_all [carriesParens]
  -- any other expression that has a first part starts with its text
  all_goals cases h
  all_goals simp_all [String.append_assoc]
  all_goals omega

end

/-- The first parts of a tree decide what its text starts with. -/
theorem opens_exprText (s : Scope) (level : Nat) (e : Expr) (hsound : e.Sound) (hhole : e ≠ .hole)
    (hthis : thisFree e = true) : Opens s e (exprText s level e).value := by
  rcases h : firstPart? e with _ | e'
  · refine opens_exprText_last h hsound hhole ?_
    rintro span op arg rfl
    have harg : thisFree arg = true := by simpa [thisFree, exprNodes, isThis] using hthis
    exact (opens_exprText s level arg hsound.2 hsound.1 harg).settled.ne_empty
  · obtain ⟨⟨hsound', hhole', hthis'⟩, hsize, r, hr⟩ := firstPart?_spec h hsound hthis
    rw [hr]
    exact opens_first h (opens_exprText s level e' hsound' hhole' hthis')
termination_by sizeOf e

/-- A text starts with `--` or `++` exactly where its first parts lead to that operator before its
operand, or to an arrow function whose type parameters are copied from a place that starts so.
After a sign there is something, and it does not start with that sign. -/
theorem doubled_sign_iff {lang : Lang} {source : String} {items : List ModuleItem} {e : Expr}
    (hitems : parseModule lang source = .ok items) (he : .expr e ∈ moduleNodes items)
    (hthis : thisFree e = true) (s : Scope) (level : Nat) :
    (∀ op : UpdateOp, startsWith op.text (exprText s level e).value = true ↔
      ∃ e', LeadsTo e e' ∧ OpensWith s op e') ∧
    ∀ span op arg, e = .unary span op arg → op = .minus ∨ op = .plus →
      ∃ rest, (exprText s level e).value = op.text ++ rest ∧ rest ≠ "" ∧
        startsWith op.text rest = false := by
  have hsound : e.Sound := parseModule_wellFormed hitems _ he
  refine ⟨fun op => ?_, ?_⟩
  · by_cases hhole : e = .hole
    · subst hhole
      refine iff_of_false (by cases op <;> nofun) ?_
      rintro ⟨e', hlead, hop⟩
      obtain rfl := leadsTo_last rfl hlead
      exact not_opensWith rfl (by simp) hop
    · exact (opens_exprText s level e hsound hhole hthis).starts op
  · rintro span op arg rfl hop
    have harg : thisFree arg = true := by simpa [thisFree, exprNodes, isThis] using hthis
    have hopens := opens_exprText s level arg hsound.2 hsound.1 harg
    exact unaryText_sign hop hopens.settled.ne_empty

/-- An expression of a module that passes a test. -/
theorem exists_expr_of_any {source : String} (p : Expr → Bool)
    (h : (parseModule .typeScript source).toOption.any (fun items =>
      (moduleNodes items).any fun n => match n with
        | .expr e => p e
        | .type _ => false) = true) :
    ∃ items e, parseModule .typeScript source = .ok items ∧ .expr e ∈ moduleNodes items ∧
      p e = true := by
  obtain ⟨items, hitems, h⟩ := exists_ok_of_any h
  obtain ⟨e | t, he, h⟩ := List.any_eq_true.1 h
  · exact ⟨items, e, hitems, he, h⟩
  · cases h

/-- A decrement that is the first part of the first part of a choice. -/
def choiceSource : String := "--x.y as T ? - -z : 0;"

theorem choiceSource_doubled : ∃ items e,
    parseModule .typeScript choiceSource = .ok items ∧ .expr e ∈ moduleNodes items ∧
      (exprText ⟨choiceSource.toList, []⟩ 0 e).value = "--x.y as T ? - -z : 0" ∧
      ∃ e', LeadsTo e e' ∧ OpensWith ⟨choiceSource.toList, []⟩ .decrement e' := by
  obtain ⟨items, e, hitems, he, h⟩ := @exists_expr_of_any choiceSource (fun e => thisFree e &&
    (exprText ⟨choiceSource.toList, []⟩ 0 e).value == "--x.y as T ? - -z : 0") (by decide +kernel)
  obtain ⟨hthis, htext⟩ := Bool.and_eq_true_iff.1 h
  obtain ⟨hstarts, -⟩ := doubled_sign_iff hitems he hthis ⟨choiceSource.toList, []⟩ 0
  refine ⟨items, e, hitems, he, eq_of_beq htext, (hstarts .decrement).1 ?_⟩
  rw [eq_of_beq htext]
  decide

/-- Behind a byte order mark, types are copied from three bytes before their place. -/
def markedSource : String := "\ufeffx--;<T>(y)=>y;"

theorem markedSource_doubled : ∃ items e,
    parseModule .typeScript markedSource = .ok items ∧ .expr e ∈ moduleNodes items ∧
      thisFree e = true ∧ (exprText ⟨markedSource.toList, []⟩ 0 e).value = "--;(y) => y" ∧
      ¬ ∃ span arg, LeadsTo e (.update span .decrement true arg) := by
  obtain ⟨items, e, hitems, he, h⟩ := @exists_expr_of_any markedSource (fun e => thisFree e &&
    (exprText ⟨markedSource.toList, []⟩ 0 e).value == "--;(y) => y" &&
      (firstTypes? e).isSome) (by decide +kernel)
  simp only [Bool.and_eq_true, beq_iff_eq] at h
  obtain ⟨⟨hthis, htext⟩, htypes⟩ := h
  refine ⟨items, e, hitems, he, hthis, htext, ?_⟩
  rintro ⟨span, arg, hlead⟩
  have hlast : firstPart? e = none := by
    cases e <;> first | rfl | cases htypes
  obtain rfl := leadsTo_last hlast hlead
  cases htypes

end ScriptSetup.Setup
