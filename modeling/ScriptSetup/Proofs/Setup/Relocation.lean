import ScriptSetup.Proofs.Script.Relocation
import ScriptSetup.Proofs.Setup.Resolution

/-!
# Writing does not depend on places

Code that is moved to another place of another source is written the same, as long as what it
copies is the same text there. Only findings know where they are.
-/

set_option autoImplicit false

namespace ScriptSetup.Setup

open Script Written

/-- The same text with the same notes about template references. -/
structure SameText {α : Type} (w w' : Written α) : Prop where
  value : w.value = w'.value
  templateRefs : w.templateRefs = w'.templateRefs

namespace SameText

theorem refl {α : Type} (w : Written α) : SameText w w := ⟨rfl, rfl⟩

theorem bind {α β : Type} {w w' : Written α} {f f' : α → Written β} (hw : SameText w w')
    (hf : ∀ a, SameText (f a) (f' a)) : SameText (w >>= f) (w' >>= f') := by
  obtain ⟨hvalue, hrefs⟩ := hf w'.value
  constructor
  · show (f w.value).value = (f' w'.value).value
    rw [hw.value, hvalue]
  · show w.templateRefs ++ (f w.value).templateRefs = w'.templateRefs ++ (f' w'.value).templateRefs
    rw [hw.value, hw.templateRefs, hrefs]

theorem lastEq {α β : Type} {w w' : Written α} {g g' : α → β} (hw : SameText w w')
    (hg : ∀ a, g a = g' a) : SameText (w >>= fun a => pure (g a)) (w' >>= fun a => pure (g' a)) :=
  hw.bind fun a => hg a ▸ refl _

theorem last {α β : Type} {w w' : Written α} {g : α → β} (hw : SameText w w') :
    SameText (w >>= fun a => pure (g a)) (w' >>= fun a => pure (g a)) :=
  hw.lastEq fun _ => rfl

theorem replaced {what : String} {span span' : Span} :
    SameText (unsupportedExpr what span) (unsupportedExpr what span') := ⟨rfl, rfl⟩

end SameText

/-! ## What moving leaves as it is -/

theorem isThis_relocate (ρ : Span → Span) (e : Expr) : isThis (relocateExpr ρ e) = isThis e := by
  cases e with
  | _ => rfl

theorem accessName?_relocate (ρ : Span → Span) (key : Key) :
    accessName? (relocateKey ρ key) = accessName? key := by
  cases key with
  | computed span e =>
    cases e with
    | _ => rfl
  | _ => rfl

theorem isTemplateRefs_relocate (ρ : Span → Span) (e : Expr) :
    isTemplateRefs (relocateExpr ρ e) = isTemplateRefs e := by
  cases e with
  | member span obj key =>
    cases obj with
    | this span => exact congrArg (· == some "$refs") (accessName?_relocate ρ key)
    | _ => rfl
  | _ => rfl

/-- The writer cannot tell from the shape of a part that it was moved. -/
theorem looks_relocateExpr (ρ : Span → Span) (e : Expr) :
    isObject (relocateExpr ρ e) = isObject e ∧
      carriesParens (relocateExpr ρ e) = carriesParens e := by
  cases e with
  | _ => exact ⟨rfl, rfl⟩

theorem looks_relocateStmt (ρ : Span → Span) (stmt : Stmt) :
    isBlock (relocateStmt ρ stmt) = isBlock stmt ∧
      isEmptyStmt (relocateStmt ρ stmt) = isEmptyStmt stmt := by
  cases stmt with
  | _ => exact ⟨rfl, rfl⟩

theorem isAsync_relocateFunc (ρ : Span → Span) (f : Func) :
    (relocateFunc ρ f).isAsync = f.isAsync := by
  cases f
  rfl

theorem isGenerator_relocateFunc (ρ : Span → Span) (f : Func) :
    (relocateFunc ρ f).isGenerator = f.isGenerator := by
  cases f
  rfl

/-! ## Copied text -/

/-- The same text stands in a place of one source and in the new place in another. -/
def SameCopy (ρ : Span → Span) (source source' : List Char) (span : Span) : Prop :=
  (ρ span).slice? source' = span.slice? source

instance (ρ : Span → Span) (source source' : List Char) (span : Span) :
    Decidable (SameCopy ρ source source' span) :=
  inferInstanceAs (Decidable (_ = _))

/-- The same state, over another source. -/
def Scope.over (s : Scope) (source : List Char) : Scope := { s with source }

section

variable {ρ : Span → Span} {s : Scope} {source' : List Char}

theorem verbatim_relocate {span : Span} (h : SameCopy ρ s.source source' span) :
    (s.over source').verbatim (ρ span) = s.verbatim span :=
  congrArg (Option.map String.ofList) h

theorem typeText_relocate {t : TypeText} (h : SameCopy ρ s.source source' t.span) :
    (s.over source').typeText (relocateType ρ t) = s.typeText t :=
  congrArg (Option.getD · ("any " ++ exprPlaceholder)) (verbatim_relocate h)

theorem typeAnn_relocate {t : Option TypeText} (h : typeKeeps (SameCopy ρ s.source source') t) :
    (s.over source').typeAnn (t.map (relocateType ρ)) = s.typeAnn t := by
  cases t with
  | none => rfl
  | some t => exact congrArg (": " ++ ·) (typeText_relocate h)

theorem typeList_relocate {t : Option TypeText} (h : typeKeeps (SameCopy ρ s.source source') t) :
    (s.over source').typeList (t.map (relocateType ρ)) = s.typeList t := by
  cases t with
  | none => rfl
  | some t => exact congrArg (Option.getD · "") (verbatim_relocate h)

theorem boundText_relocate {id : Ident} {isOptional : Bool} {type : Option TypeText}
    (h : typeKeeps (SameCopy ρ s.source source') type) :
    boundText (s.over source') (relocateIdent ρ id) isOptional (type.map (relocateType ρ)) =
      boundText s id isOptional type := by
  rw [boundText, boundText, typeAnn_relocate h]
  rfl

/-- Text is copied the same, or a placeholder stands for it in both. -/
theorem copied_relocate {what : String} {span : Span} (h : SameCopy ρ s.source source' span) :
    SameText
      (match (s.over source').verbatim (ρ span) with
        | some text => of text
        | none => unsupportedStmt what (ρ span))
      (match s.verbatim span with
        | some text => of text
        | none => unsupportedStmt what span) := by
  rw [verbatim_relocate h]
  cases s.verbatim span with
  | none => exact ⟨rfl, rfl⟩
  | some text => exact .refl _

/-- Code is written the same in its new place, where what it copies is the same text. -/
def Moves {α β : Type} (ρ : Span → Span) (s : Scope) (source' : List Char) (level : Nat)
    (keeps : (Span → Prop) → α → Prop) (relocate : (Span → Span) → α → α)
    (write : Scope → Nat → α → Written β) (code : α) : Prop :=
  keeps (SameCopy ρ s.source source') code →
    SameText (write (s.over source') level (relocate ρ code)) (write s level code)

/-- An access is written from its parts, wherever they stand. -/
theorem exprText_relocate_member {level : Nat} {span : Span} {obj : Expr} {key : Key}
    (hobj : SameText (exprText (s.over source') level (relocateExpr ρ obj)) (exprText s level obj))
    (hkey : SameText (accessText (s.over source') level (relocateKey ρ key))
      (accessText s level key)) :
    SameText (exprText (s.over source') level (relocateExpr ρ (.member span obj key)))
      (exprText s level (.member span obj key)) := by
  show SameText (exprText (s.over source') level
    (.member (ρ span) (relocateExpr ρ obj) (relocateKey ρ key))) _
  rw [exprText_member, exprText_member, isThis_relocate, isTemplateRefs_relocate,
    accessName?_relocate]
  split
  · exact .refl _
  · exact ⟨rfl, rfl⟩
  · exact .refl _
  · exact hobj.bind fun _ => hkey.last

mutual

/-- An expression is written the same in its new place. -/
theorem exprText_relocate {level : Nat} : ∀ e : Expr,
    Moves ρ s source' level exprKeeps relocateExpr exprText e
  | .template _ _ es, h | .array _ es, h | .seq _ es, h | .importCall _ es, h =>
    (exprTexts_relocate es h).last
  | .spread _ e, h | .unary _ _ e, h | .update _ _ _ e, h | .yield _ _ (some e), h | .await _ e, h
  | .constAssertion _ e, h | .nonNull _ e, h => (exprText_relocate e h).last
  | .paren _ e, h => (exprText_relocate e h).lastEq fun _ => by rw [(looks_relocateExpr ρ e).2]
  | .typeAssertion _ t e, h | .asType _ e t, h | .satisfiesType _ e t, h =>
    (exprText_relocate e h.2).lastEq fun _ => by rw [typeText_relocate h.1]
  | .instantiation _ e t, h =>
    (exprText_relocate e h.2).lastEq fun _ => by
      rw [← Option.map_some (f := relocateType ρ), typeList_relocate (t := some t) h.1]
  | .object _ props, h => (propertyTexts_relocate props h).last
  | .func name f, h => (funcText_relocate f h).bind fun _ => by
      rw [isAsync_relocateFunc, isGenerator_relocateFunc]
      cases name <;> exact .refl _
  | .arrow _ _ tps ps r body, h => (patTexts_relocate ps h.2.1).bind fun _ =>
    (blockLines_relocate body h.2.2.2).lastEq fun _ => by
      rw [typeList_relocate h.1, typeAnn_relocate h.2.2.1]
  | .arrowExpr _ _ tps ps r e, h => (patTexts_relocate ps h.2.1).bind fun _ =>
    (exprText_relocate e h.2.2.2).lastEq fun _ => by
      rw [typeList_relocate h.1, typeAnn_relocate h.2.2.1, (looks_relocateExpr ρ e).1]
  | .binary _ _ l r, h => (exprText_relocate l h.1).bind fun _ => (exprText_relocate r h.2).last
  | .assign _ _ target value, h => (targetText_relocate target h.1).bind fun _ =>
    (exprText_relocate value h.2).last
  | .cond _ test yes no, h => (exprText_relocate test h.1).bind fun _ =>
    (exprText_relocate yes h.2.1).bind fun _ => (exprText_relocate no h.2.2).last
  | .member _ obj key, h =>
    exprText_relocate_member (exprText_relocate obj h.1)
      (accessText_relocate key h.2)
  | .chainMember _ isOptional obj key, h => (exprText_relocate obj h.1).bind fun _ =>
    (chainLinkText_relocate key h.2).last
  | .call _ callee _ args, h | .chainCall _ _ callee _ args, h =>
    (exprText_relocate callee h.1).bind fun _ =>
    (exprTexts_relocate args h.2.2).lastEq fun _ => by rw [typeList_relocate h.2.1]
  | .new _ callee args, h => (exprText_relocate callee h.1).bind fun _ =>
    (exprTexts_relocate args h.2).last
  | .ident _, _ | .this _, _ | .string _, _ | .number _ _, _ | .bigint _ _, _ | .bool _ _, _
  | .null _, _ | .regex _ _ _, _ | .taggedTemplate _ _ _ _, _ | .hole, _ | .classExpr _ _, _
  | .superMember _ _, _ | .superCall _ _ _ _, _ | .yield _ _ none, _
  | .metaProperty _ .newTarget, _ | .metaProperty _ .importMeta, _ | .privateName _, _
  | .jsx _ _, _ => ⟨rfl, rfl⟩

theorem exprTexts_relocate {level : Nat} : ∀ es : List Expr,
    Moves ρ s source' level exprsKeep relocateExprs exprTexts es
  | [], _ => .refl _
  | e :: es, h => (exprText_relocate e h.1).bind fun _ => (exprTexts_relocate es h.2).last

theorem accessText_relocate {level : Nat} : ∀ key : Key,
    Moves ρ s source' level keyKeeps relocateKey accessText key
  | .computed _ e, h => (exprText_relocate e h).last
  | .ident _, _ | .string _, _ | .number _ _, _ | .bigint _ _, _ | .privateName _, _ => .refl _

theorem keyText_relocate {level : Nat} : ∀ key : Key,
    Moves ρ s source' level keyKeeps relocateKey keyText key
  | .computed _ e, h => (exprText_relocate e h).last
  | .ident _, _ | .string _, _ | .number _ _, _ | .bigint _ _, _ | .privateName _, _ => .refl _

theorem chainLinkText_relocate {level : Nat} {isOptional : Bool} : ∀ key : Key,
    Moves ρ s source' level keyKeeps relocateKey (chainLinkText · · isOptional) key
  | .computed _ e, h => (exprText_relocate e h).last
  | .ident _, _ | .string _, _ | .number _ _, _ | .bigint _ _, _ | .privateName _, _ => .refl _

theorem propertyText_relocate {level : Nat} : ∀ p : Property,
    Moves ρ s source' level propertyKeeps relocateProperty propertyText p
  | .spread _ e, h | .initialized _ e, h => (exprText_relocate e h).last
  | .shorthand _, _ => .refl _
  | .keyValue key value, h => (keyText_relocate key h.1).bind fun _ =>
    (exprText_relocate value h.2).last
  | .getter _ key _ body, h => (keyText_relocate key h.1).bind fun _ =>
    (blockLines_relocate body h.2.2).lastEq fun _ => by rw [typeAnn_relocate h.2.1]
  | .setter _ key param body, h => (keyText_relocate key h.1).bind fun _ =>
    (patText_relocate param h.2.1).bind fun _ => (blockLines_relocate body h.2.2).last
  | .method _ key f, h => (keyText_relocate key h.1).bind fun _ =>
    (funcText_relocate f h.2).lastEq fun _ => by rw [isAsync_relocateFunc, isGenerator_relocateFunc]

theorem propertyTexts_relocate {level : Nat} : ∀ ps : List Property,
    Moves ρ s source' level propertiesKeep relocateProperties propertyTexts ps
  | [], _ => .refl _
  | p :: ps, h => (propertyText_relocate p h.1).bind fun _ => (propertyTexts_relocate ps h.2).last

theorem funcText_relocate {gap : String} {level : Nat} : ∀ f : Func,
    Moves ρ s source' level funcKeeps relocateFunc (funcText · gap ·) f
  | .mk _ _ _ _ ps _ _ body, h => (patTexts_relocate ps h.2.1).bind fun _ =>
    (blockLines_relocate body h.2.2.2).bind fun _ => by
      simp only [functionText, Func.typeParams, Func.returnType, typeList_relocate h.1,
        typeAnn_relocate h.2.2.1]
      exact .refl _

theorem patText_relocate {level : Nat} : ∀ p : Pat,
    Moves ρ s source' level patKeeps relocatePat patText p
  | .hole, _ => .refl _
  | .ident _ _ _, h => ⟨boundText_relocate h, rfl⟩
  | .array _ es _, h => (patTexts_relocate es h.1).lastEq fun _ => by rw [typeAnn_relocate h.2]
  | .object _ ps _, h =>
    (patPropertyTexts_relocate ps h.1).lastEq fun _ => by rw [typeAnn_relocate h.2]
  | .rest _ arg _, h => (patText_relocate arg h.1).lastEq fun _ => by rw [typeAnn_relocate h.2]
  | .withDefault _ left right, h => (patText_relocate left h.1).bind fun _ =>
    (exprText_relocate right h.2).last
  | .expr e, h => exprText_relocate e h

theorem targetText_relocate {level : Nat} : ∀ p : Pat,
    Moves ρ s source' level patKeeps relocatePat targetText p
  | .ident _ _ _, h => ⟨boundText_relocate h, rfl⟩
  | .array _ es _, h => (patTexts_relocate es h.1).lastEq fun _ => by rw [typeAnn_relocate h.2]
  | .object _ ps _, h =>
    (patPropertyTexts_relocate ps h.1).lastEq fun _ => by rw [typeAnn_relocate h.2]
  | .expr e, h => by
    cases e with
    | paren span inner => exact (exprText_relocate inner h).last
    | member span obj key => exact exprText_relocate (.member span obj key) h
    | asType span inner t => exact exprText_relocate (.asType span inner t) h
    | nonNull span inner => exact exprText_relocate (.nonNull span inner) h
    | chainMember span isOptional obj key =>
      exact exprText_relocate (.chainMember span isOptional obj key) h
    | chainCall span isOptional callee types args =>
      exact exprText_relocate (.chainCall span isOptional callee types args) h
    | _ => exact .replaced
  | .hole, _ | .rest _ _ _, _ | .withDefault _ _ _, _ => .refl _

theorem patTexts_relocate {level : Nat} : ∀ ps : List Pat,
    Moves ρ s source' level patsKeep relocatePats patTexts ps
  | [], _ => .refl _
  | p :: ps, h => (patText_relocate p h.1).bind fun _ => (patTexts_relocate ps h.2).last

theorem patPropertyText_relocate {level : Nat} : ∀ p : PatProperty,
    Moves ρ s source' level patPropertyKeeps relocatePatProperty patPropertyText p
  | .keyValue key value, h => (keyText_relocate key h.1).bind fun _ =>
    (patText_relocate value h.2).last
  | .shorthand _ _ none, _ => .refl _
  | .shorthand _ _ (some e), h => (exprText_relocate e h).last
  | .rest _ arg, h => (patText_relocate arg h).last

theorem patPropertyTexts_relocate {level : Nat} : ∀ ps : List PatProperty,
    Moves ρ s source' level patPropertiesKeep relocatePatProperties patPropertyTexts ps
  | [], _ => .refl _
  | p :: ps, h => (patPropertyText_relocate p h.1).bind fun _ =>
    (patPropertyTexts_relocate ps h.2).last

theorem stmtText_relocate {level : Nat} : ∀ stmt : Stmt,
    Moves ρ s source' level stmtKeeps relocateStmt stmtText stmt
  | .block _ body, h => (blockLines_relocate body h).last
  | .return _ e, h => (optionText_relocate e h).last
  | .throw _ e, h | .expr _ e, h => (exprText_relocate e h).last
  | .labeled _ _ body, h => (stmtText_relocate body h).last
  | .ifThen _ test body, h | .while _ test body, h => (exprText_relocate test h.1).bind fun _ =>
    (stmtText_relocate body h.2).last
  | .doWhile _ body test, h => (stmtText_relocate body h.2).bind fun _ =>
    (exprText_relocate test h.1).last
  | .ifElse _ test yes no, h => (exprText_relocate test h.1).bind fun _ =>
    (stmtText_relocate yes h.2.1).bind fun _ =>
    (stmtText_relocate no h.2.2).lastEq fun _ => by rw [(looks_relocateStmt ρ yes).1]
  | .switch _ subject cases, h => (exprText_relocate subject h.1).bind fun _ =>
    (caseTexts_relocate cases h.2).last
  | .tryCatch _ body param handler, h => (blockLines_relocate body h.1).bind fun _ =>
    (catchText_relocate param h.2.1).bind fun _ => (blockLines_relocate handler h.2.2).last
  | .tryFinally _ body finalizer, h =>
    (blockLines_relocate body h.1).bind fun _ => (blockLines_relocate finalizer h.2).last
  | .tryCatchFinally _ body param handler finalizer, h =>
    (blockLines_relocate body h.1).bind fun _ => (catchText_relocate param h.2.1).bind fun _ =>
    (blockLines_relocate handler h.2.2.1).bind fun _ => (blockLines_relocate finalizer h.2.2.2).last
  | .for _ init test update body, h => (headText_relocate init h.1).bind fun _ =>
    (optionText_relocate test h.2.1).bind fun _ =>
    (optionText_relocate update h.2.2.1).bind fun _ => (stmtText_relocate body h.2.2.2).last
  | .forIn _ left right body, h | .forOf _ _ left right body, h =>
    (headText_relocate left h.1).bind fun _ => (exprText_relocate right h.2.1).bind fun _ =>
    (stmtText_relocate body h.2.2).last
  | .varDecl _ _ _ ds, h => (patTexts_relocate ds h).last
  | .funcDecl _ f, h => (funcText_relocate f h).lastEq fun _ => by
      rw [isAsync_relocateFunc, isGenerator_relocateFunc]
      rfl
  | .typeDecl _ _ _, h => copied_relocate h
  | .empty _, _ | .debugger _, _ | .break _ none, _ | .break _ (some _), _
  | .continue _ none, _ | .continue _ (some _), _ | .withObject _ _ _, _ | .classDecl _ _, _
  | .usingDecl _ _, _ => ⟨rfl, rfl⟩

theorem blockLines_relocate {level : Nat} : ∀ body : List Stmt,
    Moves ρ s source' level stmtsKeep relocateStmts blockLines body
  | [], _ => .refl _
  | stmt :: rest, h => by
    have hstmt := @stmtText_relocate level stmt h.1
    have hrest := @blockLines_relocate level rest h.2
    show SameText
      (blockLines (s.over source') level (relocateStmt ρ stmt :: relocateStmts ρ rest)) _
    rw [blockLines_cons, blockLines_cons, (looks_relocateStmt ρ stmt).2]
    cases isEmptyStmt stmt with
    | true => exact hrest
    | false => exact hstmt.bind fun _ => hrest.last

theorem optionText_relocate {level : Nat} : ∀ e : Option Expr,
    Moves ρ s source' level optionKeeps relocateOption optionText e
  | none, _ => .refl _
  | some e, h => (exprText_relocate e h).last

theorem catchText_relocate {level : Nat} : ∀ param : Option Pat,
    Moves ρ s source' level paramKeeps relocateParam catchText param
  | none, _ => .refl _
  | some param, h => (patText_relocate param h).last

theorem caseTexts_relocate {level : Nat} : ∀ cases : List Case,
    Moves ρ s source' level casesKeep relocateCases caseTexts cases
  | [], _ => .refl _
  | .mk none body :: rest, h => (caseLines_relocate body h.2.1).bind fun _ =>
    (caseTexts_relocate rest h.2.2).last
  | .mk (some test) body :: rest, h => (exprText_relocate test h.1).bind fun _ =>
    (caseLines_relocate body h.2.1).bind fun _ => (caseTexts_relocate rest h.2.2).last

theorem caseLines_relocate {level : Nat} : ∀ body : List Stmt,
    Moves ρ s source' level stmtsKeep relocateStmts caseLines body
  | [], _ => .refl _
  | stmt :: rest, h => (stmtText_relocate stmt h.1).bind fun _ => (caseLines_relocate rest h.2).last

theorem headText_relocate {level : Nat} : ∀ head : ForHead,
    Moves ρ s source' level headKeeps relocateHead headText head
  | .none, _ => .refl _
  | .usingDecl _ _, _ => ⟨rfl, rfl⟩
  | .varDecl _ _ ds, h => (patTexts_relocate ds h).last
  | .pat p, h => patText_relocate p h

end

end

end ScriptSetup.Setup
