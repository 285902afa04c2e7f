import Mathlib.Data.List.Forall2
import Mathlib.Tactic.GCongr
import ScriptSetup.Proofs.Setup.Resolution

/-!
# Indentation

The level at which code is written changes nothing but the spaces at the start of its lines after
the first. `Alike` says so of two texts, in a form that goes through everything a text is put
together from: a text on one line is like no other text, so a layout that looks at its parts comes
out the same.
-/

set_option autoImplicit false

namespace ScriptSetup.Setup

open Script Written Text

/-! ## Texts -/

/-- The same characters, but for the number of spaces after some line feeds. -/
inductive Reindents : List Char → List Char → Prop where
  | nil : Reindents [] []
  | cons (c : Char) {cs ds : List Char} : Reindents cs ds → Reindents (c :: cs) (c :: ds)
  | indent (m n : Nat) {cs ds : List Char} : Reindents cs ds →
      Reindents ('\n' :: (List.replicate m ' ' ++ cs)) ('\n' :: (List.replicate n ' ' ++ ds))

namespace Reindents

variable {as bs cs ds : List Char}

theorem refl (cs : List Char) : Reindents cs cs := by
  induction cs with
  | nil => exact .nil
  | cons c cs ih => exact .cons c ih

theorem symm (h : Reindents cs ds) : Reindents ds cs := by
  induction h with
  | nil => exact .nil
  | cons c _ ih => exact .cons c ih
  | indent m n _ ih => exact .indent n m ih

theorem append (h : Reindents as bs) (h' : Reindents cs ds) :
    Reindents (as ++ cs) (bs ++ ds) := by
  induction h with
  | nil => exact h'
  | cons c _ ih => exact .cons c ih
  | indent m n _ ih =>
    rw [List.cons_append, List.append_assoc, List.cons_append, List.append_assoc]
    exact .indent m n ih

theorem eq_of_not_mem (h : Reindents cs ds) (hcs : '\n' ∉ cs) : cs = ds := by
  induction h with
  | nil => rfl
  | cons c _ ih => rw [ih fun hmem => hcs (List.mem_cons_of_mem c hmem)]
  | indent m n _ ih => exact absurd List.mem_cons_self hcs

theorem isPrefixOf_eq (h : Reindents cs ds) (c : Char) :
    [c].isPrefixOf cs = [c].isPrefixOf ds := by
  cases h <;> rfl

/-- The first lines are the same, and the others up to the spaces at their start. -/
theorem splitList_eq (h : Reindents cs ds) : ∃ line lines lines',
    splitList '\n' cs = line :: lines ∧ splitList '\n' ds = line :: lines' ∧
      lines.map (List.dropWhile (· == ' ')) = lines'.map (List.dropWhile (· == ' ')) := by
  have hcons (c : Char) (cs : List Char) : splitList '\n' (c :: cs) =
      if c = '\n' then [] :: splitList '\n' cs else (splitList '\n' cs).modifyHead (c :: ·) := rfl
  have hspaces (n : Nat) {line : List Char} {lines : List (List Char)} {cs : List Char}
      (h : splitList '\n' cs = line :: lines) :
      splitList '\n' (List.replicate n ' ' ++ cs) = (List.replicate n ' ' ++ line) :: lines := by
    induction n with
    | zero => exact h
    | succ n ih =>
      rw [List.replicate_succ, List.cons_append, hcons, if_neg (by decide), ih]
      rfl
  induction h with
  | nil => exact ⟨[], [], [], rfl, rfl, rfl⟩
  | @cons c cs ds _ ih =>
    obtain ⟨line, lines, lines', hcs, hds, hlines⟩ := ih
    rw [hcons, hcons, hcs, hds]
    split
    · exact ⟨[], _, _, rfl, rfl, by rw [List.map_cons, hlines, List.map_cons]⟩
    · exact ⟨c :: line, lines, lines', rfl, rfl, hlines⟩
  | indent m n _ ih =>
    obtain ⟨line, lines, lines', hcs, hds, hlines⟩ := ih
    rw [hcons, hcons, hspaces m hcs, hspaces n hds]
    exact ⟨[], _, _, rfl, rfl, by simp [List.dropWhile_append_of_pos, hlines]⟩

end Reindents

/-- The same text, but for the spaces at the start of its lines after the first. -/
def Alike (a b : String) : Prop :=
  Reindents a.toList b.toList

/-- The same text, at the start of a line. -/
def Below (a b : String) : Prop :=
  Alike ("\n" ++ a) ("\n" ++ b)

/-- The same lines, from the start of a line to the start of another. -/
def BelowAll (a b : String) : Prop :=
  ∀ c d, Below c d → Below (a ++ c) (b ++ d)

namespace Alike

variable {a b c d : String} {as bs : List String} {m n : Nat}

@[refl] theorem refl (a : String) : Alike a a := Reindents.refl _

theorem symm (h : Alike a b) : Alike b a := Reindents.symm h

@[gcongr] theorem append (h : Alike a b) (h' : Alike c d) : Alike (a ++ c) (b ++ d) := by
  rw [Alike, String.toList_append, String.toList_append]
  exact Reindents.append h h'

@[gcongr] theorem ite (p : Prop) [Decidable p] (h : Alike a b) (h' : Alike c d) :
    Alike (if p then a else c) (if p then b else d) := by
  split
  · exact h
  · exact h'

theorem eq (h : Alike a b) (ha : isMultiline a = false) : a = b := by
  refine String.toList_inj.1 (Reindents.eq_of_not_mem h ?_)
  simpa [isMultiline, hasChar] using ha

theorem isMultiline_eq (h : Alike a b) : isMultiline a = isMultiline b := by
  cases ha : isMultiline a with
  | false => rw [← h.eq ha, ha]
  | true =>
    cases hb : isMultiline b with
    | false => rw [← ha, ← h.symm.eq hb, hb]
    | true => rfl

@[gcongr] theorem join (sep : String) (h : List.Forall₂ Alike as bs) :
    Alike (Text.join sep as) (Text.join sep bs) := by
  induction h with
  | nil => exact .refl _
  | cons h hs ih =>
    cases hs with
    | nil => exact h
    | cons _ _ => exact (h.append (.refl sep)).append ih

@[gcongr] theorem template (chunks : List String) (h : List.Forall₂ Alike as bs) :
    Alike (templateText chunks as) (templateText chunks bs) := by
  induction chunks generalizing as bs with
  | nil => exact .refl _
  | cons chunk chunks ih =>
    cases h with
    | nil => exact .refl _
    | cons h hs =>
      have hrest := ih hs
      rw [templateText, templateText]
      gcongr

@[gcongr] theorem pattern (h : List.Forall₂ Alike as bs) :
    Alike (patternText as) (patternText bs) := by
  cases h with
  | nil => exact .refl _
  | cons h hs => exact ((Alike.refl _).append (join ", " (.cons h hs))).append (.refl _)

@[gcongr] theorem unary (op : UnaryOp) (h : Alike a b) :
    Alike (unaryText op a) (unaryText op b) := by
  cases op with
  | minus =>
    have hsign : startsWith "-" a = startsWith "-" b := Reindents.isPrefixOf_eq h '-'
    simp only [unaryText, UnaryOp.text, hsign]
    exact .ite _ (by gcongr) (by gcongr)
  | plus =>
    have hsign : startsWith "+" a = startsWith "+" b := Reindents.isPrefixOf_eq h '+'
    simp only [unaryText, UnaryOp.text, hsign]
    exact .ite _ (by gcongr) (by gcongr)
  | _ =>
    simp only [unaryText]
    gcongr

theorem pad (m n : Nat) : Alike ("\n" ++ Text.pad m) ("\n" ++ Text.pad n) := by
  have h := Reindents.indent (2 * m) (2 * n) .nil
  simpa [Alike, Text.pad] using h

theorem below (h : Alike a b) : Below (Text.pad m ++ a) (Text.pad n ++ b) := by
  rw [Below, ← String.append_assoc, ← String.append_assoc]
  exact (pad m n).append h

end Alike

namespace Below

variable {a b c d : String} {as bs : List String} {m n : Nat}

theorem append (h : Below a b) (h' : Alike c d) : Below (a ++ c) (b ++ d) := by
  rw [Below, ← String.append_assoc, ← String.append_assoc]
  exact Alike.append h h'

theorem join (h : List.Forall₂ Below as bs) : Below (Text.join "\n" as) (Text.join "\n" bs) := by
  induction h with
  | nil => exact .refl _
  | cons h hs ih =>
    cases hs with
    | nil => exact h
    | cons _ _ =>
      rw [Text.join, Text.join, String.append_assoc, String.append_assoc]
      exact h.append ih

theorem braces (h : Below a b) : Alike ("\x7b\n" ++ a ++ "\n" ++ pad m ++ "\x7d")
    ("\x7b\n" ++ b ++ "\n" ++ pad n ++ "\x7d") := by
  have hclose : Alike ("\n" ++ (pad m ++ "\x7d")) ("\n" ++ (pad n ++ "\x7d")) :=
    Alike.below (.refl _)
  have hopen : ("\x7b\n" : String) = "\x7b" ++ "\n" := rfl
  have hall := (Alike.refl "\x7b").append (Alike.append h hclose)
  simpa only [hopen, String.append_assoc] using hall

end Below

namespace BelowAll

variable {a b c d : String}

theorem empty : BelowAll "" "" := fun _ _ h => by
  rwa [String.empty_append, String.empty_append]

theorem append (h : BelowAll a b) (h' : BelowAll c d) : BelowAll (a ++ c) (b ++ d) :=
  fun x y hxy => by
    rw [String.append_assoc, String.append_assoc]
    exact h _ _ (h' x y hxy)

/-- One line, padded and ended. -/
theorem line (m n : Nat) (h : Alike a b) :
    BelowAll (pad m ++ (a ++ "\n")) (pad n ++ (b ++ "\n")) := fun x y hxy => by
  have hall := (h.below (m := m) (n := n)).append hxy
  simpa only [String.append_assoc] using hall

end BelowAll

namespace Alike

variable {as bs : List String}

@[gcongr only] theorem block {m n : Nat} (h : List.Forall₂ Alike as bs) :
    Alike (blockText m as) (blockText n bs) := by
  rw [blockText, blockText]
  cases h with
  | nil => exact .refl _
  | cons h hs =>
    refine Below.braces (.join (List.forall₂_map_left_iff.2 (List.forall₂_map_right_iff.2 ?_)))
    exact (List.Forall₂.cons h hs).imp fun _ _ h => h.below

theorem eq_of_all (h : List.Forall₂ Alike as bs) (hlines : as.all (!isMultiline ·) = true) :
    as = bs := by
  induction h with
  | nil => rfl
  | cons h _ ih =>
    rw [List.all_cons, Bool.and_eq_true, Bool.not_eq_true'] at hlines
    rw [h.eq hlines.1, ih hlines.2]

/-- Objects are laid out alike: parts that fit on one line are the same. -/
@[gcongr only] theorem object {m n : Nat} (h : List.Forall₂ Alike as bs) :
    Alike (objectText m as) (objectText n bs) := by
  have hempty : as.isEmpty = bs.isEmpty := by cases h <;> rfl
  have hall : as.all (!isMultiline ·) = bs.all (!isMultiline ·) := by
    clear hempty
    induction h with
    | nil => rfl
    | cons h _ ih => rw [List.all_cons, List.all_cons, ih, h.isMultiline_eq]
  have hfits : (decide ((as.map (textWidth · + 2)).foldr (· + ·) 0 ≤ inlineObjectWidth) &&
      as.all (!isMultiline ·)) = (decide ((bs.map (textWidth · + 2)).foldr (· + ·) 0 ≤
      inlineObjectWidth) && bs.all (!isMultiline ·)) := by
    cases hlines : as.all (!isMultiline ·) with
    | true => rw [← eq_of_all h hlines, hlines]
    | false => rw [← hall, hlines, Bool.and_false, Bool.and_false]
  rw [objectText, objectText, hempty, hfits]
  refine .ite _ (.refl _) (.ite _ (by gcongr) (Below.braces (.join ?_)))
  refine List.forall₂_map_left_iff.2 (List.forall₂_map_right_iff.2 (h.imp fun _ _ h => ?_))
  exact h.below.append (.refl _)

end Alike

/-! ## Writing -/

/-- Values in this relation, with the same notes. -/
structure SameNotes {α : Type} (R : α → α → Prop) (w w' : Written α) : Prop where
  value : R w.value w'.value
  templateRefs : w.templateRefs = w'.templateRefs
  findings : w.findings = w'.findings

namespace SameNotes

variable {α β : Type} {R : α → α → Prop} {S : β → β → Prop} {w w' : Written α}

theorem bind {f f' : α → Written β} (h : SameNotes R w w')
    (hf : ∀ a b, R a b → SameNotes S (f a) (f' b)) : SameNotes S (w >>= f) (w' >>= f') := by
  have hnext := hf _ _ h.value
  refine ⟨hnext.value, ?_, ?_⟩
  · exact congrArg₂ (· ++ ·) h.templateRefs hnext.templateRefs
  · exact congrArg₂ (· ++ ·) h.findings hnext.findings

theorem last {g g' : α → β} (h : SameNotes R w w')
    (hg : ∀ a b, R a b → S (g a) (g' b) := by intros; gcongr) :
    SameNotes S (w >>= fun a => pure (g a)) (w' >>= fun a => pure (g' a)) :=
  h.bind fun a b hab => ⟨hg a b hab, rfl, rfl⟩

theorem of (a : String) : SameNotes Alike (Written.of a) (Written.of a) := ⟨.refl a, rfl, rfl⟩

theorem same (w : Written String) : SameNotes Alike w w := ⟨.refl _, rfl, rfl⟩

theorem nil : SameNotes (List.Forall₂ Alike) (Written.of []) (Written.of []) := ⟨.nil, rfl, rfl⟩

theorem cons {w w' : Written String} {ws ws' : Written (List String)} (h : SameNotes Alike w w')
    (hs : SameNotes (List.Forall₂ Alike) ws ws') :
    SameNotes (List.Forall₂ Alike) (w >>= fun a => ws >>= fun as => pure (a :: as))
      (w' >>= fun a => ws' >>= fun as => pure (a :: as)) :=
  h.bind fun _ _ ha => hs.last fun _ _ has => .cons ha has

end SameNotes

/-! ## Trees -/

section

variable (s : Scope)

theorem member_alike {m n : Nat} {span : Span} {obj : Expr} {key : Key}
    (hobj : SameNotes Alike (exprText s m obj) (exprText s n obj))
    (hkey : SameNotes Alike (accessText s m key) (accessText s n key)) :
    SameNotes Alike (exprText s m (.member span obj key))
      (exprText s n (.member span obj key)) := by
  rw [exprText_member, exprText_member]
  split
  · exact .same _
  · exact .same _
  · exact .same _
  · exact hobj.bind fun _ _ _ => hkey.last

mutual

theorem expr_alike {m n : Nat} : ∀ e : Expr, SameNotes Alike (exprText s m e) (exprText s n e)
  | .template _ _ es | .array _ es | .seq _ es | .importCall _ es => (exprs_alike es).last
  | .spread _ e | .unary _ _ e | .yield _ _ (some e) | .await _ e | .typeAssertion _ _ e
  | .constAssertion _ e | .asType _ e _ | .satisfiesType _ e _ | .nonNull _ e
  | .instantiation _ e _ => (expr_alike e).last
  | .update _ _ _ e | .paren _ e => (expr_alike e).last fun _ _ h => .ite _ (by gcongr) (by gcongr)
  | .object _ props => (properties_alike props).last fun _ _ h => .object h
  | .func _ f => (func_alike f).last
  | .arrow _ _ _ ps _ body => (pats_alike ps).bind fun _ _ _ => (block_alike body).last
  | .arrowExpr _ _ _ ps _ e => (pats_alike ps).bind fun _ _ _ =>
    (expr_alike e).last fun _ _ _ => .append (by gcongr) (.ite _ (by gcongr) (by gcongr))
  | .binary _ _ l r => (expr_alike l).bind fun _ _ _ => (expr_alike r).last
  | .assign _ _ target value => (target_alike target).bind fun _ _ _ => (expr_alike value).last
  | .cond _ test yes no => (expr_alike test).bind fun _ _ _ =>
    (expr_alike yes).bind fun _ _ _ => (expr_alike no).last
  | .member _ obj key => member_alike s (expr_alike obj) (access_alike key)
  | .chainMember _ isOptional obj key => (expr_alike obj).bind fun _ _ _ =>
    (chainLink_alike key).last
  | .call _ callee _ args | .new _ callee args | .chainCall _ _ callee _ args =>
    (expr_alike callee).bind fun _ _ _ => (exprs_alike args).last
  | .ident _ | .string _ | .number _ _ | .bigint _ _ | .null _ | .hole | .bool _ _ | .regex _ _ _
  | .yield _ _ none | .metaProperty _ .newTarget | .metaProperty _ .importMeta => .of _
  | .this _ | .taggedTemplate _ _ _ _ | .classExpr _ _ | .superMember _ _ | .superCall _ _ _ _
  | .privateName _ | .jsx _ _ => .same (unsupportedExpr _ _)

theorem exprs_alike {m n : Nat} : ∀ es : List Expr,
    SameNotes (List.Forall₂ Alike) (exprTexts s m es) (exprTexts s n es)
  | [] => .nil
  | e :: es => (expr_alike e).cons (exprs_alike es)

theorem access_alike {m n : Nat} : ∀ key : Key,
    SameNotes Alike (accessText s m key) (accessText s n key)
  | .computed _ e => (expr_alike e).last
  | .ident _ | .string _ | .number _ _ | .bigint _ _ | .privateName _ => .of _

theorem chainLink_alike {m n : Nat} {isOptional : Bool} : ∀ key : Key,
    SameNotes Alike (chainLinkText s m isOptional key) (chainLinkText s n isOptional key)
  | .computed _ e => (expr_alike e).last
  | .ident _ | .string _ | .number _ _ | .bigint _ _ | .privateName _ => .of _

theorem key_alike {m n : Nat} : ∀ key : Key, SameNotes Alike (keyText s m key) (keyText s n key)
  | .computed _ e => (expr_alike e).last
  | .ident _ | .string _ | .number _ _ | .bigint _ _ | .privateName _ => .of _

theorem property_alike {m n : Nat} : ∀ p : Property,
    SameNotes Alike (propertyText s m p) (propertyText s n p)
  | .spread _ e | .initialized _ e => (expr_alike e).last
  | .shorthand _ => .of _
  | .keyValue key value => (key_alike key).bind fun _ _ _ => (expr_alike value).last
  | .getter _ key _ body => (key_alike key).bind fun _ _ _ => (block_alike body).last
  | .setter _ key param body => (key_alike key).bind fun _ _ _ =>
    (pat_alike param).bind fun _ _ _ => (block_alike body).last
  | .method _ key f => (key_alike key).bind fun _ _ _ => (func_alike f).last

theorem properties_alike {m n : Nat} : ∀ ps : List Property,
    SameNotes (List.Forall₂ Alike) (propertyTexts s m ps) (propertyTexts s n ps)
  | [] => .nil
  | p :: ps => (property_alike p).cons (properties_alike ps)

theorem func_alike {gap : String} {m n : Nat} : ∀ f : Func,
    SameNotes Alike (funcText s gap m f) (funcText s gap n f)
  | .mk _ _ _ _ ps _ _ body => (pats_alike ps).bind fun _ _ _ =>
    (block_alike body).last fun _ _ _ => by
      simp only [functionText]
      gcongr

theorem pat_alike {m n : Nat} : ∀ p : Pat, SameNotes Alike (patText s m p) (patText s n p)
  | .hole | .ident _ _ _ => .of _
  | .array _ es _ => (pats_alike es).last
  | .object _ ps _ => (patProperties_alike ps).last
  | .rest _ arg _ => (pat_alike arg).last
  | .withDefault _ left right => (pat_alike left).bind fun _ _ _ => (expr_alike right).last
  | .expr e => expr_alike e

theorem target_alike {m n : Nat} : ∀ p : Pat, SameNotes Alike (targetText s m p) (targetText s n p)
  | .hole | .rest _ _ _ | .withDefault _ _ _ | .ident _ _ _ => .of _
  | .array _ es _ => (pats_alike es).last
  | .object _ ps _ => (patProperties_alike ps).last
  | .expr e => by
    cases e with
    | paren span inner => exact (expr_alike inner).last
    | member span obj key => exact expr_alike (.member span obj key)
    | asType span inner t => exact expr_alike (.asType span inner t)
    | nonNull span inner => exact expr_alike (.nonNull span inner)
    | chainMember span isOptional obj key => exact expr_alike (.chainMember span isOptional obj key)
    | chainCall span isOptional callee types args =>
      exact expr_alike (.chainCall span isOptional callee types args)
    | _ => exact .same (unsupportedExpr _ _)

theorem pats_alike {m n : Nat} : ∀ ps : List Pat,
    SameNotes (List.Forall₂ Alike) (patTexts s m ps) (patTexts s n ps)
  | [] => .nil
  | p :: ps => (pat_alike p).cons (pats_alike ps)

theorem patProperty_alike {m n : Nat} : ∀ p : PatProperty,
    SameNotes Alike (patPropertyText s m p) (patPropertyText s n p)
  | .keyValue key value => (key_alike key).bind fun _ _ _ => (pat_alike value).last
  | .shorthand _ _ none => .of _
  | .shorthand _ _ (some e) => (expr_alike e).last
  | .rest _ arg => (pat_alike arg).last

theorem patProperties_alike {m n : Nat} : ∀ ps : List PatProperty,
    SameNotes (List.Forall₂ Alike) (patPropertyTexts s m ps) (patPropertyTexts s n ps)
  | [] => .nil
  | p :: ps => (patProperty_alike p).cons (patProperties_alike ps)

theorem stmt_alike {m n : Nat} : ∀ stmt : Stmt,
    SameNotes Alike (stmtText s m stmt) (stmtText s n stmt)
  | .block _ body => (block_alike body).last fun _ _ h => .block h
  | .return _ e => (option_alike e).last
  | .throw _ e | .expr _ e => (expr_alike e).last
  | .labeled _ _ body => (stmt_alike body).last
  | .ifThen _ test body | .while _ test body => (expr_alike test).bind fun _ _ _ =>
    (stmt_alike body).last
  | .doWhile _ body test => (stmt_alike body).bind fun _ _ _ => (expr_alike test).last
  | .ifElse _ test yes no => (expr_alike test).bind fun _ _ _ =>
    (stmt_alike yes).bind fun _ _ _ => (stmt_alike no).last fun _ _ _ => by
      have hgap : Alike (if isBlock yes then " " else "\n" ++ pad m)
          (if isBlock yes then " " else "\n" ++ pad n) := .ite _ (.refl _) (.pad m n)
      gcongr
  | .switch _ subject cases => (expr_alike subject).bind fun _ _ hsubject =>
    (cases_alike cases).last fun _ _ h => by
      have hlines := h _ _ ((Alike.refl "\x7d").below (m := m) (n := n))
      have hopen : (") \x7b\n" : String) = ") \x7b" ++ "\n" := rfl
      have hhead := ((Alike.refl "switch (").append hsubject).append (.refl ") \x7b")
      simpa only [hopen, String.append_assoc] using hhead.append hlines
  | .tryCatch _ body param handler => (block_alike body).bind fun _ _ _ =>
    (catch_alike param).bind fun _ _ _ => (block_alike handler).last
  | .tryFinally _ body finalizer => (block_alike body).bind fun _ _ _ =>
    (block_alike finalizer).last
  | .tryCatchFinally _ body param handler finalizer =>
    (block_alike body).bind fun _ _ _ => (catch_alike param).bind fun _ _ _ =>
      (block_alike handler).bind fun _ _ _ => (block_alike finalizer).last
  | .for _ init test update body => (head_alike init).bind fun _ _ _ =>
    (option_alike test).bind fun _ _ _ => (option_alike update).bind fun _ _ _ =>
      (stmt_alike body).last
  | .forIn _ left right body | .forOf _ _ left right body =>
    (head_alike left).bind fun _ _ _ => (expr_alike right).bind fun _ _ _ => (stmt_alike body).last
  | .varDecl _ _ _ ds => (pats_alike ds).last
  | .funcDecl _ f => (func_alike f).last
  | .typeDecl _ span _ => .same (match s.verbatim span with
      | some text => of text
      | none => unsupportedStmt "type declaration" span)
  | .withObject _ _ _ | .classDecl _ _ | .usingDecl _ _ => .same (unsupportedStmt _ _)
  | .empty _ | .debugger _ | .break _ none | .break _ (some _)
  | .continue _ none | .continue _ (some _) => .of _

theorem block_alike {m n : Nat} : ∀ body : List Stmt,
    SameNotes (List.Forall₂ Alike) (blockLines s m body) (blockLines s n body)
  | [] => .nil
  | stmt :: rest => by
    have hstmt := @stmt_alike m n stmt
    have hrest := @block_alike m n rest
    cases stmt with
    | empty span => exact hrest
    | _ => exact hstmt.cons hrest

theorem option_alike {m n : Nat} : ∀ e : Option Expr,
    SameNotes Alike (optionText s m e) (optionText s n e)
  | none => .of _
  | some e => (expr_alike e).last

theorem catch_alike {m n : Nat} : ∀ param : Option Pat,
    SameNotes Alike (catchText s m param) (catchText s n param)
  | none => .of _
  | some param => (pat_alike param).last

theorem cases_alike {m n : Nat} : ∀ cases : List Case,
    SameNotes BelowAll (caseTexts s m cases) (caseTexts s n cases)
  | [] => ⟨.empty, rfl, rfl⟩
  | .mk none body :: rest => (caseLines_alike body).bind fun _ _ hlines =>
    (cases_alike rest).last fun _ _ hrest => by
      have hline := BelowAll.line (m + 1) (n + 1) (.refl "default:")
      have hopen : ("default:\n" : String) = "default:" ++ "\n" := rfl
      simpa only [hopen, String.append_assoc] using hline.append (hlines.append hrest)
  | .mk (some test) body :: rest => (expr_alike test).bind fun _ _ htest =>
    (caseLines_alike body).bind fun _ _ hlines => (cases_alike rest).last fun _ _ hrest => by
        have hline := BelowAll.line (m + 1) (n + 1)
          (((Alike.refl "case ").append htest).append (.refl ":"))
        have hopen : (":\n" : String) = ":" ++ "\n" := rfl
        simpa only [hopen, String.append_assoc] using hline.append (hlines.append hrest)

theorem caseLines_alike {m n : Nat} : ∀ body : List Stmt,
    SameNotes BelowAll (caseLines s m body) (caseLines s n body)
  | [] => ⟨.empty, rfl, rfl⟩
  | stmt :: rest => (stmt_alike stmt).bind fun _ _ hstmt =>
    (caseLines_alike rest).last fun _ _ hrest => by
      simpa only [String.append_assoc] using (BelowAll.line m n hstmt).append hrest

theorem head_alike {m n : Nat} : ∀ head : ForHead,
    SameNotes Alike (headText s m head) (headText s n head)
  | .none => .of _
  | .usingDecl _ _ => .same (unsupportedExpr _ _)
  | .varDecl _ _ ds => (pats_alike ds).last
  | .pat p => pat_alike p

end

end

/-! ## The level -/

/-- The line without the spaces at its start. -/
def unindented (line : String) : String :=
  String.ofList (line.toList.dropWhile (· == ' '))

/-- What is written differs in the indentation of its lines only. -/
structure SameLines (w w' : Written String) : Prop where
  lines : (splitAll '\n' w.value).map unindented = (splitAll '\n' w'.value).map unindented
  inline : isMultiline w.value = false → w'.value = w.value
  templateRefs : w'.templateRefs = w.templateRefs
  findings : w'.findings = w.findings

theorem SameNotes.sameLines {w w' : Written String} (h : SameNotes Alike w w') :
    SameLines w w' := by
  refine ⟨?_, fun hline => (h.value.eq hline).symm, h.templateRefs.symm, h.findings.symm⟩
  obtain ⟨line, lines, lines', hw, hw', hlines⟩ := Reindents.splitList_eq h.value
  have hmap (ls : List (List Char)) : (ls.map String.ofList).map unindented =
      (ls.map (List.dropWhile (· == ' '))).map String.ofList := by
    simp [unindented, Function.comp_def]
  rw [splitAll, splitAll, hmap, hmap, hw, hw', List.map_cons,
    hlines, ← List.map_cons]

/-- The level of code is its indentation and nothing else: at any two levels the lines are the
same but for the spaces at their start, and so are the findings and the template references. Code
that fits on one line is the same at all levels. -/
theorem level_only_indents (s : Scope) (m n : Nat) :
    (∀ e, SameLines (exprText s m e) (exprText s n e)) ∧
      (∀ p, SameLines (patText s m p) (patText s n p)) ∧
      (∀ p, SameLines (targetText s m p) (targetText s n p)) ∧
      (∀ stmt, SameLines (stmtText s m stmt) (stmtText s n stmt)) ∧
      (∀ gap f, SameLines (funcText s gap m f) (funcText s gap n f)) ∧
      (∀ name f, SameLines (functionDecl s m name f) (functionDecl s n name f)) ∧
      ∀ f, SameLines (arrowFunction s m f) (arrowFunction s n f) := by
  refine ⟨fun e => (expr_alike s e).sameLines, fun p => (pat_alike s p).sameLines,
    fun p => (target_alike s p).sameLines, fun stmt => (stmt_alike s stmt).sameLines,
    fun gap f => (func_alike s f).sameLines, fun name f => ?_, fun f => ?_⟩
  · exact ((func_alike s f).last).sameLines
  · exact ((func_alike s f).last).sameLines

end ScriptSetup.Setup
