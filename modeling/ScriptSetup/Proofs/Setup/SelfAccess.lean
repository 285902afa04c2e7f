import ScriptSetup.Proofs.Component.Entries
import ScriptSetup.Proofs.Setup.Uses

/-!
# Writing resolves self accesses

Writing a tree is writing its resolved form: the texts and the findings are the same. What is new
are the notes: each template reference of the code that is not state, in the order in which the
code uses them. In the resolved form each reference is the name that it means, in the scope of the
same local names.
-/

set_option autoImplicit false

namespace ScriptSetup.Setup

open Script Written Component

/-! ## Collecting names -/

/-- The name of a template reference that is not state. -/
def Use.templateName? (state : List String) (u : Use) : Option String :=
  match u.reference with
  | .templateRef name => if state.contains name then none else some name
  | .name _ | .self _ _ _ => none

/-- The names of the template references that are not state, in order. -/
def templateNames (state : List String) (uses : List Use) : List String :=
  uses.filterMap (Use.templateName? state)

theorem templateNames_append (state : List String) (uses uses' : List Use) :
    templateNames state (uses ++ uses') = templateNames state uses ++ templateNames state uses' :=
  List.filterMap_append

theorem templateNames_targetUse (state : List String) (binds : Bool)
    (locals : List String) (name : String) :
    templateNames state (targetUse binds locals name) = [] := by
  cases binds <;> rfl

/-- The code that writes `w'` and uses `us'` is the code that writes `w` and uses `us`, with its
self accesses resolved. -/
structure Settles {α : Type} (state : List String) (us us' : List Use) (w w' : Written α) :
    Prop where
  settled : w' = w.settled
  noted : w.templateRefs = templateNames state us
  uses : us' = us.map Use.resolve

namespace Settles

variable {α β : Type} {state locals : List String} {us us' vs vs' : List Use}
  {w w' : Written α}

theorem bind {f f' : α → Written β} (hw : Settles state us us' w w')
    (hf : ∀ a, Settles state vs vs' (f a) (f' a)) :
    Settles state (us ++ vs) (us' ++ vs') (w >>= f) (w' >>= f') where
  settled := by
    rw [hw.settled, settled_bind]
    exact congrArg (w.settled >>= ·) (funext fun a => (hf a).settled)
  noted := by
    rw [templateNames_append, ← hw.noted, ← (hf w.value).noted]
    rfl
  uses := by rw [hw.uses, (hf w.value).uses, List.map_append]

/-- What follows uses nothing. -/
theorem rest {f f' : α → Written β} (hw : Settles state us us' w w')
    (hf : ∀ a, Settles state [] [] (f a) (f' a)) :
    Settles state us us' (w >>= f) (w' >>= f') := by
  have h := hw.bind hf
  rwa [List.append_nil, List.append_nil] at h

theorem last {g g' : α → β} (hw : Settles state us us' w w') (hg : ∀ a, g' a = g a) :
    Settles state us us' (w >>= fun a => pure (g a)) (w' >>= fun a => pure (g' a)) :=
  hw.rest fun a => ⟨congrArg pure (hg a), rfl, rfl⟩

/-- A name that is bound or assigned to is no access. -/
theorem after (binds : Bool) (name : String) (hw : Settles state us us' w w') :
    Settles state (targetUse binds locals name ++ us) (targetUse binds locals name ++ us')
      w w' where
  settled := hw.settled
  noted := by rw [hw.noted, templateNames_append, templateNames_targetUse, List.nil_append]
  uses := by rw [hw.uses, List.map_append, targetUse_resolve]

theorem target {binds : Bool} {name : String} (hw : w = w.settled) :
    Settles state (targetUse binds locals name) (targetUse binds locals name) w w where
  settled := hw
  noted := by
    rw [templateNames_targetUse, hw]
    rfl
  uses := by rw [targetUse_resolve]

/-- What is written does not tell the function that code stands in. -/
theorem inFunction {mark : Use → Use} (hmark : ∀ u, (mark u).resolve = mark u.resolve)
    (hname : ∀ u, (mark u).templateName? state = u.templateName? state)
    (hw : Settles state us us' w w') : Settles state (us.map mark) (us'.map mark) w w' where
  settled := hw.settled
  noted := by
    rw [hw.noted, templateNames, templateNames, List.filterMap_map]
    exact congrArg us.filterMap (funext fun u => (hname u).symm)
  uses := by
    rw [hw.uses, List.map_map, List.map_map]
    exact List.map_congr_left fun u _ => (hmark u).symm

theorem deferred (hw : Settles state us us' w w') :
    Settles state (us.map Use.deferred) (us'.map Use.deferred) w w' :=
  hw.inFunction (fun _ => rfl) fun _ => rfl

theorem nested (hw : Settles state us us' w w') :
    Settles state (us.map Use.nested) (us'.map Use.nested) w w' :=
  hw.inFunction (fun _ => rfl) fun _ => rfl

end Settles

/-! ### Code -/

/-- Writing this code settles it, where these names are local. -/
def SettlesCode {α β : Type} (s : Scope) (level : Nat) (locals : List String)
    (uses : List String → α → List Use) (resolve : List String → α → α)
    (write : Scope → Nat → α → Written β) (code : α) : Prop :=
  Settles s.reactive (uses locals code) (uses locals (resolve s.reactive code))
    (write s level code) (write s level (resolve s.reactive code))

namespace SettlesCode

variable {α β : Type} {s : Scope} {level : Nat} {locals names names' outer outer' : List String}
  {uses : List String → α → List Use} {resolve : List String → α → α}
  {write : Scope → Nat → α → Written β} {code : α}

/-- The names that the code is in the scope of are those of resolved code. -/
theorem under (hcode : SettlesCode s level (names ++ locals) uses resolve write code)
    (h : names' = names) :
    Settles s.reactive (uses (names ++ locals) code) (uses (names' ++ locals)
      (resolve s.reactive code)) (write s level code) (write s level (resolve s.reactive code)) :=
  h ▸ hcode

theorem within (hcode : SettlesCode s level (names ++ (outer ++ locals)) uses resolve write code)
    (h : names' = names) (houter : outer' = outer) :
    Settles s.reactive (uses (names ++ (outer ++ locals)) code) (uses (names' ++ (outer' ++ locals))
      (resolve s.reactive code)) (write s level code) (write s level (resolve s.reactive code)) :=
  houter ▸ hcode.under h

end SettlesCode

theorem settles_member {s : Scope} {level : Nat} {locals : List String} {span : Span} {obj : Expr}
    {key : Key} (hobj : SettlesCode s level locals exprUses resolveExpr exprText obj)
    (hkey : SettlesCode s level locals keyUses resolveKey accessText key) :
    SettlesCode s level locals exprUses resolveExpr exprText (.member span obj key) := by
  rw [SettlesCode]
  rcases access_cases obj key with ⟨hthis, name, hname⟩ | ⟨hthis, hname⟩ |
    ⟨hthis, hrefs, name, hname⟩ | hplain
  · rw [resolveExpr_member_this hthis hname, exprText_selfBinding, exprUses_selfBinding,
      exprText_member, exprUses_member, hthis, hname]
    exact ⟨rfl, rfl, rfl⟩
  · rw [resolveExpr_member_dynamic hthis hname, exprText_member, exprUses_member, hthis, hname]
    exact ⟨rfl, rfl, rfl⟩
  · rw [resolveExpr_member_refs hthis hrefs hname, exprText_valueOf, exprText_member,
      exprUses_member, hthis, hrefs, hname]
    refine ⟨rfl, ?_, rfl⟩
    by_cases hstate : name ∈ s.reactive
    · simp [Scope.templateRef, templateNames, Use.templateName?, hstate]
    · simp [Scope.templateRef, templateNames, Use.templateName?, hstate]
  · have hresolved := isPlainAccess_resolve s.reactive hplain
    rw [resolveExpr_member_plain hplain, exprText_member_plain hresolved,
      exprUses_member_plain hresolved, exprText_member_plain hplain, exprUses_member_plain hplain]
    exact Settles.bind hobj fun _ => Settles.last hkey fun _ => rfl

theorem settles_copied (state : List String) (s : Scope) (what : String) (span : Span) :
    let w := match s.verbatim span with
      | some text => of text
      | none => unsupportedStmt what span
    Settles state [] [] w w := by
  cases s.verbatim span <;> exact ⟨rfl, rfl, rfl⟩

theorem settles_writable {s : Scope} {level : Nat} {locals : List String} {e : Expr}
    (hwritable : isWritableTarget e = true)
    (he : SettlesCode s level locals exprUses resolveExpr exprText e) :
    SettlesCode s level locals targetUses resolveTarget targetText (.expr e) := by
  rw [SettlesCode, resolveTarget_of_writable hwritable, targetText_asTarget hwritable,
    targetUses_asTarget hwritable, targetText_of_writable hwritable,
    targetUses_of_writable hwritable]
  exact he

section

variable (s : Scope)

mutual

/-- Writing an expression is writing its resolved form and noting its template references. -/
theorem expr_settles {level : Nat} {locals : List String} : ∀ e : Expr,
    SettlesCode s level locals exprUses resolveExpr exprText e
  | .template _ _ es | .array _ es | .seq _ es | .importCall _ es =>
    (exprs_settles es).last fun _ => rfl
  | .spread _ e | .unary _ _ e | .update _ _ _ e | .yield _ _ (some e) | .await _ e
  | .typeAssertion _ _ e | .constAssertion _ e | .asType _ e _ | .satisfiesType _ e _
  | .nonNull _ e | .instantiation _ e _ => (expr_settles e).last fun _ => rfl
  | .paren _ e => (expr_settles e).last fun _ => by
    rw [(looks_resolveExpr s.reactive e).2.2]
  | .object _ props => (properties_settles props).last fun _ => rfl
  | .func name f => (func_settles f).nested.last fun _ => by
    rw [isAsync_resolveFunc, isGenerator_resolveFunc]
  | .arrow _ _ _ ps _ body => .deferred (((pats_settles ps).under (patsNames_resolve _ ps)).bind
    fun _ => ((block_settles body).within (bodyNames_resolve _ body)
      (patsNames_resolve _ ps)).last fun _ => rfl)
  | .arrowExpr _ _ _ ps _ e => .deferred (((pats_settles ps).under (patsNames_resolve _ ps)).bind
    fun _ => ((expr_settles e).under (patsNames_resolve _ ps)).last fun _ => by
      rw [(looks_resolveExpr s.reactive e).2.1])
  | .binary _ _ l r => (expr_settles l).bind fun _ => (expr_settles r).last fun _ => rfl
  | .assign _ _ target value =>
    (target_settles target).bind fun _ => (expr_settles value).last fun _ => rfl
  | .cond _ test yes no =>
    (expr_settles test).bind fun _ =>
    (expr_settles yes).bind fun _ => (expr_settles no).last fun _ => rfl
  | .member _ obj key => settles_member (expr_settles obj) (access_settles key)
  | .chainMember _ isOptional obj key =>
    (expr_settles obj).bind fun _ =>
      (chainLink_settles key).last fun _ => rfl
  | .call _ callee _ args | .new _ callee args | .chainCall _ _ callee _ args =>
    (expr_settles callee).bind fun _ => (exprs_settles args).last fun _ => rfl
  | .ident _ | .this _ | .string _ | .number _ _ | .bigint _ _ | .bool _ _ | .null _
  | .regex _ _ _ | .taggedTemplate _ _ _ _ | .hole | .classExpr _ _ | .superMember _ _
  | .superCall _ _ _ _ | .yield _ _ none | .metaProperty _ .newTarget
  | .metaProperty _ .importMeta | .privateName _ | .jsx _ _ => ⟨rfl, rfl, rfl⟩

theorem exprs_settles {level : Nat} {locals : List String} : ∀ es : List Expr,
    SettlesCode s level locals exprsUses resolveExprs exprTexts es
  | [] => ⟨rfl, rfl, rfl⟩
  | e :: es => (expr_settles e).bind fun _ => (exprs_settles es).last fun _ => rfl

theorem access_settles {level : Nat} {locals : List String} : ∀ key : Key,
    SettlesCode s level locals keyUses resolveKey accessText key
  | .computed _ e => (expr_settles e).last fun _ => rfl
  | .ident _ | .string _ | .number _ _ | .bigint _ _ | .privateName _ => ⟨rfl, rfl, rfl⟩

theorem chainLink_settles {level : Nat} {isOptional : Bool} {locals : List String} : ∀ key : Key,
    SettlesCode s level locals keyUses resolveKey (chainLinkText · · isOptional) key
  | .computed _ e => (expr_settles e).last fun _ => rfl
  | .ident _ | .string _ | .number _ _ | .bigint _ _ | .privateName _ => ⟨rfl, rfl, rfl⟩

theorem key_settles {level : Nat} {locals : List String} : ∀ key : Key,
    SettlesCode s level locals keyUses resolveKey keyText key
  | .computed _ e => (expr_settles e).last fun _ => rfl
  | .ident _ | .string _ | .number _ _ | .bigint _ _ | .privateName _ => ⟨rfl, rfl, rfl⟩

theorem property_settles {level : Nat} {locals : List String} : ∀ p : Property,
    SettlesCode s level locals propertyUses resolveProperty propertyText p
  | .spread _ e => (expr_settles e).last fun _ => rfl
  | .shorthand _ => ⟨rfl, rfl, rfl⟩
  | .keyValue key value => (key_settles key).bind fun _ => (expr_settles value).last fun _ => rfl
  | .initialized id value => .after false id.name ((expr_settles value).last fun _ => rfl)
  | .getter _ key _ body => (key_settles key).bind fun _ =>
    ((block_settles body).under (bodyNames_resolve _ body)).deferred.last fun _ => rfl
  | .setter _ key param body => (key_settles key).bind fun _ =>
    .deferred (((pat_settles param).under (patNames_resolve _ param)).bind fun _ =>
    ((block_settles body).within (bodyNames_resolve _ body)
      (patNames_resolve _ param)).last fun _ => rfl)
  | .method _ key f =>
    (key_settles key).bind fun _ =>
    (func_settles f).deferred.last fun _ => by
      rw [isAsync_resolveFunc, isGenerator_resolveFunc]

theorem properties_settles {level : Nat} {locals : List String} : ∀ ps : List Property,
    SettlesCode s level locals propertiesUses resolveProperties propertyTexts ps
  | [] => ⟨rfl, rfl, rfl⟩
  | p :: ps => (property_settles p).bind fun _ => (properties_settles ps).last fun _ => rfl

theorem func_settles {gap : String} {level : Nat} {locals : List String} : ∀ f : Func,
    SettlesCode s level locals funcUses resolveFunc (fun s => funcText s gap) f
  | .mk _ _ _ _ ps _ _ body => ((pats_settles ps).under (patsNames_resolve _ ps)).bind
    fun _ => ((block_settles body).within (bodyNames_resolve _ body)
      (patsNames_resolve _ ps)).last fun _ => rfl

theorem pat_settles {level : Nat} {binds : Bool} {locals : List String} : ∀ p : Pat,
    SettlesCode s level locals (patUses binds) resolvePat patText p
  | .hole => ⟨rfl, rfl, rfl⟩
  | .ident _ _ _ => .target rfl
  | .array _ es _ => (pats_settles es).last fun _ => rfl
  | .object _ ps _ => (patProperties_settles ps).last fun _ => rfl
  | .rest _ arg _ => (pat_settles arg).last fun _ => rfl
  | .withDefault _ left right =>
    (pat_settles left).bind fun _ => (expr_settles right).last fun _ => rfl
  | .expr e => expr_settles e

theorem target_settles {level : Nat} {locals : List String} : ∀ p : Pat,
    SettlesCode s level locals targetUses resolveTarget targetText p
  | .ident _ _ _ => .target rfl
  | .hole | .rest _ _ _ | .withDefault _ _ _ => ⟨rfl, rfl, rfl⟩
  | .array _ es _ => (pats_settles es).last fun _ => rfl
  | .object _ ps _ => (patProperties_settles ps).last fun _ => rfl
  | .expr e => by
    cases e with
    | paren span inner => exact (expr_settles inner).last fun _ => rfl
    | member span obj key =>
      exact settles_writable rfl (expr_settles (.member span obj key))
    | asType span inner t =>
      exact settles_writable rfl (expr_settles (.asType span inner t))
    | nonNull span inner =>
      exact settles_writable rfl (expr_settles (.nonNull span inner))
    | chainMember span isOptional obj key =>
      exact settles_writable rfl (expr_settles (.chainMember span isOptional obj key))
    | chainCall span isOptional callee types args =>
      exact settles_writable rfl (expr_settles (.chainCall span isOptional callee types args))
    | _ => exact ⟨rfl, rfl, rfl⟩

theorem pats_settles {level : Nat} {binds : Bool} {locals : List String} : ∀ ps : List Pat,
    SettlesCode s level locals (patsUses binds) resolvePats patTexts ps
  | [] => ⟨rfl, rfl, rfl⟩
  | p :: ps => (pat_settles p).bind fun _ => (pats_settles ps).last fun _ => rfl

theorem patProperty_settles {level : Nat} {binds : Bool} {locals : List String} :
    ∀ p : PatProperty,
    SettlesCode s level locals (patPropertyUses binds) resolvePatProperty patPropertyText p
  | .keyValue key value => (key_settles key).bind fun _ => (pat_settles value).last fun _ => rfl
  | .shorthand _ _ none => .target rfl
  | .shorthand _ id (some e) => .after binds id.name ((expr_settles e).last fun _ => rfl)
  | .rest _ arg => (pat_settles arg).last fun _ => rfl

theorem patProperties_settles {level : Nat} {binds : Bool} {locals : List String} :
    ∀ ps : List PatProperty,
    SettlesCode s level locals (patPropertiesUses binds) resolvePatProperties patPropertyTexts ps
  | [] => ⟨rfl, rfl, rfl⟩
  | p :: ps =>
    (patProperty_settles p).bind fun _ =>
      (patProperties_settles ps).last fun _ => rfl

theorem stmt_settles {level : Nat} {locals : List String} : ∀ stmt : Stmt,
    SettlesCode s level locals stmtUses resolveStmt stmtText stmt
  | .block _ body => ((block_settles body).under (lexicalNames_resolve _ body)).last fun _ => rfl
  | .return _ e => (option_settles e).last fun _ => rfl
  | .throw _ e | .expr _ e => (expr_settles e).last fun _ => rfl
  | .labeled _ _ body => (stmt_settles body).last fun _ => rfl
  | .ifThen _ test body | .while _ test body =>
    (expr_settles test).bind fun _ => (stmt_settles body).last fun _ => rfl
  | .doWhile _ body test => (stmt_settles body).bind fun _ => (expr_settles test).last fun _ => rfl
  | .ifElse _ test yes no =>
    (expr_settles test).bind fun _ =>
    (stmt_settles yes).bind fun _ =>
    (stmt_settles no).last fun _ => by
      rw [(looks_resolveStmt s.reactive yes).1]
  | .switch _ subject cases => (expr_settles subject).bind fun _ =>
    ((cases_settles cases).under (caseNames_resolve _ cases)).last fun _ => rfl
  | .tryCatch _ body param handler =>
    ((block_settles body).under (lexicalNames_resolve _ body)).bind fun _ =>
    ((catch_settles param).under (catchNames_resolve _ param)).bind fun _ =>
    ((block_settles handler).within (lexicalNames_resolve _ handler)
      (catchNames_resolve _ param)).last fun _ => rfl
  | .tryFinally _ body finalizer =>
    ((block_settles body).under (lexicalNames_resolve _ body)).bind fun _ =>
    ((block_settles finalizer).under (lexicalNames_resolve _ finalizer)).last fun _ => rfl
  | .tryCatchFinally _ body param handler finalizer =>
    ((block_settles body).under (lexicalNames_resolve _ body)).bind fun _ =>
    ((catch_settles param).under (catchNames_resolve _ param)).bind fun _ =>
    ((block_settles handler).within (lexicalNames_resolve _ handler)
      (catchNames_resolve _ param)).bind fun _ =>
    ((block_settles finalizer).under (lexicalNames_resolve _ finalizer)).last fun _ => rfl
  | .for _ init test update body =>
    ((head_settles init).under (headNames_resolve _ init)).bind fun _ =>
    ((option_settles test).under (headNames_resolve _ init)).bind fun _ =>
    ((option_settles update).under (headNames_resolve _ init)).bind fun _ =>
    ((stmt_settles body).under (headNames_resolve _ init)).last fun _ => rfl
  | .forIn _ left right body | .forOf _ _ left right body =>
    ((head_settles left).under (headNames_resolve _ left)).bind fun _ =>
    ((expr_settles right).under (headNames_resolve _ left)).bind fun _ =>
    ((stmt_settles body).under (headNames_resolve _ left)).last fun _ => rfl
  | .varDecl _ _ _ ds => (pats_settles ds).last fun _ => rfl
  | .funcDecl _ f => (func_settles f).nested.last fun _ => by
    rw [isAsync_resolveFunc, isGenerator_resolveFunc]
  | .typeDecl _ span _ => settles_copied s.reactive s "type declaration" span
  | .empty _ | .debugger _ | .break _ none | .break _ (some _)
  | .continue _ none | .continue _ (some _) | .withObject _ _ _ | .classDecl _ _
  | .usingDecl _ _ => ⟨rfl, rfl, rfl⟩

theorem block_settles {level : Nat} {locals : List String} : ∀ body : List Stmt,
    SettlesCode s level locals stmtsUses resolveStmts blockLines body
  | [] => ⟨rfl, rfl, rfl⟩
  | stmt :: rest => by
    have hstmt := @stmt_settles level locals stmt
    have hrest := @block_settles level locals rest
    show Settles _ _ _ _ (blockLines s level (resolveStmt s.reactive stmt :: _))
    rw [blockLines_cons, blockLines_cons, (looks_resolveStmt s.reactive stmt).2]
    cases hempty : isEmptyStmt stmt with
    | true =>
      cases stmt with
      | empty span => exact hrest
      | _ => cases hempty
    | false => exact hstmt.bind fun _ => hrest.last fun _ => rfl

theorem option_settles {level : Nat} {locals : List String} : ∀ e : Option Expr,
    SettlesCode s level locals optionUses resolveOption optionText e
  | none => ⟨rfl, rfl, rfl⟩
  | some e => (expr_settles e).last fun _ => rfl

theorem catch_settles {level : Nat} {locals : List String} : ∀ param : Option Pat,
    SettlesCode s level locals catchUses resolveParam catchText param
  | none => ⟨rfl, rfl, rfl⟩
  | some param => (pat_settles param).last fun _ => rfl

theorem cases_settles {level : Nat} {locals : List String} : ∀ cases : List Case,
    SettlesCode s level locals casesUses resolveCases caseTexts cases
  | [] => ⟨rfl, rfl, rfl⟩
  | .mk none body :: rest =>
    (caseLines_settles body).bind fun _ => (cases_settles rest).last fun _ => rfl
  | .mk (some test) body :: rest =>
    (expr_settles test).bind fun _ =>
    (caseLines_settles body).bind fun _ => (cases_settles rest).last fun _ => rfl

theorem caseLines_settles {level : Nat} {locals : List String} : ∀ body : List Stmt,
    SettlesCode s level locals stmtsUses resolveStmts caseLines body
  | [] => ⟨rfl, rfl, rfl⟩
  | stmt :: rest => (stmt_settles stmt).bind fun _ => (caseLines_settles rest).last fun _ => rfl

theorem head_settles {level : Nat} {locals : List String} : ∀ head : ForHead,
    SettlesCode s level locals headUses resolveHead headText head
  | .none | .usingDecl _ _ => ⟨rfl, rfl, rfl⟩
  | .varDecl _ _ ds => (pats_settles ds).last fun _ => rfl
  | .pat p => pat_settles p

end

end

/-! ## What writing does -/

/-- Code is written like its resolved form, in which every reference is the name that it means,
and its template references are noted. -/
structure WritesResolved {α : Type} (s : Scope) (code resolved : Written α)
    (uses resolvedUses : List Use) : Prop where
  value : code.value = resolved.value
  findings : code.findings = resolved.findings
  references : resolvedUses = uses.map Use.resolve
  /-- what is noted after `seen` -/
  noted : ∀ seen : List String,
    code.templateRefs.foldl (fun seen name => insertNew name seen) seen =
      seen ++ ((templateNames s.reactive uses).filter fun name => !seen.contains name).eraseDups

theorem WritesResolved.of_settles {α : Type} {s : Scope} {code resolved : Written α}
    {uses resolvedUses : List Use}
    (hwritten : Settles s.reactive uses resolvedUses code resolved) :
    WritesResolved s code resolved uses resolvedUses where
  value := by rw [hwritten.settled]; rfl
  findings := by rw [hwritten.settled]; rfl
  references := hwritten.uses
  noted seen := by rw [hwritten.noted, foldl_insertNew]

/-- Writing an expression, a pattern, a target or a statement is printing its resolved form and
noting, in the order of their first use, the template references that are not state. -/
theorem writing_prints_resolved_code (s : Scope) (level : Nat) (locals : List String) :
    (∀ e : Expr, WritesResolved s (exprText s level e)
      (exprText s level (resolveExpr s.reactive e))
      (exprUses locals e) (exprUses locals (resolveExpr s.reactive e))) ∧
    (∀ (binds : Bool) (p : Pat), WritesResolved s (patText s level p)
      (patText s level (resolvePat s.reactive p))
      (patUses binds locals p) (patUses binds locals (resolvePat s.reactive p))) ∧
    (∀ p : Pat, WritesResolved s (targetText s level p)
      (targetText s level (resolveTarget s.reactive p))
      (targetUses locals p) (targetUses locals (resolveTarget s.reactive p))) ∧
    (∀ stmt : Stmt, WritesResolved s (stmtText s level stmt)
      (stmtText s level (resolveStmt s.reactive stmt))
      (stmtUses locals stmt) (stmtUses locals (resolveStmt s.reactive stmt))) := by
  refine ⟨fun e => ?_, fun binds p => ?_, fun p => ?_, fun stmt => ?_⟩
  · exact .of_settles (expr_settles s e)
  · exact .of_settles (pat_settles s p)
  · exact .of_settles (target_settles s p)
  · exact .of_settles (stmt_settles s stmt)

end ScriptSetup.Setup
