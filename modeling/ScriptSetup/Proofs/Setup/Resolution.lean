import ScriptSetup.Setup.Print

/-!
# Code with its self accesses resolved

`resolveExpr` and its companions replace, in one pass from the outside in, every self access of a
tree by the binding that it means: `this.$refs.n` by `n.value`, and `this.n` by `n.value` when `n`
is state and by `n` otherwise. The pass goes through everything that is written. What becomes a
placeholder and what is copied from the source stays as it is.
-/

set_option autoImplicit false

namespace ScriptSetup.Setup

open Script Written

/-! ## Replacing self accesses -/

/-- `id.value`. -/
def valueOf (id : Ident) : Expr :=
  .member id.span (.ident id) (.ident ⟨"value", id.span⟩)

/-- What stands for `this.n`, where `n` may be state. -/
def selfBinding (state : List String) (id : Ident) : Expr :=
  if state.contains id.name then valueOf id else .ident id

/-- An expression as a target: a name is bound, all else is assigned to. -/
def asTarget : Expr → Pat
  | .ident id => .ident id false none
  | e => .expr e

mutual

/-- The expression with its self accesses resolved. -/
def resolveExpr (state : List String) : Expr → Expr
  | .template span chunks es => .template span chunks (resolveExprs state es)
  | .spread span e => .spread span (resolveExpr state e)
  | .array span es => .array span (resolveExprs state es)
  | .object span props => .object span (resolveProperties state props)
  | .func name f => .func name (resolveFunc state f)
  | .arrow span isAsync tps ps r body =>
    .arrow span isAsync tps (resolvePats state ps) r (resolveStmts state body)
  | .arrowExpr span isAsync tps ps r e =>
    .arrowExpr span isAsync tps (resolvePats state ps) r (resolveExpr state e)
  | .unary span op e => .unary span op (resolveExpr state e)
  | .update span op isBefore e => .update span op isBefore (resolveExpr state e)
  | .binary span op l r => .binary span op (resolveExpr state l) (resolveExpr state r)
  | .assign span op target value =>
    .assign span op (resolveTarget state target) (resolveExpr state value)
  | .cond span test yes no =>
    .cond span (resolveExpr state test) (resolveExpr state yes) (resolveExpr state no)
  | .seq span es => .seq span (resolveExprs state es)
  | .paren span e => .paren span (resolveExpr state e)
  | .member span obj key =>
    match isThis obj, isTemplateRefs obj, accessName? key with
    | true, _, some name => selfBinding state ⟨name, span⟩
    | true, _, none => .member span obj key
    | false, true, some name => valueOf ⟨name, span⟩
    | false, _, _ => .member span (resolveExpr state obj) (resolveKey state key)
  | .call span callee types args =>
    .call span (resolveExpr state callee) types (resolveExprs state args)
  | .importCall span args => .importCall span (resolveExprs state args)
  | .new span callee args => .new span (resolveExpr state callee) (resolveExprs state args)
  | .chainMember span isOptional obj key =>
    .chainMember span isOptional (resolveExpr state obj) (resolveKey state key)
  | .chainCall span isOptional callee types args =>
    .chainCall span isOptional (resolveExpr state callee) types (resolveExprs state args)
  | .yield span delegate arg => .yield span delegate (resolveOption state arg)
  | .await span e => .await span (resolveExpr state e)
  | .typeAssertion span t e => .typeAssertion span t (resolveExpr state e)
  | .constAssertion span e => .constAssertion span (resolveExpr state e)
  | .asType span e t => .asType span (resolveExpr state e) t
  | .satisfiesType span e t => .satisfiesType span (resolveExpr state e) t
  | .nonNull span e => .nonNull span (resolveExpr state e)
  | .instantiation span e t => .instantiation span (resolveExpr state e) t
  | e => e

/-- The expressions with their self accesses resolved. -/
def resolveExprs (state : List String) : List Expr → List Expr
  | [] => []
  | e :: es => resolveExpr state e :: resolveExprs state es

/-- The name of a property with its self accesses resolved. -/
def resolveKey (state : List String) : Key → Key
  | .computed span e => .computed span (resolveExpr state e)
  | key => key

/-- The property with its self accesses resolved. -/
def resolveProperty (state : List String) : Property → Property
  | .spread span e => .spread span (resolveExpr state e)
  | .shorthand id => .shorthand id
  | .keyValue key value => .keyValue (resolveKey state key) (resolveExpr state value)
  | .initialized id value => .initialized id (resolveExpr state value)
  | .getter span key type body =>
    .getter span (resolveKey state key) type (resolveStmts state body)
  | .setter span key param body =>
    .setter span (resolveKey state key) (resolvePat state param) (resolveStmts state body)
  | .method span key f => .method span (resolveKey state key) (resolveFunc state f)

/-- The properties with their self accesses resolved. -/
def resolveProperties (state : List String) : List Property → List Property
  | [] => []
  | p :: ps => resolveProperty state p :: resolveProperties state ps

/-- The function with its self accesses resolved. -/
def resolveFunc (state : List String) : Func → Func
  | .mk span isAsync isGenerator tps params result hasBody body =>
    .mk span isAsync isGenerator tps (resolvePats state params) result hasBody
      (resolveStmts state body)

/-- The pattern with its self accesses resolved. -/
def resolvePat (state : List String) : Pat → Pat
  | .hole => .hole
  | .ident id isOptional type => .ident id isOptional type
  | .array span es type => .array span (resolvePats state es) type
  | .object span ps type => .object span (resolvePatProperties state ps) type
  | .rest span arg type => .rest span (resolvePat state arg) type
  | .withDefault span left right =>
    .withDefault span (resolvePat state left) (resolveExpr state right)
  | .expr e => .expr (resolveExpr state e)

/-- The target of an assignment with its self accesses resolved. -/
def resolveTarget (state : List String) : Pat → Pat
  | .ident id isOptional type => .ident id isOptional type
  | .array span es type => .array span (resolvePats state es) type
  | .object span ps type => .object span (resolvePatProperties state ps) type
  | .expr (.paren span inner) => .expr (.paren span (resolveExpr state inner))
  | .expr e => if isWritableTarget e then asTarget (resolveExpr state e) else .expr e
  | p => p

/-- The patterns with their self accesses resolved. -/
def resolvePats (state : List String) : List Pat → List Pat
  | [] => []
  | p :: ps => resolvePat state p :: resolvePats state ps

/-- The property of an object pattern with its self accesses resolved. -/
def resolvePatProperty (state : List String) : PatProperty → PatProperty
  | .keyValue key value => .keyValue (resolveKey state key) (resolvePat state value)
  | .shorthand span id value => .shorthand span id (resolveOption state value)
  | .rest span arg => .rest span (resolvePat state arg)

/-- The properties of an object pattern with their self accesses resolved. -/
def resolvePatProperties (state : List String) : List PatProperty → List PatProperty
  | [] => []
  | p :: ps => resolvePatProperty state p :: resolvePatProperties state ps

/-- The statement with its self accesses resolved. -/
def resolveStmt (state : List String) : Stmt → Stmt
  | .block span body => .block span (resolveStmts state body)
  | .return span arg => .return span (resolveOption state arg)
  | .labeled span label body => .labeled span label (resolveStmt state body)
  | .ifThen span test yes => .ifThen span (resolveExpr state test) (resolveStmt state yes)
  | .ifElse span test yes no =>
    .ifElse span (resolveExpr state test) (resolveStmt state yes) (resolveStmt state no)
  | .switch span subject cases =>
    .switch span (resolveExpr state subject) (resolveCases state cases)
  | .throw span e => .throw span (resolveExpr state e)
  | .tryCatch span body param handler =>
    .tryCatch span (resolveStmts state body) (resolveParam state param)
      (resolveStmts state handler)
  | .tryFinally span body finalizer =>
    .tryFinally span (resolveStmts state body) (resolveStmts state finalizer)
  | .tryCatchFinally span body param handler finalizer =>
    .tryCatchFinally span (resolveStmts state body) (resolveParam state param)
      (resolveStmts state handler) (resolveStmts state finalizer)
  | .while span test body => .while span (resolveExpr state test) (resolveStmt state body)
  | .doWhile span body test => .doWhile span (resolveStmt state body) (resolveExpr state test)
  | .for span init test update body =>
    .for span (resolveHead state init) (resolveOption state test) (resolveOption state update)
      (resolveStmt state body)
  | .forIn span left right body =>
    .forIn span (resolveHead state left) (resolveExpr state right) (resolveStmt state body)
  | .forOf span isAwait left right body =>
    .forOf span isAwait (resolveHead state left) (resolveExpr state right)
      (resolveStmt state body)
  | .expr span e => .expr span (resolveExpr state e)
  | .varDecl span isDeclare kind ds => .varDecl span isDeclare kind (resolvePats state ds)
  | .funcDecl name f => .funcDecl name (resolveFunc state f)
  | stmt => stmt

/-- The statements with their self accesses resolved. -/
def resolveStmts (state : List String) : List Stmt → List Stmt
  | [] => []
  | stmt :: rest => resolveStmt state stmt :: resolveStmts state rest

/-- The expression, when there is one, with its self accesses resolved. -/
def resolveOption (state : List String) : Option Expr → Option Expr
  | none => none
  | some e => some (resolveExpr state e)

/-- The parameter of a `catch`, when there is one, with its self accesses resolved. -/
def resolveParam (state : List String) : Option Pat → Option Pat
  | none => none
  | some p => some (resolvePat state p)

/-- The cases with their self accesses resolved. -/
def resolveCases (state : List String) : List Case → List Case
  | [] => []
  | .mk test body :: rest =>
    .mk (resolveOption state test) (resolveStmts state body) :: resolveCases state rest

/-- The head of a `for` with its self accesses resolved. -/
def resolveHead (state : List String) : ForHead → ForHead
  | .none => .none
  | .varDecl span kind ds => .varDecl span kind (resolvePats state ds)
  | .usingDecl span ds => .usingDecl span ds
  | .pat p => .pat (resolvePat state p)

end

variable {key : Key} {obj : Expr} {span : Span} {state : List String}

/-! ## What resolving leaves as it is -/

theorem resolveExpr_member (state : List String) (span : Span) (obj : Expr) (key : Key) :
    resolveExpr state (.member span obj key) =
      match isThis obj, isTemplateRefs obj, accessName? key with
      | true, _, some name => selfBinding state ⟨name, span⟩
      | true, _, none => .member span obj key
      | false, true, some name => valueOf ⟨name, span⟩
      | false, _, _ => .member span (resolveExpr state obj) (resolveKey state key) := rfl

theorem resolveExpr_member_this {name : String} (hobj : isThis obj = true)
    (hkey : accessName? key = some name) :
    resolveExpr state (.member span obj key) = selfBinding state ⟨name, span⟩ := by
  rw [resolveExpr_member, hobj, hkey]

theorem resolveExpr_member_dynamic (hobj : isThis obj = true) (hkey : accessName? key = none) :
    resolveExpr state (.member span obj key) = .member span obj key := by
  rw [resolveExpr_member, hobj, hkey]

theorem resolveExpr_member_refs {name : String} (hobj : isThis obj = false)
    (hrefs : isTemplateRefs obj = true) (hkey : accessName? key = some name) :
    resolveExpr state (.member span obj key) = valueOf ⟨name, span⟩ := by
  rw [resolveExpr_member, hobj, hrefs, hkey]

/-- An access that is no self access. -/
def isPlainAccess (obj : Expr) (key : Key) : Bool :=
  !isThis obj && !(isTemplateRefs obj && (accessName? key).isSome)

theorem resolveExpr_member_plain (h : isPlainAccess obj key = true) :
    resolveExpr state (.member span obj key) =
      .member span (resolveExpr state obj) (resolveKey state key) := by
  rw [resolveExpr_member]
  cases hobj : isThis obj <;> cases hrefs : isTemplateRefs obj <;>
    cases hkey : accessName? key <;> simp_all [isPlainAccess]

/-- Every access is of one of four kinds. -/
theorem access_cases (obj : Expr) (key : Key) :
    (isThis obj = true ∧ ∃ name, accessName? key = some name) ∨
    (isThis obj = true ∧ accessName? key = none) ∨
    (isThis obj = false ∧ isTemplateRefs obj = true ∧ ∃ name, accessName? key = some name) ∨
    isPlainAccess obj key = true := by
  cases hobj : isThis obj <;> cases hrefs : isTemplateRefs obj <;>
    cases hkey : accessName? key <;> simp [isPlainAccess, hobj, hrefs, hkey]

/-- An access becomes a name or stays an access. -/
theorem resolveExpr_member_shape (state : List String) (span : Span) (obj : Expr) (key : Key) :
    (∃ id, resolveExpr state (.member span obj key) = .ident id) ∨
      ∃ span' obj' key', resolveExpr state (.member span obj key) = .member span' obj' key' := by
  rcases access_cases obj key with ⟨hobj, name, hkey⟩ | ⟨hobj, hkey⟩ | ⟨hobj, hrefs, name, hkey⟩ |
    hplain
  · rw [resolveExpr_member_this hobj hkey, selfBinding]
    split
    · exact Or.inr ⟨_, _, _, rfl⟩
    · exact Or.inl ⟨_, rfl⟩
  · rw [resolveExpr_member_dynamic hobj hkey]
    exact Or.inr ⟨_, _, _, rfl⟩
  · rw [resolveExpr_member_refs hobj hrefs hkey]
    exact Or.inr ⟨_, _, _, rfl⟩
  · rw [resolveExpr_member_plain hplain]
    exact Or.inr ⟨_, _, _, rfl⟩

/-- Nothing that the writer asks of a part is changed by resolving the part. -/
theorem looks_resolveExpr (state : List String) (e : Expr) :
    isThis (resolveExpr state e) = isThis e ∧
      isObject (resolveExpr state e) = isObject e ∧
      carriesParens (resolveExpr state e) = carriesParens e := by
  cases e with
  | member span obj key =>
    rcases resolveExpr_member_shape state span obj key with ⟨id, h⟩ | ⟨span', obj', key', h⟩
    · rw [h]
      exact ⟨rfl, rfl, rfl⟩
    · rw [h]
      exact ⟨rfl, rfl, rfl⟩
  | _ => exact ⟨rfl, rfl, rfl⟩

/-- No `this.$refs` is left. -/
theorem isTemplateRefs_resolveExpr (state : List String) (e : Expr) :
    isTemplateRefs (resolveExpr state e) = false := by
  cases e with
  | member span obj key =>
    rcases access_cases obj key with ⟨hobj, name, hkey⟩ | ⟨hobj, hkey⟩ |
      ⟨hobj, hrefs, name, hkey⟩ | hplain
    · rw [resolveExpr_member_this hobj hkey, selfBinding]
      split
      · rfl
      · rfl
    · rw [resolveExpr_member_dynamic hobj hkey]
      cases obj <;> simp_all [isThis, isTemplateRefs]
    · rw [resolveExpr_member_refs hobj hrefs hkey]
      rfl
    · have hobj : isThis (resolveExpr state obj) = false := by
        rw [(looks_resolveExpr state obj).1]
        simp_all [isPlainAccess]
      rw [resolveExpr_member_plain hplain]
      cases hobj' : resolveExpr state obj <;> simp_all [isThis, isTemplateRefs]
  | _ => rfl

theorem isPlainAccess_resolve (state : List String) (h : isPlainAccess obj key = true) :
    isPlainAccess (resolveExpr state obj) (resolveKey state key) = true := by
  have hthis : isThis obj = false := by simp_all [isPlainAccess]
  rw [isPlainAccess, (looks_resolveExpr state obj).1, isTemplateRefs_resolveExpr, hthis]
  rfl

/-! ## Writing the resolved tree -/

namespace Written

/-- The value and the findings, without notes about template references. -/
def settled {α : Type} (w : Written α) : Written α :=
  { w with templateRefs := [] }

theorem settled_bind {α β : Type} (w : Written α) (f : α → Written β) :
    (w >>= f).settled = w.settled >>= fun a => (f a).settled := rfl

end Written

variable {e : Expr} {level : Nat} {s : Scope}

theorem exprText_valueOf (s : Scope) (level : Nat) (id : Ident) :
    exprText s level (valueOf id) = of (id.name ++ ".value") := rfl

theorem exprText_selfBinding (s : Scope) (level : Nat) (id : Ident) :
    exprText s level (selfBinding s.reactive id) = of (s.selfAccess id.name) := by
  rw [selfBinding, Scope.selfAccess]
  split
  · rfl
  · rfl

theorem exprText_member (s : Scope) (level : Nat) (span : Span) (obj : Expr) (key : Key) :
    exprText s level (.member span obj key) =
      match isThis obj, isTemplateRefs obj, accessName? key with
      | true, _, some name => of (s.selfAccess name)
      | true, _, none => unsupportedExpr "dynamic `this` access" span
      | false, true, some name => s.templateRef name
      | _, _, _ => do
        let obj ← exprText s level obj
        let link ← accessText s level key
        return obj ++ link := rfl

theorem exprText_member_plain {span : Span} {obj : Expr} {key : Key}
    (h : isPlainAccess obj key = true) : exprText s level (.member span obj key) = do
      let obj ← exprText s level obj
      let link ← accessText s level key
      return obj ++ link := by
  rw [exprText_member]
  cases hobj : isThis obj <;> cases hrefs : isTemplateRefs obj <;>
    cases hkey : accessName? key <;> simp_all [isPlainAccess]

/-- The target that an expression becomes is written like the expression. -/
theorem targetText_asTarget (h : isWritableTarget e = true) :
    targetText s level (asTarget (resolveExpr s.reactive e)) =
      exprText s level (resolveExpr s.reactive e) := by
  have hname (id : Ident) : targetText s level (asTarget (.ident id)) =
      exprText s level (.ident id) := by
    show of (id.name ++ "" ++ "") = of id.name
    rw [String.append_empty, String.append_empty]
  cases e with
  | member span obj key =>
    rcases resolveExpr_member_shape s.reactive span obj key with ⟨id, h⟩ | ⟨span', obj', key', h⟩
    · rw [h, hname]
    · rw [h]
      rfl
  | chainMember | chainCall | asType | nonNull => rfl
  | _ => cases h

theorem resolveTarget_of_writable {state : List String} (h : isWritableTarget e = true) :
    resolveTarget state (.expr e) = asTarget (resolveExpr state e) := by
  cases e with
  | member | chainMember | chainCall | asType | nonNull => rfl
  | _ => cases h

theorem targetText_of_writable (h : isWritableTarget e = true) :
    targetText s level (.expr e) = exprText s level e := by
  cases e with
  | member | chainMember | chainCall | asType | nonNull => rfl
  | _ => cases h

/-! ### Functions and statements -/

theorem isAsync_resolveFunc (state : List String) (f : Func) :
    (resolveFunc state f).isAsync = f.isAsync := by
  cases f
  rfl

theorem isGenerator_resolveFunc (state : List String) (f : Func) :
    (resolveFunc state f).isGenerator = f.isGenerator := by
  cases f
  rfl

/-- A statement that does nothing. -/
def isEmptyStmt : Stmt → Bool
  | .empty _ => true
  | _ => false

theorem blockLines_cons (s : Scope) (level : Nat) (stmt : Stmt) (rest : List Stmt) :
    blockLines s level (stmt :: rest) =
      if isEmptyStmt stmt then blockLines s level rest
      else do
        let line ← stmtText s level stmt
        let lines ← blockLines s level rest
        return line :: lines := by
  cases stmt <;> rfl

theorem looks_resolveStmt (state : List String) (stmt : Stmt) :
    isBlock (resolveStmt state stmt) = isBlock stmt ∧
      isEmptyStmt (resolveStmt state stmt) = isEmptyStmt stmt := by
  cases stmt with
  | _ => exact ⟨rfl, rfl⟩

end ScriptSetup.Setup
