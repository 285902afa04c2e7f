import ScriptSetup.Script.ModuleTree

/-!
# The same code in another place

`relocateExpr` and its companions move the places of a tree and leave all else as it is. The tree
that is read from a text which was moved is the tree of that text, relocated.

What is copied from the source is known by its place alone. `exprKeeps` and its companions say of
these places, as far as they are written, that each of them has a property.
-/

set_option autoImplicit false

namespace ScriptSetup.Script

/-! ## Moving places -/

/-- A name in its new place. -/
def relocateIdent (ρ : Span → Span) (id : Ident) : Ident := ⟨id.name, ρ id.span⟩

/-- A string in its new place. -/
def relocateLit (ρ : Span → Span) (lit : StringLit) : StringLit := ⟨ρ lit.span, lit.value, lit.raw⟩

/-- A type in its new place. -/
def relocateType (ρ : Span → Span) (t : TypeText) : TypeText :=
  ⟨ρ t.span, t.selfNames.map (relocateIdent ρ)⟩

mutual

/-- An expression in its new place. -/
def relocateExpr (ρ : Span → Span) : Expr → Expr
  | .this span => .this (ρ span)
  | .ident id => .ident (relocateIdent ρ id)
  | .string lit => .string (relocateLit ρ lit)
  | .number span raw => .number (ρ span) raw
  | .bigint span raw => .bigint (ρ span) raw
  | .bool span b => .bool (ρ span) b
  | .null span => .null (ρ span)
  | .regex span pattern flags => .regex (ρ span) pattern flags
  | .template span chunks es => .template (ρ span) chunks (relocateExprs ρ es)
  | .taggedTemplate span tag types es =>
    .taggedTemplate (ρ span) (relocateExpr ρ tag) (types.map (relocateType ρ)) (relocateExprs ρ es)
  | .hole => .hole
  | .spread span e => .spread (ρ span) (relocateExpr ρ e)
  | .array span es => .array (ρ span) (relocateExprs ρ es)
  | .object span props => .object (ρ span) (relocateProperties ρ props)
  | .func name f => .func (name.map (relocateIdent ρ)) (relocateFunc ρ f)
  | .classExpr name span => .classExpr (name.map (relocateIdent ρ)) (ρ span)
  | .arrow span isAsync tps ps r body =>
    .arrow (ρ span) isAsync (tps.map (relocateType ρ)) (relocatePats ρ ps)
      (r.map (relocateType ρ)) (relocateStmts ρ body)
  | .arrowExpr span isAsync tps ps r e =>
    .arrowExpr (ρ span) isAsync (tps.map (relocateType ρ)) (relocatePats ρ ps)
      (r.map (relocateType ρ)) (relocateExpr ρ e)
  | .unary span op e => .unary (ρ span) op (relocateExpr ρ e)
  | .update span op isBefore e => .update (ρ span) op isBefore (relocateExpr ρ e)
  | .binary span op l r => .binary (ρ span) op (relocateExpr ρ l) (relocateExpr ρ r)
  | .assign span op target value =>
    .assign (ρ span) op (relocatePat ρ target) (relocateExpr ρ value)
  | .cond span test yes no =>
    .cond (ρ span) (relocateExpr ρ test) (relocateExpr ρ yes) (relocateExpr ρ no)
  | .seq span es => .seq (ρ span) (relocateExprs ρ es)
  | .paren span e => .paren (ρ span) (relocateExpr ρ e)
  | .member span obj key => .member (ρ span) (relocateExpr ρ obj) (relocateKey ρ key)
  | .superMember span key => .superMember (ρ span) (relocateKey ρ key)
  | .call span callee types args =>
    .call (ρ span) (relocateExpr ρ callee) (types.map (relocateType ρ)) (relocateExprs ρ args)
  | .superCall span superSpan types args =>
    .superCall (ρ span) (ρ superSpan) (types.map (relocateType ρ)) (relocateExprs ρ args)
  | .importCall span args => .importCall (ρ span) (relocateExprs ρ args)
  | .new span callee args => .new (ρ span) (relocateExpr ρ callee) (relocateExprs ρ args)
  | .chainMember span isOptional obj key =>
    .chainMember (ρ span) isOptional (relocateExpr ρ obj) (relocateKey ρ key)
  | .chainCall span isOptional callee types args =>
    .chainCall (ρ span) isOptional (relocateExpr ρ callee) (types.map (relocateType ρ))
      (relocateExprs ρ args)
  | .yield span delegate arg => .yield (ρ span) delegate (relocateOption ρ arg)
  | .await span e => .await (ρ span) (relocateExpr ρ e)
  | .metaProperty span kind => .metaProperty (ρ span) kind
  | .privateName id => .privateName (relocateIdent ρ id)
  | .typeAssertion span t e => .typeAssertion (ρ span) (relocateType ρ t) (relocateExpr ρ e)
  | .constAssertion span e => .constAssertion (ρ span) (relocateExpr ρ e)
  | .asType span e t => .asType (ρ span) (relocateExpr ρ e) (relocateType ρ t)
  | .satisfiesType span e t => .satisfiesType (ρ span) (relocateExpr ρ e) (relocateType ρ t)
  | .nonNull span e => .nonNull (ρ span) (relocateExpr ρ e)
  | .instantiation span e t => .instantiation (ρ span) (relocateExpr ρ e) (relocateType ρ t)
  | .jsx span inside => .jsx (ρ span) (relocateExprs ρ inside)

/-- Expressions in their new place. -/
def relocateExprs (ρ : Span → Span) : List Expr → List Expr
  | [] => []
  | e :: es => relocateExpr ρ e :: relocateExprs ρ es

/-- The name of a property in its new place. -/
def relocateKey (ρ : Span → Span) : Key → Key
  | .ident id => .ident (relocateIdent ρ id)
  | .string lit => .string (relocateLit ρ lit)
  | .number span raw => .number (ρ span) raw
  | .bigint span raw => .bigint (ρ span) raw
  | .computed span e => .computed (ρ span) (relocateExpr ρ e)
  | .privateName id => .privateName (relocateIdent ρ id)

/-- A property in its new place. -/
def relocateProperty (ρ : Span → Span) : Property → Property
  | .spread span e => .spread (ρ span) (relocateExpr ρ e)
  | .shorthand id => .shorthand (relocateIdent ρ id)
  | .keyValue key value => .keyValue (relocateKey ρ key) (relocateExpr ρ value)
  | .initialized id value => .initialized (relocateIdent ρ id) (relocateExpr ρ value)
  | .getter span key type body =>
    .getter (ρ span) (relocateKey ρ key) (type.map (relocateType ρ)) (relocateStmts ρ body)
  | .setter span key param body =>
    .setter (ρ span) (relocateKey ρ key) (relocatePat ρ param) (relocateStmts ρ body)
  | .method span key f => .method (ρ span) (relocateKey ρ key) (relocateFunc ρ f)

/-- Properties in their new place. -/
def relocateProperties (ρ : Span → Span) : List Property → List Property
  | [] => []
  | p :: ps => relocateProperty ρ p :: relocateProperties ρ ps

/-- A function in its new place. -/
def relocateFunc (ρ : Span → Span) : Func → Func
  | .mk span isAsync isGenerator tps params result hasBody body =>
    .mk (ρ span) isAsync isGenerator (tps.map (relocateType ρ)) (relocatePats ρ params)
      (result.map (relocateType ρ)) hasBody (relocateStmts ρ body)

/-- A pattern in its new place. -/
def relocatePat (ρ : Span → Span) : Pat → Pat
  | .hole => .hole
  | .ident id isOptional type => .ident (relocateIdent ρ id) isOptional (type.map (relocateType ρ))
  | .array span es type => .array (ρ span) (relocatePats ρ es) (type.map (relocateType ρ))
  | .object span ps type =>
    .object (ρ span) (relocatePatProperties ρ ps) (type.map (relocateType ρ))
  | .rest span arg type => .rest (ρ span) (relocatePat ρ arg) (type.map (relocateType ρ))
  | .withDefault span left right =>
    .withDefault (ρ span) (relocatePat ρ left) (relocateExpr ρ right)
  | .expr e => .expr (relocateExpr ρ e)

/-- Patterns in their new place. -/
def relocatePats (ρ : Span → Span) : List Pat → List Pat
  | [] => []
  | p :: ps => relocatePat ρ p :: relocatePats ρ ps

/-- The property of an object pattern in its new place. -/
def relocatePatProperty (ρ : Span → Span) : PatProperty → PatProperty
  | .keyValue key value => .keyValue (relocateKey ρ key) (relocatePat ρ value)
  | .shorthand span id value => .shorthand (ρ span) (relocateIdent ρ id) (relocateOption ρ value)
  | .rest span arg => .rest (ρ span) (relocatePat ρ arg)

/-- The properties of an object pattern in their new place. -/
def relocatePatProperties (ρ : Span → Span) : List PatProperty → List PatProperty
  | [] => []
  | p :: ps => relocatePatProperty ρ p :: relocatePatProperties ρ ps

/-- A statement in its new place. -/
def relocateStmt (ρ : Span → Span) : Stmt → Stmt
  | .block span body => .block (ρ span) (relocateStmts ρ body)
  | .empty span => .empty (ρ span)
  | .debugger span => .debugger (ρ span)
  | .return span arg => .return (ρ span) (relocateOption ρ arg)
  | .labeled span label body => .labeled (ρ span) (relocateIdent ρ label) (relocateStmt ρ body)
  | .break span label => .break (ρ span) (label.map (relocateIdent ρ))
  | .continue span label => .continue (ρ span) (label.map (relocateIdent ρ))
  | .ifThen span test yes => .ifThen (ρ span) (relocateExpr ρ test) (relocateStmt ρ yes)
  | .ifElse span test yes no =>
    .ifElse (ρ span) (relocateExpr ρ test) (relocateStmt ρ yes) (relocateStmt ρ no)
  | .switch span subject cases =>
    .switch (ρ span) (relocateExpr ρ subject) (relocateCases ρ cases)
  | .throw span e => .throw (ρ span) (relocateExpr ρ e)
  | .tryCatch span body param handler =>
    .tryCatch (ρ span) (relocateStmts ρ body) (relocateParam ρ param) (relocateStmts ρ handler)
  | .tryFinally span body finalizer =>
    .tryFinally (ρ span) (relocateStmts ρ body) (relocateStmts ρ finalizer)
  | .tryCatchFinally span body param handler finalizer =>
    .tryCatchFinally (ρ span) (relocateStmts ρ body) (relocateParam ρ param)
      (relocateStmts ρ handler) (relocateStmts ρ finalizer)
  | .while span test body => .while (ρ span) (relocateExpr ρ test) (relocateStmt ρ body)
  | .doWhile span body test => .doWhile (ρ span) (relocateStmt ρ body) (relocateExpr ρ test)
  | .for span init test update body =>
    .for (ρ span) (relocateHead ρ init) (relocateOption ρ test) (relocateOption ρ update)
      (relocateStmt ρ body)
  | .forIn span left right body =>
    .forIn (ρ span) (relocateHead ρ left) (relocateExpr ρ right) (relocateStmt ρ body)
  | .forOf span isAwait left right body =>
    .forOf (ρ span) isAwait (relocateHead ρ left) (relocateExpr ρ right) (relocateStmt ρ body)
  | .expr span e => .expr (ρ span) (relocateExpr ρ e)
  | .withObject span obj body => .withObject (ρ span) (relocateExpr ρ obj) (relocateStmt ρ body)
  | .varDecl span isDeclare kind ds => .varDecl (ρ span) isDeclare kind (relocatePats ρ ds)
  | .funcDecl name f => .funcDecl (relocateIdent ρ name) (relocateFunc ρ f)
  | .classDecl name span => .classDecl (relocateIdent ρ name) (ρ span)
  | .usingDecl span ds => .usingDecl (ρ span) (relocatePats ρ ds)
  | .typeDecl kind span inside => .typeDecl kind (ρ span) (relocateStmts ρ inside)

/-- Statements in their new place. -/
def relocateStmts (ρ : Span → Span) : List Stmt → List Stmt
  | [] => []
  | stmt :: rest => relocateStmt ρ stmt :: relocateStmts ρ rest

/-- An expression, when there is one, in its new place. -/
def relocateOption (ρ : Span → Span) : Option Expr → Option Expr
  | none => none
  | some e => some (relocateExpr ρ e)

/-- The parameter of a `catch`, when there is one, in its new place. -/
def relocateParam (ρ : Span → Span) : Option Pat → Option Pat
  | none => none
  | some p => some (relocatePat ρ p)

/-- Cases in their new place. -/
def relocateCases (ρ : Span → Span) : List Case → List Case
  | [] => []
  | .mk test body :: rest =>
    .mk (relocateOption ρ test) (relocateStmts ρ body) :: relocateCases ρ rest

/-- The head of a loop in its new place. -/
def relocateHead (ρ : Span → Span) : ForHead → ForHead
  | .none => .none
  | .varDecl span kind ds => .varDecl (ρ span) kind (relocatePats ρ ds)
  | .usingDecl span ds => .usingDecl (ρ span) (relocatePats ρ ds)
  | .pat p => .pat (relocatePat ρ p)

end

/-! ## Copied places -/

/-- A type, when there is one, is copied from a place with the property. -/
def typeKeeps (P : Span → Prop) : Option TypeText → Prop
  | none => True
  | some t => P t.span

mutual

/-- What an expression copies from the source stands in places with the property. -/
def exprKeeps (P : Span → Prop) : Expr → Prop
  | .template _ _ es | .array _ es | .seq _ es | .importCall _ es => exprsKeep P es
  | .spread _ e | .unary _ _ e | .update _ _ _ e | .paren _ e | .await _ e | .constAssertion _ e
  | .nonNull _ e => exprKeeps P e
  | .yield _ _ e => optionKeeps P e
  | .typeAssertion _ t e | .asType _ e t | .satisfiesType _ e t | .instantiation _ e t =>
    P t.span ∧ exprKeeps P e
  | .object _ props => propertiesKeep P props
  | .func _ f => funcKeeps P f
  | .arrow _ _ tps ps r body =>
    typeKeeps P tps ∧ patsKeep P ps ∧ typeKeeps P r ∧ stmtsKeep P body
  | .arrowExpr _ _ tps ps r e => typeKeeps P tps ∧ patsKeep P ps ∧ typeKeeps P r ∧ exprKeeps P e
  | .binary _ _ l r => exprKeeps P l ∧ exprKeeps P r
  | .assign _ _ target value => patKeeps P target ∧ exprKeeps P value
  | .cond _ test yes no => exprKeeps P test ∧ exprKeeps P yes ∧ exprKeeps P no
  | .member _ obj key | .chainMember _ _ obj key => exprKeeps P obj ∧ keyKeeps P key
  | .call _ callee types args | .chainCall _ _ callee types args =>
    exprKeeps P callee ∧ typeKeeps P types ∧ exprsKeep P args
  | .new _ callee args => exprKeeps P callee ∧ exprsKeep P args
  | .ident _ | .this _ | .string _ | .number _ _ | .bigint _ _ | .bool _ _ | .null _
  | .regex _ _ _ | .taggedTemplate _ _ _ _ | .hole | .classExpr _ _ | .superMember _ _
  | .superCall _ _ _ _ | .metaProperty _ _ | .privateName _ | .jsx _ _ => True

/-- What expressions copy. -/
def exprsKeep (P : Span → Prop) : List Expr → Prop
  | [] => True
  | e :: es => exprKeeps P e ∧ exprsKeep P es

/-- What the name of a property copies. -/
def keyKeeps (P : Span → Prop) : Key → Prop
  | .computed _ e => exprKeeps P e
  | .ident _ | .string _ | .number _ _ | .bigint _ _ | .privateName _ => True

/-- What a property copies. -/
def propertyKeeps (P : Span → Prop) : Property → Prop
  | .spread _ e | .initialized _ e => exprKeeps P e
  | .shorthand _ => True
  | .keyValue key value => keyKeeps P key ∧ exprKeeps P value
  | .getter _ key type body => keyKeeps P key ∧ typeKeeps P type ∧ stmtsKeep P body
  | .setter _ key param body => keyKeeps P key ∧ patKeeps P param ∧ stmtsKeep P body
  | .method _ key f => keyKeeps P key ∧ funcKeeps P f

/-- What properties copy. -/
def propertiesKeep (P : Span → Prop) : List Property → Prop
  | [] => True
  | p :: ps => propertyKeeps P p ∧ propertiesKeep P ps

/-- What a function copies. -/
def funcKeeps (P : Span → Prop) : Func → Prop
  | .mk _ _ _ tps ps r _ body =>
    typeKeeps P tps ∧ patsKeep P ps ∧ typeKeeps P r ∧ stmtsKeep P body

/-- What a pattern copies. -/
def patKeeps (P : Span → Prop) : Pat → Prop
  | .hole => True
  | .ident _ _ type => typeKeeps P type
  | .array _ es type => patsKeep P es ∧ typeKeeps P type
  | .object _ ps type => patPropertiesKeep P ps ∧ typeKeeps P type
  | .rest _ arg type => patKeeps P arg ∧ typeKeeps P type
  | .withDefault _ left right => patKeeps P left ∧ exprKeeps P right
  | .expr e => exprKeeps P e

/-- What patterns copy. -/
def patsKeep (P : Span → Prop) : List Pat → Prop
  | [] => True
  | p :: ps => patKeeps P p ∧ patsKeep P ps

/-- What the property of an object pattern copies. -/
def patPropertyKeeps (P : Span → Prop) : PatProperty → Prop
  | .keyValue key value => keyKeeps P key ∧ patKeeps P value
  | .shorthand _ _ e => optionKeeps P e
  | .rest _ arg => patKeeps P arg

/-- What the properties of an object pattern copy. -/
def patPropertiesKeep (P : Span → Prop) : List PatProperty → Prop
  | [] => True
  | p :: ps => patPropertyKeeps P p ∧ patPropertiesKeep P ps

/-- What a statement copies. -/
def stmtKeeps (P : Span → Prop) : Stmt → Prop
  | .block _ body => stmtsKeep P body
  | .return _ e => optionKeeps P e
  | .throw _ e | .expr _ e => exprKeeps P e
  | .labeled _ _ body => stmtKeeps P body
  | .ifThen _ test body | .while _ test body | .doWhile _ body test =>
    exprKeeps P test ∧ stmtKeeps P body
  | .ifElse _ test yes no => exprKeeps P test ∧ stmtKeeps P yes ∧ stmtKeeps P no
  | .switch _ subject cases => exprKeeps P subject ∧ casesKeep P cases
  | .tryCatch _ body param handler =>
    stmtsKeep P body ∧ paramKeeps P param ∧ stmtsKeep P handler
  | .tryFinally _ body finalizer => stmtsKeep P body ∧ stmtsKeep P finalizer
  | .tryCatchFinally _ body param handler finalizer =>
    stmtsKeep P body ∧ paramKeeps P param ∧ stmtsKeep P handler ∧ stmtsKeep P finalizer
  | .for _ init test update body =>
    headKeeps P init ∧ optionKeeps P test ∧ optionKeeps P update ∧ stmtKeeps P body
  | .forIn _ left right body | .forOf _ _ left right body =>
    headKeeps P left ∧ exprKeeps P right ∧ stmtKeeps P body
  | .varDecl _ _ _ ds => patsKeep P ds
  | .funcDecl _ f => funcKeeps P f
  | .typeDecl _ span _ => P span
  | .empty _ | .debugger _ | .break _ _ | .continue _ _ | .withObject _ _ _ | .classDecl _ _
  | .usingDecl _ _ => True

/-- What statements copy. -/
def stmtsKeep (P : Span → Prop) : List Stmt → Prop
  | [] => True
  | stmt :: rest => stmtKeeps P stmt ∧ stmtsKeep P rest

/-- What an expression copies, when there is one. -/
def optionKeeps (P : Span → Prop) : Option Expr → Prop
  | none => True
  | some e => exprKeeps P e

/-- What is copied for what a `catch` binds. -/
def paramKeeps (P : Span → Prop) : Option Pat → Prop
  | none => True
  | some p => patKeeps P p

/-- What cases copy. -/
def casesKeep (P : Span → Prop) : List Case → Prop
  | [] => True
  | .mk test body :: rest => optionKeeps P test ∧ stmtsKeep P body ∧ casesKeep P rest

/-- What the head of a loop copies. -/
def headKeeps (P : Span → Prop) : ForHead → Prop
  | .none | .usingDecl _ _ => True
  | .varDecl _ _ ds => patsKeep P ds
  | .pat p => patKeeps P p

end

/-! ## Members and modules -/

/-- A decorator in its new place. -/
def relocateDecorator (ρ : Span → Span) (d : Decorator) : Decorator :=
  ⟨ρ d.span, relocateExpr ρ d.expr⟩

/-- A member in its new place. -/
def relocateMember (ρ : Span → Span) : Member → Member
  | .field span decorators isReadonly key type value =>
    .field (ρ span) (decorators.map (relocateDecorator ρ)) isReadonly (relocateKey ρ key)
      (type.map (relocateType ρ)) (relocateOption ρ value)
  | .method span decorators kind key f paramDecorators =>
    .method (ρ span) (decorators.map (relocateDecorator ρ)) kind (relocateKey ρ key)
      (relocateFunc ρ f) (paramDecorators.map (List.map (relocateDecorator ρ)))
  | .classOnly what span inside => .classOnly what (ρ span) (inside.map (relocateIdent ρ))
  | .empty => .empty

/-- A class in its new place. -/
def relocateClass (ρ : Span → Span) (c : Class) : Class :=
  ⟨ρ c.span, relocateOption ρ c.superClass, c.members.map (relocateMember ρ)⟩

/-- An import in its new place. -/
def relocateImport (ρ : Span → Span) (decl : ImportDecl) : ImportDecl :=
  ⟨ρ decl.span, decl.isType, decl.specifiers, relocateLit ρ decl.source,
    relocateProperties ρ decl.attributes⟩

/-- An item of a module in its new place. -/
def relocateItem (ρ : Span → Span) : ModuleItem → ModuleItem
  | .importDecl decl => .importDecl (relocateImport ρ decl)
  | .component c => .component (relocateClass ρ c)
  | .defaultDecl span => .defaultDecl (ρ span)
  | .exportDecl span decl => .exportDecl (ρ span) (relocateStmt ρ decl)
  | .moduleDecl span => .moduleDecl (ρ span)
  | .stmt stmt => .stmt (relocateStmt ρ stmt)

/-- What decorators copy. -/
def decoratorsKeep (P : Span → Prop) (ds : List Decorator) : Prop :=
  ∀ d ∈ ds, exprKeeps P d.expr

/-- What a member copies. -/
def memberKeeps (P : Span → Prop) : Member → Prop
  | .field _ decorators _ _ type value =>
    decoratorsKeep P decorators ∧ typeKeeps P type ∧ optionKeeps P value
  | .method _ decorators _ _ f _ => decoratorsKeep P decorators ∧ funcKeeps P f
  | .classOnly _ _ _ | .empty => True

/-- What an item of a module copies. -/
def itemKeeps (P : Span → Prop) : ModuleItem → Prop
  | .component c => ∀ m ∈ c.members, memberKeeps P m
  | .exportDecl span decl => P span ∧ stmtKeeps P decl
  | .stmt stmt => stmtKeeps P stmt
  | .importDecl _ | .defaultDecl _ | .moduleDecl _ => True

/-! ## Lists -/

theorem relocateExprs_eq_map (ρ : Span → Span) (es : List Expr) :
    relocateExprs ρ es = es.map (relocateExpr ρ) := by
  induction es with
  | nil => rfl
  | cons e es ih => exact congrArg (relocateExpr ρ e :: ·) ih

theorem relocatePats_eq_map (ρ : Span → Span) (ps : List Pat) :
    relocatePats ρ ps = ps.map (relocatePat ρ) := by
  induction ps with
  | nil => rfl
  | cons p ps ih => exact congrArg (relocatePat ρ p :: ·) ih

theorem relocateProperties_eq_map (ρ : Span → Span) (ps : List Property) :
    relocateProperties ρ ps = ps.map (relocateProperty ρ) := by
  induction ps with
  | nil => rfl
  | cons p ps ih => exact congrArg (relocateProperty ρ p :: ·) ih

theorem relocateStmts_eq_map (ρ : Span → Span) (body : List Stmt) :
    relocateStmts ρ body = body.map (relocateStmt ρ) := by
  induction body with
  | nil => rfl
  | cons stmt rest ih => exact congrArg (relocateStmt ρ stmt :: ·) ih

theorem stmtKeeps_of_mem {P : Span → Prop} : ∀ {body : List Stmt} {stmt : Stmt},
    stmtsKeep P body → stmt ∈ body → stmtKeeps P stmt
  | _ :: _, _, h, hmem => by
    rcases List.mem_cons.1 hmem with rfl | hmem
    · exact h.1
    · exact stmtKeeps_of_mem h.2 hmem

end ScriptSetup.Script
