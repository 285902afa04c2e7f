import ScriptSetup.Proofs.Setup.Resolution

/-!
# Names and the scopes they stand in

`exprUses` and its companions list what a piece of code refers to, in the order in which it is
written: names, self accesses and template references, each with the local names whose scope it
stands in. Parameters and the name of a function expression are visible in the whole function, a
`var` in the whole body that holds it, `let`, `const` and functions in their block, what a `for`
declares in the whole loop and what a `catch` binds in its handler. What becomes a placeholder and
what is copied from the source is not looked into: it refers to nothing and declares nothing.

Resolving keeps the declared names.
-/

set_option autoImplicit false

namespace ScriptSetup.Setup

open Script Written

/-! ## Declared names -/

mutual

/-- The names that a pattern binds. -/
def patNames : Pat → List String
  | .ident id _ _ => [id.name]
  | .array _ es _ => patsNames es
  | .object _ ps _ => patPropertiesNames ps
  | .rest _ arg _ => patNames arg
  | .withDefault _ left _ => patNames left
  | .hole | .expr _ => []

/-- The names that patterns bind. -/
def patsNames : List Pat → List String
  | [] => []
  | p :: ps => patNames p ++ patsNames ps

/-- The names that a property of an object pattern binds. -/
def patPropertyNames : PatProperty → List String
  | .keyValue _ value => patNames value
  | .shorthand _ id _ => [id.name]
  | .rest _ arg => patNames arg

/-- The names that the properties of an object pattern bind. -/
def patPropertiesNames : List PatProperty → List String
  | [] => []
  | p :: ps => patPropertyNames p ++ patPropertiesNames ps

end

/-- The names that a `catch` binds. -/
def catchNames : Option Pat → List String
  | none => []
  | some p => patNames p

/-- The names that the head of a loop declares for the loop. -/
def headNames : ForHead → List String
  | .varDecl _ kind ds => if kind = .var then [] else patsNames ds
  | .none | .usingDecl _ _ | .pat _ => []

/-- The names that the head of a loop declares for the body of the function. -/
def headVarNames : ForHead → List String
  | .varDecl _ kind ds => if kind = .var then patsNames ds else []
  | .none | .usingDecl _ _ | .pat _ => []

/-- The names that a statement declares for its block. -/
def blockNames : Stmt → List String
  | .varDecl _ _ kind ds => if kind = .var then [] else patsNames ds
  | .funcDecl name _ => [name.name]
  | .labeled _ _ body => blockNames body
  | _ => []

mutual

/-- The names that a statement declares for the body of the function. -/
def varNames : Stmt → List String
  | .varDecl _ _ kind ds => if kind = .var then patsNames ds else []
  | .block _ body => varsNames body
  | .labeled _ _ body | .ifThen _ _ body | .while _ _ body | .doWhile _ body _ => varNames body
  | .ifElse _ _ yes no => varNames yes ++ varNames no
  | .switch _ _ cases => caseVarNames cases
  | .tryCatch _ body _ handler => varsNames body ++ varsNames handler
  | .tryFinally _ body finalizer => varsNames body ++ varsNames finalizer
  | .tryCatchFinally _ body _ handler finalizer =>
    varsNames body ++ varsNames handler ++ varsNames finalizer
  | .for _ head _ _ body | .forIn _ head _ body | .forOf _ _ head _ body =>
    headVarNames head ++ varNames body
  | _ => []

/-- The names that statements declare for the body of the function. -/
def varsNames : List Stmt → List String
  | [] => []
  | stmt :: rest => varNames stmt ++ varsNames rest

/-- The names that the cases of a `switch` declare for the body of the function. -/
def caseVarNames : List Case → List String
  | [] => []
  | .mk _ body :: rest => varsNames body ++ caseVarNames rest

end

/-- The names that statements declare for the block they stand in. -/
def lexicalNames : List Stmt → List String
  | [] => []
  | stmt :: rest => blockNames stmt ++ lexicalNames rest

/-- The names that cases declare for the `switch`. -/
def caseNames : List Case → List String
  | [] => []
  | .mk _ body :: rest => lexicalNames body ++ caseNames rest

/-- The names that the body of a function declares. -/
def bodyNames (body : List Stmt) : List String :=
  varsNames body ++ lexicalNames body

/-! ## References -/

/-- What a piece of code refers to. -/
inductive Reference where
  | name (name : String)
  /-- `this.n` or `this['n']`, with its place -/
  | self (name : String) (span : Span) (isDotted : Bool)
  /-- `this.$refs.n` -/
  | templateRef (name : String)
  deriving DecidableEq, Repr

/-- A reference, the local names in whose scope it stands, the innermost first, and the functions
it stands in. -/
structure Use where
  reference : Reference
  locals : List String
  /-- it stands in a function, and so is not made when the code around the function runs -/
  isDeferred : Bool := false
  /-- it stands in a function with a `this` of its own -/
  isNested : Bool := false
  deriving DecidableEq, Repr

/-- The use stands in a function. -/
def Use.deferred (u : Use) : Use := { u with isDeferred := true }

/-- The use stands in a function with a `this` of its own. -/
def Use.nested (u : Use) : Use := { u with isDeferred := true, isNested := true }

/-- `.n`. -/
def isDotted : Key → Bool
  | .ident _ => true
  | _ => false

/-- What a name that is bound or assigned to refers to. Binding it refers to nothing. -/
def targetUse (binds : Bool) (locals : List String) (name : String) : List Use :=
  if binds then [] else [{ reference := .name name, locals }]

/-- The name of a function expression, which is visible inside. -/
def ownName : Option Ident → List String
  | some id => [id.name]
  | none => []

mutual

/-- The uses in an expression that stands in the scope of `locals`. -/
def exprUses (locals : List String) : Expr → List Use
  | .ident id => [{ reference := .name id.name, locals }]
  | .template _ _ es | .array _ es | .seq _ es | .importCall _ es => exprsUses locals es
  | .spread _ e | .unary _ _ e | .update _ _ _ e | .paren _ e | .await _ e | .typeAssertion _ _ e
  | .constAssertion _ e | .asType _ e _ | .satisfiesType _ e _ | .nonNull _ e
  | .instantiation _ e _ => exprUses locals e
  | .yield _ _ e => optionUses locals e
  | .object _ props => propertiesUses locals props
  | .func name f => (funcUses (ownName name ++ locals) f).map Use.nested
  | .arrow _ _ _ ps _ body =>
    (patsUses true (patsNames ps ++ locals) ps
      ++ stmtsUses (bodyNames body ++ (patsNames ps ++ locals)) body).map Use.deferred
  | .arrowExpr _ _ _ ps _ e =>
    (patsUses true (patsNames ps ++ locals) ps
      ++ exprUses (patsNames ps ++ locals) e).map Use.deferred
  | .binary _ _ l r => exprUses locals l ++ exprUses locals r
  | .assign _ _ target value => targetUses locals target ++ exprUses locals value
  | .cond _ test yes no => exprUses locals test ++ (exprUses locals yes ++ exprUses locals no)
  | .member span obj key =>
    match isThis obj, isTemplateRefs obj, accessName? key with
    | true, _, some name => [{ reference := .self name span (isDotted key), locals }]
    | true, _, none => []
    | false, true, some name => [{ reference := .templateRef name, locals }]
    | false, _, _ => exprUses locals obj ++ keyUses locals key
  | .chainMember _ _ obj key => exprUses locals obj ++ keyUses locals key
  | .call _ callee _ args | .new _ callee args | .chainCall _ _ callee _ args =>
    exprUses locals callee ++ exprsUses locals args
  | .this _ | .string _ | .number _ _ | .bigint _ _ | .bool _ _ | .null _ | .regex _ _ _
  | .taggedTemplate _ _ _ _ | .hole | .classExpr _ _ | .superMember _ _ | .superCall _ _ _ _
  | .metaProperty _ _ | .privateName _ | .jsx _ _ => []

/-- The uses in expressions. -/
def exprsUses (locals : List String) : List Expr → List Use
  | [] => []
  | e :: es => exprUses locals e ++ exprsUses locals es

/-- The uses in the name of a property. -/
def keyUses (locals : List String) : Key → List Use
  | .computed _ e => exprUses locals e
  | .ident _ | .string _ | .number _ _ | .bigint _ _ | .privateName _ => []

/-- The uses in a property. -/
def propertyUses (locals : List String) : Property → List Use
  | .spread _ e => exprUses locals e
  | .shorthand id => [{ reference := .name id.name, locals }]
  | .keyValue key value => keyUses locals key ++ exprUses locals value
  | .initialized id value => { reference := .name id.name, locals } :: exprUses locals value
  | .getter _ key _ body =>
    keyUses locals key ++ (stmtsUses (bodyNames body ++ locals) body).map Use.deferred
  | .setter _ key param body =>
    keyUses locals key ++ (patUses true (patNames param ++ locals) param
      ++ stmtsUses (bodyNames body ++ (patNames param ++ locals)) body).map Use.deferred
  | .method _ key f => keyUses locals key ++ (funcUses locals f).map Use.deferred

/-- The uses in properties. -/
def propertiesUses (locals : List String) : List Property → List Use
  | [] => []
  | p :: ps => propertyUses locals p ++ propertiesUses locals ps

/-- The uses in a function. Its body does not show in its parameters. -/
def funcUses (locals : List String) : Func → List Use
  | .mk _ _ _ _ ps _ _ body =>
    patsUses true (patsNames ps ++ locals) ps
      ++ stmtsUses (bodyNames body ++ (patsNames ps ++ locals)) body

/-- The uses in a pattern that binds names or assigns to them. -/
def patUses (binds : Bool) (locals : List String) : Pat → List Use
  | .hole => []
  | .ident id _ _ => targetUse binds locals id.name
  | .array _ es _ => patsUses binds locals es
  | .object _ ps _ => patPropertiesUses binds locals ps
  | .rest _ arg _ => patUses binds locals arg
  | .withDefault _ left right => patUses binds locals left ++ exprUses locals right
  | .expr e => exprUses locals e

/-- The uses in the target of an assignment. -/
def targetUses (locals : List String) : Pat → List Use
  | .ident id _ _ => targetUse false locals id.name
  | .array _ es _ => patsUses false locals es
  | .object _ ps _ => patPropertiesUses false locals ps
  | .expr (.paren _ inner) => exprUses locals inner
  | .expr e => if isWritableTarget e then exprUses locals e else []
  | .hole | .rest _ _ _ | .withDefault _ _ _ => []

/-- The uses in patterns. -/
def patsUses (binds : Bool) (locals : List String) : List Pat → List Use
  | [] => []
  | p :: ps => patUses binds locals p ++ patsUses binds locals ps

/-- The uses in a property of an object pattern. -/
def patPropertyUses (binds : Bool) (locals : List String) : PatProperty → List Use
  | .keyValue key value => keyUses locals key ++ patUses binds locals value
  | .shorthand _ id none => targetUse binds locals id.name
  | .shorthand _ id (some e) => targetUse binds locals id.name ++ exprUses locals e
  | .rest _ arg => patUses binds locals arg

/-- The uses in the properties of an object pattern. -/
def patPropertiesUses (binds : Bool) (locals : List String) : List PatProperty → List Use
  | [] => []
  | p :: ps => patPropertyUses binds locals p ++ patPropertiesUses binds locals ps

/-- The uses in a statement. -/
def stmtUses (locals : List String) : Stmt → List Use
  | .block _ body => stmtsUses (lexicalNames body ++ locals) body
  | .return _ e => optionUses locals e
  | .throw _ e | .expr _ e => exprUses locals e
  | .labeled _ _ body => stmtUses locals body
  | .ifThen _ test body | .while _ test body => exprUses locals test ++ stmtUses locals body
  | .doWhile _ body test => stmtUses locals body ++ exprUses locals test
  | .ifElse _ test yes no => exprUses locals test ++ (stmtUses locals yes ++ stmtUses locals no)
  | .switch _ subject cases =>
    exprUses locals subject ++ casesUses (caseNames cases ++ locals) cases
  | .tryCatch _ body param handler =>
    stmtsUses (lexicalNames body ++ locals) body
      ++ (catchUses (catchNames param ++ locals) param
      ++ stmtsUses (lexicalNames handler ++ (catchNames param ++ locals)) handler)
  | .tryFinally _ body finalizer =>
    stmtsUses (lexicalNames body ++ locals) body
      ++ stmtsUses (lexicalNames finalizer ++ locals) finalizer
  | .tryCatchFinally _ body param handler finalizer =>
    stmtsUses (lexicalNames body ++ locals) body
      ++ (catchUses (catchNames param ++ locals) param
      ++ (stmtsUses (lexicalNames handler ++ (catchNames param ++ locals)) handler
      ++ stmtsUses (lexicalNames finalizer ++ locals) finalizer))
  | .for _ init test update body =>
    headUses (headNames init ++ locals) init
      ++ (optionUses (headNames init ++ locals) test
      ++ (optionUses (headNames init ++ locals) update
      ++ stmtUses (headNames init ++ locals) body))
  | .forIn _ left right body | .forOf _ _ left right body =>
    headUses (headNames left ++ locals) left
      ++ (exprUses (headNames left ++ locals) right ++ stmtUses (headNames left ++ locals) body)
  | .varDecl _ _ _ ds => patsUses true locals ds
  | .funcDecl _ f => (funcUses locals f).map Use.nested
  | .empty _ | .debugger _ | .break _ _ | .continue _ _ | .withObject _ _ _ | .classDecl _ _
  | .usingDecl _ _ | .typeDecl _ _ _ => []

/-- The uses in statements. -/
def stmtsUses (locals : List String) : List Stmt → List Use
  | [] => []
  | stmt :: rest => stmtUses locals stmt ++ stmtsUses locals rest

/-- The uses in an expression, when there is one. -/
def optionUses (locals : List String) : Option Expr → List Use
  | none => []
  | some e => exprUses locals e

/-- The uses in what a `catch` binds. -/
def catchUses (locals : List String) : Option Pat → List Use
  | none => []
  | some p => patUses true locals p

/-- The uses in the cases of a `switch`. -/
def casesUses (locals : List String) : List Case → List Use
  | [] => []
  | .mk test body :: rest =>
    optionUses locals test ++ (stmtsUses locals body ++ casesUses locals rest)

/-- The uses in the head of a loop. -/
def headUses (locals : List String) : ForHead → List Use
  | .none | .usingDecl _ _ => []
  | .varDecl _ _ ds => patsUses true locals ds
  | .pat p => patUses false locals p

end

/-! ## Resolving keeps declared names -/

theorem names_append {ms ms' ns ns' : List String} (hms : ms' = ms) (hns : ns' = ns) :
    ms' ++ ns' = ms ++ ns := by
  rw [hms, hns]

mutual

theorem patNames_resolve (state : List String) : ∀ p : Pat,
    patNames (resolvePat state p) = patNames p
  | .array _ es _ => patsNames_resolve state es
  | .object _ ps _ => patPropertiesNames_resolve state ps
  | .rest _ arg _ => patNames_resolve state arg
  | .withDefault _ left _ => patNames_resolve state left
  | .ident _ _ _ | .hole | .expr _ => rfl

theorem patsNames_resolve (state : List String) : ∀ ps : List Pat,
    patsNames (resolvePats state ps) = patsNames ps
  | [] => rfl
  | p :: ps => names_append (patNames_resolve state p) (patsNames_resolve state ps)

theorem patPropertyNames_resolve (state : List String) : ∀ p : PatProperty,
    patPropertyNames (resolvePatProperty state p) = patPropertyNames p
  | .keyValue _ value => patNames_resolve state value
  | .rest _ arg => patNames_resolve state arg
  | .shorthand _ _ _ => rfl

theorem patPropertiesNames_resolve (state : List String) : ∀ ps : List PatProperty,
    patPropertiesNames (resolvePatProperties state ps) = patPropertiesNames ps
  | [] => rfl
  | p :: ps =>
    names_append (patPropertyNames_resolve state p) (patPropertiesNames_resolve state ps)

end

theorem catchNames_resolve (state : List String) (param : Option Pat) :
    catchNames (resolveParam state param) = catchNames param := by
  cases param with
  | none => rfl
  | some p => exact patNames_resolve state p

theorem headNames_resolve (state : List String) (head : ForHead) :
    headNames (resolveHead state head) = headNames head := by
  cases head with
  | varDecl span kind ds =>
    exact congrArg (if kind = .var then [] else ·) (patsNames_resolve state ds)
  | _ => rfl

theorem headVarNames_resolve (state : List String) (head : ForHead) :
    headVarNames (resolveHead state head) = headVarNames head := by
  cases head with
  | varDecl span kind ds =>
    exact congrArg (if kind = .var then · else []) (patsNames_resolve state ds)
  | _ => rfl

theorem blockNames_resolve (state : List String) (stmt : Stmt) :
    blockNames (resolveStmt state stmt) = blockNames stmt := by
  cases stmt with
  | varDecl span isDeclare kind ds =>
    exact congrArg (if kind = .var then [] else ·) (patsNames_resolve state ds)
  | labeled span label body => exact blockNames_resolve state body
  | _ => rfl

mutual

theorem varNames_resolve (state : List String) : ∀ stmt : Stmt,
    varNames (resolveStmt state stmt) = varNames stmt
  | .varDecl _ _ kind ds => congrArg (if kind = .var then · else []) (patsNames_resolve state ds)
  | .block _ body => varsNames_resolve state body
  | .labeled _ _ body | .ifThen _ _ body | .while _ _ body | .doWhile _ body _ =>
    varNames_resolve state body
  | .ifElse _ _ yes no => names_append (varNames_resolve state yes) (varNames_resolve state no)
  | .switch _ _ cases => caseVarNames_resolve state cases
  | .tryCatch _ body _ handler | .tryFinally _ body handler =>
    names_append (varsNames_resolve state body) (varsNames_resolve state handler)
  | .tryCatchFinally _ body _ handler finalizer =>
    names_append (names_append (varsNames_resolve state body) (varsNames_resolve state handler))
      (varsNames_resolve state finalizer)
  | .for _ head _ _ body | .forIn _ head _ body | .forOf _ _ head _ body =>
    names_append (headVarNames_resolve state head) (varNames_resolve state body)
  | .return _ _ | .empty _ | .debugger _ | .break _ _ | .continue _ _ | .throw _ _ | .expr _ _
  | .withObject _ _ _ | .funcDecl _ _ | .classDecl _ _ | .usingDecl _ _ | .typeDecl _ _ _ => rfl

theorem varsNames_resolve (state : List String) : ∀ body : List Stmt,
    varsNames (resolveStmts state body) = varsNames body
  | [] => rfl
  | stmt :: rest => names_append (varNames_resolve state stmt) (varsNames_resolve state rest)

theorem caseVarNames_resolve (state : List String) : ∀ cases : List Case,
    caseVarNames (resolveCases state cases) = caseVarNames cases
  | [] => rfl
  | .mk _ body :: rest =>
    names_append (varsNames_resolve state body) (caseVarNames_resolve state rest)

end

theorem lexicalNames_resolve (state : List String) : ∀ body : List Stmt,
    lexicalNames (resolveStmts state body) = lexicalNames body
  | [] => rfl
  | stmt :: rest => names_append (blockNames_resolve state stmt) (lexicalNames_resolve state rest)

theorem caseNames_resolve (state : List String) : ∀ cases : List Case,
    caseNames (resolveCases state cases) = caseNames cases
  | [] => rfl
  | .mk _ body :: rest =>
    names_append (lexicalNames_resolve state body) (caseNames_resolve state rest)

theorem bodyNames_resolve (state : List String) (body : List Stmt) :
    bodyNames (resolveStmts state body) = bodyNames body :=
  names_append (varsNames_resolve state body) (lexicalNames_resolve state body)

/-! ## Resolving keeps scopes -/

/-- The name that a reference means. -/
def Reference.target : Reference → String
  | name n | self n _ _ | templateRef n => n

/-- The use of that name in the same place. -/
def Use.resolve (u : Use) : Use := { u with reference := .name u.reference.target }

theorem exprUses_member (locals : List String) (span : Span) (obj : Expr) (key : Key) :
    exprUses locals (.member span obj key) =
      match isThis obj, isTemplateRefs obj, accessName? key with
      | true, _, some name => [{ reference := .self name span (isDotted key), locals }]
      | true, _, none => []
      | false, true, some name => [{ reference := .templateRef name, locals }]
      | false, _, _ => exprUses locals obj ++ keyUses locals key := rfl

theorem exprUses_member_plain {locals : List String} {span : Span} {obj : Expr} {key : Key}
    (h : isPlainAccess obj key = true) :
    exprUses locals (.member span obj key) = exprUses locals obj ++ keyUses locals key := by
  rw [exprUses_member]
  cases hobj : isThis obj <;> cases hrefs : isTemplateRefs obj <;>
    cases hkey : accessName? key <;> simp_all [isPlainAccess]

theorem exprUses_selfBinding (locals state : List String) (id : Ident) :
    exprUses locals (selfBinding state id) = [{ reference := .name id.name, locals }] := by
  rw [selfBinding]
  split
  · rfl
  · rfl

/-- A target that is written refers to what the expression refers to. -/
theorem targetUses_of_writable {locals : List String} {e : Expr}
    (h : isWritableTarget e = true) : targetUses locals (.expr e) = exprUses locals e := by
  cases e with
  | member | chainMember | chainCall | asType | nonNull => rfl
  | _ => cases h

/-- What the target that an expression becomes refers to. -/
theorem targetUses_asTarget {locals state : List String} {e : Expr}
    (h : isWritableTarget e = true) :
    targetUses locals (asTarget (resolveExpr state e)) = exprUses locals (resolveExpr state e) := by
  cases e with
  | member span obj key =>
    rcases resolveExpr_member_shape state span obj key with ⟨id, h⟩ | ⟨span', obj', key', h⟩
    · rw [h]
      rfl
    · rw [h]
      rfl
  | chainMember | chainCall | asType | nonNull => rfl
  | _ => cases h

theorem targetUse_resolve (binds : Bool) (locals : List String) (name : String) :
    (targetUse binds locals name).map Use.resolve = targetUse binds locals name := by
  cases binds <;> rfl

end ScriptSetup.Setup
