import ScriptSetup.Proofs.Setup.Bindings

/-!
# Self accesses that are written

The uses `this.n` and `this['n']` of a piece of code are the accesses that are written as the name
`n`. An access is plain when it has a dot and stands in no function with a `this` of its own: these
are the accesses that are found when a component is searched for names that it does not declare.
-/

set_option autoImplicit false

namespace ScriptSetup.Setup

open Script Component Written

/-! ## Accesses among uses -/

/-- An access `this.n` or `this['n']` that is written as `n`. -/
structure Access where
  name : String
  span : Span
  /-- it has a dot, and `this` is that of the component -/
  isPlain : Bool
  /-- it stands in a function, and so is not made when the code around the function runs -/
  isDeferred : Bool
  deriving DecidableEq, Repr

/-- The access as it is found in a search. -/
def Access.ident (a : Access) : Ident := ⟨a.name, a.span⟩

/-- The access that is written as a name. -/
def Use.access? (u : Use) : Option Access :=
  match u.reference with
  | .self name span isDotted => some ⟨name, span, isDotted && !u.isNested, u.isDeferred⟩
  | .name _ | .templateRef _ => none

/-- The accesses among uses. -/
def accessesOf (uses : List Use) : List Access :=
  uses.filterMap Use.access?

/-- The names of the self references among uses. -/
def selfNamesOf (uses : List Use) : List String :=
  uses.filterMap Use.selfName?

/-- The accesses are the self references. -/
theorem accessesOf_names (uses : List Use) :
    (accessesOf uses).map (·.name) = selfNamesOf uses := by
  rw [accessesOf, selfNamesOf, List.map_filterMap]
  refine congrArg (List.filterMap · uses) (funext fun u => ?_)
  rw [Use.access?, Use.selfName?]
  cases u.reference <;> rfl

/-! ## A search finds plain accesses -/

/-- The plain accesses among the uses were found. -/
def Found (us : List Use) (ids : List Ident) : Prop :=
  ∀ u ∈ us, ∀ name span, u.reference = .self name span true → u.isNested = false →
    ⟨name, span⟩ ∈ ids

theorem Found.of_access? {us : List Use} {ids : List Ident} (h : Found us ids) {a : Access}
    (ha : a ∈ accessesOf us) (hplain : a.isPlain = true) : a.ident ∈ ids := by
  obtain ⟨u, hu, ha⟩ := List.mem_filterMap.1 ha
  rw [Use.access?] at ha
  split at ha
  · rename_i hreference
    cases ha
    obtain ⟨rfl, hnested⟩ := (Bool.and_eq_true _ _).mp hplain
    exact h u hu _ _ hreference (by simpa using hnested)
  all_goals cases ha

namespace Found

variable {us vs ws : List Use} {ids ids' ids'' more : List Ident}

theorem nil (ids : List Ident) : Found [] ids := fun _ => nofun

theorem other {reference : Reference} {locals : List String}
    (h : ∀ name span, reference ≠ .self name span true) : Found [{ reference, locals }] ids := by
  intro u hu name span href
  cases List.mem_singleton.1 hu
  exact (h name span href).elim

theorem target {binds : Bool} {locals : List String} {name : String} :
    Found (targetUse binds locals name) ids := by
  cases binds with
  | true => exact .nil ids
  | false => exact .other nofun

theorem mono (h : Found us ids) (hids : ids ⊆ ids') : Found us ids' :=
  fun u hu name span href hown => hids (h u hu name span href hown)

theorem left (h : Found us ids) : Found us (ids ++ more) :=
  h.mono (List.subset_append_left ids more)

theorem right (h : Found us ids) : Found us (more ++ ids) :=
  h.mono (List.subset_append_right more ids)

theorem both (hus : Found us ids) (hvs : Found vs ids) : Found (us ++ vs) ids := by
  intro u hu
  rcases List.mem_append.1 hu with hu | hu
  · exact hus u hu
  · exact hvs u hu

theorem append (hus : Found us ids) (hvs : Found vs ids') : Found (us ++ vs) (ids ++ ids') :=
  hus.left.both hvs.right

theorem three (hus : Found us ids) (hvs : Found vs ids') (hws : Found ws ids'') :
    Found (us ++ (vs ++ ws)) (ids ++ ids' ++ ids'') :=
  hus.left.left.both (hvs.right.left.both hws.right)

/-- No access of a function with a `this` of its own is plain. -/
theorem nested : Found (us.map Use.nested) ids := by
  intro u hu name span href hown
  obtain ⟨u, -, rfl⟩ := List.mem_map.1 hu
  cases hown

theorem deferred (h : Found us ids) : Found (us.map Use.deferred) ids := by
  intro u hu
  obtain ⟨v, hv, rfl⟩ := List.mem_map.1 hu
  exact h v hv

end Found

theorem found_member {locals : List String} {span : Span} {obj : Expr} {key : Key}
    (hobj : Found (exprUses locals obj) obj.selfNames)
    (hkey : Found (keyUses locals key) key.selfNames) :
    Found (exprUses locals (.member span obj key)) (Expr.member span obj key).selfNames := by
  rw [exprUses_member]
  have hself : Found (exprUses locals obj) (selfAccess span obj key ++ obj.selfNames) := hobj.right
  have hparts : Found (exprUses locals obj ++ keyUses locals key)
      (Expr.member span obj key).selfNames := hself.append hkey
  cases hthis : isThis obj with
  | true =>
    cases hname : accessName? key with
    | none => exact .nil _
    | some name =>
      intro u hu n place href hown
      cases List.mem_singleton.1 hu
      cases obj with
      | this thisSpan =>
        cases key with
        | ident id =>
          cases hname
          cases href
          exact List.mem_append_left _ (List.mem_append_left _ (List.mem_singleton.2 rfl))
        | _ => cases href
      | _ => cases hthis
  | false =>
    cases isTemplateRefs obj with
    | true =>
      cases accessName? key with
      | none => exact hparts
      | some name => exact .other nofun
    | false => exact hparts

mutual

/-- The plain accesses of an expression are found in it. -/
theorem expr_found {locals : List String} : ∀ e : Expr,
    Found (exprUses locals e) e.selfNames
  | .template _ _ es | .array _ es | .seq _ es | .importCall _ es => exprs_found es
  | .spread _ e | .unary _ _ e | .update _ _ _ e | .paren _ e | .await _ e
  | .constAssertion _ e | .nonNull _ e => expr_found e
  | .yield _ _ e => option_found e
  | .typeAssertion _ _ e | .asType _ e _ | .satisfiesType _ e _ | .instantiation _ e _ =>
    (expr_found e).left
  | .object _ props => properties_found props
  | .func _ _ => .nested
  | .arrow _ _ _ ps _ body => ((pats_found ps).append (stmts_found body)).left.left.deferred
  | .arrowExpr _ _ _ ps _ e => ((pats_found ps).append (expr_found e)).left.left.deferred
  | .binary _ _ l r => (expr_found l).append (expr_found r)
  | .assign _ _ target value => (target_found target).append (expr_found value)
  | .cond _ test yes no => (expr_found test).three (expr_found yes) (expr_found no)
  | .member _ obj key => found_member (expr_found obj) (key_found key)
  | .chainMember _ _ obj key => (expr_found obj).right.left.both (key_found key).right
  | .call _ callee _ args | .chainCall _ _ callee _ args =>
    ((expr_found callee).append (exprs_found args)).left
  | .new _ callee args => (expr_found callee).append (exprs_found args)
  | .ident _ => .other nofun
  | .this _ | .string _ | .number _ _ | .bigint _ _ | .bool _ _ | .null _
  | .regex _ _ _ | .taggedTemplate _ _ _ _ | .hole | .classExpr _ _ | .superMember _ _
  | .superCall _ _ _ _ | .metaProperty _ _ | .privateName _ | .jsx _ _ => .nil _

theorem exprs_found {locals : List String} : ∀ es : List Expr,
    Found (exprsUses locals es) (exprsSelfNames es)
  | [] => .nil _
  | e :: es => (expr_found e).append (exprs_found es)

theorem key_found {locals : List String} : ∀ key : Key,
    Found (keyUses locals key) key.selfNames
  | .computed _ e => expr_found e
  | .ident _ | .string _ | .number _ _ | .bigint _ _ | .privateName _ => .nil _

theorem property_found {locals : List String} : ∀ p : Property,
    Found (propertyUses locals p) p.selfNames
  | .spread _ e => expr_found e
  | .shorthand _ => .other nofun
  | .keyValue key value => (key_found key).append (expr_found value)
  | .initialized id value => .both (@Found.target _ false locals id.name) (expr_found value)
  | .getter _ key _ body => (key_found key).left.left.both (stmts_found body).right.deferred
  | .setter _ key param body =>
    (key_found key).left.left.both
      ((pat_found param).right.left.both (stmts_found body).right).deferred
  | .method _ key f => (key_found key).append (func_found f).deferred

theorem properties_found {locals : List String} : ∀ ps : List Property,
    Found (propertiesUses locals ps) (propertiesSelfNames ps)
  | [] => .nil _
  | p :: ps => (property_found p).append (properties_found ps)

theorem func_found {locals : List String} : ∀ f : Func,
    Found (funcUses locals f) f.selfNames
  | .mk _ _ _ _ ps _ _ body =>
    ((pats_found ps).append (stmts_found body)).left.left

theorem pat_found {binds : Bool} {locals : List String} : ∀ p : Pat,
    Found (patUses binds locals p) p.selfNames
  | .hole => .nil _
  | .ident _ _ _ => .target
  | .array _ es _ => (pats_found es).left
  | .object _ ps _ => (patProperties_found ps).left
  | .rest _ arg _ => (pat_found arg).left
  | .withDefault _ left right => (pat_found left).append (expr_found right)
  | .expr e => expr_found e

theorem target_found {locals : List String} : ∀ p : Pat,
    Found (targetUses locals p) p.selfNames
  | .ident _ _ _ => .other nofun
  | .hole | .rest _ _ _ | .withDefault _ _ _ => .nil _
  | .array _ es _ => (pats_found es).left
  | .object _ ps _ => (patProperties_found ps).left
  | .expr e => by
    cases e with
    | paren span inner => exact expr_found inner
    | member span obj key => exact expr_found (.member span obj key)
    | asType span inner t => exact expr_found (.asType span inner t)
    | nonNull span inner => exact expr_found (.nonNull span inner)
    | chainMember span isOptional obj key => exact expr_found (.chainMember span isOptional obj key)
    | chainCall span isOptional callee types args =>
      exact expr_found (.chainCall span isOptional callee types args)
    | _ => exact .nil _

theorem pats_found {binds : Bool} {locals : List String} : ∀ ps : List Pat,
    Found (patsUses binds locals ps) (patsSelfNames ps)
  | [] => .nil _
  | p :: ps => (pat_found p).append (pats_found ps)

theorem patProperty_found {binds : Bool} {locals : List String} : ∀ p : PatProperty,
    Found (patPropertyUses binds locals p) p.selfNames
  | .keyValue key value => (key_found key).append (pat_found value)
  | .shorthand _ _ none => .target
  | .shorthand _ _ (some e) => .both .target (expr_found e)
  | .rest _ arg => pat_found arg

theorem patProperties_found {binds : Bool} {locals : List String} : ∀ ps : List PatProperty,
    Found (patPropertiesUses binds locals ps) (patPropertiesSelfNames ps)
  | [] => .nil _
  | p :: ps => (patProperty_found p).append (patProperties_found ps)

theorem stmt_found {locals : List String} : ∀ stmt : Stmt,
    Found (stmtUses locals stmt) stmt.selfNames
  | .block _ body => stmts_found body
  | .return _ e => option_found e
  | .throw _ e | .expr _ e => expr_found e
  | .labeled _ _ body => stmt_found body
  | .ifThen _ test body | .while _ test body => (expr_found test).append (stmt_found body)
  | .doWhile _ body test => (stmt_found body).right.both (expr_found test).left
  | .ifElse _ test yes no => (expr_found test).three (stmt_found yes) (stmt_found no)
  | .switch _ subject cases => (expr_found subject).append (cases_found cases)
  | .tryCatch _ body param handler =>
    (stmts_found body).three (param_found param) (stmts_found handler)
  | .tryFinally _ body finalizer => (stmts_found body).append (stmts_found finalizer)
  | .tryCatchFinally _ body param handler finalizer =>
    (stmts_found body).left.left.left.both
      ((param_found param).right.left.left.both
        ((stmts_found handler).right.left.both (stmts_found finalizer).right))
  | .for _ init test update body =>
    (head_found init).left.left.left.both
      ((option_found test).right.left.left.both
        ((option_found update).right.left.both (stmt_found body).right))
  | .forIn _ left right body | .forOf _ _ left right body =>
    (head_found left).three (expr_found right) (stmt_found body)
  | .varDecl _ _ _ ds => pats_found ds
  | .funcDecl _ _ => .nested
  | .empty _ | .debugger _ | .break _ _ | .continue _ _ | .withObject _ _ _ | .classDecl _ _
  | .usingDecl _ _ | .typeDecl _ _ _ => .nil _

theorem stmts_found {locals : List String} : ∀ body : List Stmt,
    Found (stmtsUses locals body) (stmtsSelfNames body)
  | [] => .nil _
  | stmt :: rest => (stmt_found stmt).append (stmts_found rest)

theorem option_found {locals : List String} : ∀ e : Option Expr,
    Found (optionUses locals e) (optionSelfNames e)
  | none => .nil _
  | some e => expr_found e

theorem param_found {locals : List String} : ∀ param : Option Pat,
    Found (catchUses locals param) (paramSelfNames param)
  | none => .nil _
  | some param => pat_found param

theorem cases_found {locals : List String} : ∀ cases : List Case,
    Found (casesUses locals cases) (casesSelfNames cases)
  | [] => .nil _
  | .mk test body :: rest => (option_found test).three (stmts_found body) (cases_found rest)

theorem head_found {locals : List String} : ∀ head : ForHead,
    Found (headUses locals head) head.selfNames
  | .none | .usingDecl _ _ => .nil _
  | .varDecl _ _ ds => pats_found ds
  | .pat p => pat_found p

end

end ScriptSetup.Setup
