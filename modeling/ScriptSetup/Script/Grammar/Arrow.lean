import ScriptSetup.Script.Grammar.Literal

/-!
# Parentheses and arrow functions

What stands in parentheses is read once, as expressions that may carry a type. What follows
the closing parenthesis then says whether these were the parameters of an arrow function.
-/

set_option autoImplicit false

namespace ScriptSetup.Script

/-- Something between parentheses: an expression, or what can only be a parameter. -/
inductive ParenItem where
  | expr (e : Expr)
  | param (p : Pat)

/-- An arrow function. -/
def Expr.isArrow : Expr → Bool
  | .arrow _ _ _ _ _ _ | .arrowExpr _ _ _ _ _ _ => true
  | _ => false

/-- The arrow function with other type parameters, and a text that starts with them. -/
def Expr.withTypeParams (tps : TypeText) : Expr → Option Expr
  | .arrow span isAsync _ ps r b =>
    some (.arrow ⟨tps.span.start, span.stop⟩ isAsync (some tps) ps r b)
  | .arrowExpr span isAsync _ ps r b =>
    some (.arrowExpr ⟨tps.span.start, span.stop⟩ isAsync (some tps) ps r b)
  | _ => none

namespace Parse

/-! ## Items -/

/-- The two branches of a conditional expression after its test, from `?` on. -/
def condBranches (g : Grammar) (start : Nat) (test : Expr) : Parse Expr := do
  expect "?"
  let yes ← withReader
    (fun ctx => { ctx with allowIn := true, inCond := true, colonFollows := true }) g.assign
  expect ":"
  let no ← withReader (fun ctx => { ctx with inCond := true, colonFollows := false }) g.assign
  return .cond (← spanFrom start) test yes no

/-- An assignment after its left side, when there is one. -/
def assignmentRest (g : Grammar) (start : Nat) (left : Expr) : Parse Expr := do
  match ← token with
  | .punct p =>
    match AssignOp.ofText? p with
    | some op =>
      let target ← assignTarget op left
      advance
      let value ← g.assign
      return .assign (← spanFrom start) op target value
    | none => return left
  | _ => return left

/-- The question mark says that a parameter is optional. -/
def isOptionalMark : Parse Bool := do
  if ← isPunct "?" then
    match ← nextToken with
    | .punct p => return [",", ":", ")", "="].contains p
    | _ => return false
  else return false

/-- A parameter whose pattern was read as an expression, from its type on. -/
def paramFromExpr (g : Grammar) (start : Nat) (e : Expr) (isOptional : Bool) : Parse Pat := do
  let (isRest, inner) :=
    match e with
    | .spread _ inner => (true, inner)
    | e => (false, e)
  let pat ← asPattern true inner
  match pat with
  | .withDefault _ _ _ => fault e.span .notAssignable
  | _ => pure ()
  let type ← typeAnn? g
  if isRest then
    let span ← spanFrom start
    if ← isPunct "=" then unexpected ","
    return .rest span pat type
  let pat ← typedPattern start pat isOptional type
  if ← eat "=" then
    let value ← g.assign
    return .withDefault (← spanFrom start) pat value
  else return pat

/-- Reads an item in typed code that starts with a name. A question mark after it may belong to
a parameter, so it is not read as the start of a condition before that is known. -/
def namedParenItem (g : Grammar) (start : Nat) : Parse Expr := do
  if ← eat "..." then
    let e ← g.binary
    return .spread (← spanFrom start) e
  let e ← g.binary
  if e.isArrow then return e else assignmentRest g start e

/-- An item between parentheses. -/
def parenItem (g : Grammar) : Parse ParenItem := do
  let start ← here
  withReader (fun ctx => { ctx with arrowAt := some start }) do
    let modified ← eatParamModifier
    if modified then report (← tokenSpan) (.misplaced "A parameter property")
    if !(← typed) then return .expr (← spreadable g)
    let startsWithName ←
      if ← isName then pure true
      else if ← isPunct "..." then canBeName (← nextToken) else pure false
    let e ← if startsWithName then namedParenItem g start else spreadable g
    let isOptional ← isOptionalMark
    if isOptional then
      match e with
      | .ident _ => advance
      | _ => fault e.span .notAssignable
    let e ←
      if !isOptional && (← isPunct "?") && !isSpread e then condBranches g start e else pure e
    if isOptional || (← isPunct ":") then
      return .param (← paramFromExpr g start e isOptional)
    return .expr e

/-! ## Arrow functions -/

/-- The items as parameters. A rest comes last and no comma follows it. -/
def paramsOfItems (start : Nat) (items : List ParenItem) (trailing : Bool) : Parse (List Pat) := do
  let pats ← items.mapM fun
    | .param p => pure p
    | .expr (.spread span e) => do
      match ← asPattern true e with
      | .withDefault _ _ _ => fault span .notAssignable
      | p => return .rest span p none
    | .expr e => asPattern true e
  if pats.dropLast.any Pat.isRest || (trailing && pats.getLast?.any Pat.isRest) then
    fault (← spanFrom start) (.misplaced "A rest parameter before others")
  return pats

/-- The body of an arrow function after `=>`. A body that is an expression stands in the
context of the arrow function itself. -/
def arrowBody (g : Grammar) (start : Nat) (isAsync : Bool) (tps : Option TypeText)
    (ps : List Pat) (result : Option TypeText) : Parse Expr := do
  let kind : FuncKind := { isAsync, isArrow := true }
  if ← isPunct "\x7b" then
    let body ← functionBlock g kind (ps.all Pat.isPlainParam)
    return .arrow (← spanFrom start) isAsync tps ps result body
  else
    let body ← withReader
      (fun ctx => { ctx.enter kind with
        allowIn := ctx.allowIn, inCond := ctx.inCond, colonFollows := ctx.colonFollows }) g.assign
    return .arrowExpr (← spanFrom start) isAsync tps ps result body

/-- The arrow of an arrow function, on the line of its parameters. -/
def arrowMark : Parse Unit := do
  if ← newlineBefore then fault (← tokenSpan) (.misplaced "A line end before =>")
  expect "=>"

/-- An object with a property `a = e`, which only a pattern can have. -/
def hasInitializedProperty : ParenItem → Bool
  | .expr (.object _ ps) => ps.any fun
    | .initialized _ _ => true
    | _ => false
  | _ => false

/-- The items as expressions. -/
def exprsOfItems (items : List ParenItem) : Parse (List Expr) :=
  items.mapM fun
    | .expr e => pure e
    | .param p => fault p.span .notAssignable

/-- What follows the closing parenthesis when the items are parameters of an arrow function in
a conditional expression: there the colon may belong to either. -/
def arrowInCond? (g : Grammar) (start exprStart : Nat) (isAsync : Bool) (items : List ParenItem)
    (trailing : Bool) : Parse (Option Expr) := do
  let ctx ← read
  if (← typed) && ctx.inCond && (← isPunct ":") then
    attempt do
      let result ← returnTypeAfter g ":"
      expect "=>"
      let ps ← paramsOfItems start items trailing
      let e ← arrowBody g exprStart isAsync none ps (some result)
      if ctx.colonFollows && !(← isPunct ":") then return none else return some e
  else return none

/-- The type between parentheses and arrow, where no colon can mean anything else. -/
def arrowType? (g : Grammar) : Parse (Option TypeText) := do
  if (← typed) && !(← read).colonFollows && (← isPunct ":") then
    attempt do
      let result ← returnTypeAfter g ":"
      if ← isPunct "=>" then return some result else return none
  else return none

/-- What stands in parentheses when it is not the head of an arrow function. -/
def parenthesized (start : Nat) (items : List ParenItem) (trailing : Bool) : Parse Expr := do
  let span ← spanFrom start
  let es ← exprsOfItems items
  if trailing || es.isEmpty || es.any isSpread then
    fault span (.misplaced "This in parentheses")
  match es with
  | [e] => return .paren span e
  | es =>
    let inner : Span :=
      ⟨(es.head?.map (·.span.start)).getD start, (es.getLast?.map (·.span.stop)).getD start⟩
    return .paren span (.seq inner es)

/-- Parentheses, an arrow function or, after `async`, a call. `exprStart` is where `async` or
the parenthesis stands. -/
def parenOrArrow (g : Grammar) (async : Option Ident) : Parse Expr := do
  let start ← here
  let exprStart := (async.map (·.span.start)).getD start
  let canBeArrow := (← read).arrowAt == some exprStart
  expect "("
  let (items, trailing) ← inBrackets (commaList ")" (parenItem g))
  if let some e ← arrowInCond? g start exprStart async.isSome items trailing then return e
  let result ← arrowType? g
  let hasParam := items.any fun
    | .param _ => true
    | .expr _ => false
  if hasParam || result.isSome || (← isPunct "=>") then
    if !canBeArrow then unexpected ";"
    arrowMark
    let ps ← paramsOfItems start items trailing
    return ← arrowBody g exprStart async.isSome none ps result
  if items.any hasInitializedProperty then
    fault (← spanFrom start) (.misplaced "An initialized property")
  match async with
  | some id =>
    let es ← exprsOfItems items
    return .call (← spanFrom exprStart) (.ident id) none es
  | none => parenthesized start items trailing

/-- `async<T>(…) => …`, from `async` on. -/
def genericAsyncArrow? (g : Grammar) : Parse (Option Expr) :=
  attempt do
    let start ← here
    expectWord "async"
    let tps ← typeParams g
    expect "("
    let ps ← withReader (·.enter { isAsync := true, isArrow := true })
      (params g { isAsync := true, isArrow := true })
    let result ← returnType? g
    arrowMark
    return some (← arrowBody g start true (some tps) (ps.map (·.2)) result)

end Parse

end ScriptSetup.Script
