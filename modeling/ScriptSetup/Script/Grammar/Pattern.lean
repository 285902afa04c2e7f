import ScriptSetup.Script.Grammar.Type

/-!
# Keys and patterns

Patterns that bind names are read as such. An assignment and the parameters of an arrow
function are first read as expressions, because only what follows says that they are patterns;
`Expr.toPattern?` then reads the expression as a pattern.
-/

set_option autoImplicit false

namespace ScriptSetup.Script

namespace Parse

/-! ## Keys -/

/-- The name of a property. -/
def propertyKey (g : Grammar) : Parse Key := do
  let span ← tokenSpan
  match ← token with
  | .string raw value =>
    advance
    return .string ⟨span, value, raw⟩
  | .number raw =>
    advance
    return .number span raw
  | .bigint raw =>
    advance
    return .bigint span raw
  | .word name _ =>
    advance
    return .ident ⟨name, span⟩
  | .punct "[" =>
    advance
    let e ← inBrackets g.assign
    expect "]"
    return .computed (← spanFrom span.start) e
  | _ => unexpected "property name"

/-! ## Binding patterns -/

/-- A pattern with the default that may follow it. -/
def bindingElement (g : Grammar) : Parse Pat := do
  let start ← here
  let pat ← g.binding
  if ← eat "=" then
    let value ← inBrackets g.assign
    return .withDefault (← spanFrom start) pat value
  else return pat

/-- An element of an array pattern, with the comma after it. -/
def arrayBindingElement (g : Grammar) : Parse (Option Pat) := do
  let start ← here
  if ← isPunct "]" then return none
  if ← eat "," then return some .hole
  if ← eat "..." then
    let arg ← g.binding
    let span ← spanFrom start
    unless ← isPunct "]" do
      report span (.misplaced "A rest element before others")
      expect ","
    return some (.rest span arg none)
  let pat ← bindingElement g
  unless ← isPunct "]" do expect ","
  return some pat

/-- A property of an object pattern. -/
def objectBindingProperty (g : Grammar) : Parse PatProperty := do
  let start ← here
  if ← eat "..." then
    let arg ← g.binding
    let span ← spanFrom start
    match arg with
    | .ident _ _ _ => return .rest span arg
    | _ => fault span (.misplaced "A pattern after ...")
  match ← propertyKey g with
  | .ident id =>
    if ← eat ":" then return .keyValue (.ident id) (← bindingElement g)
    let init ← if ← eat "=" then some <$> inBrackets g.assign else pure none
    return .shorthand (← spanFrom start) id init
  | key =>
    expect ":"
    return .keyValue key (← bindingElement g)

/-- A rest property of a pattern. -/
def isRestProperty : PatProperty → Bool
  | .rest _ _ => true
  | _ => false

/-- A pattern that binds names, without a type. -/
def bindingPattern (g : Grammar) : Parse Pat := do
  let start ← here
  match ← token with
  | .punct "[" =>
    advance
    let elems ← inBrackets (collect (arrayBindingElement g))
    expect "]"
    return .array (← spanFrom start) elems none
  | .punct "\x7b" =>
    advance
    let (props, trailing) ← inBrackets (commaList "\x7d" (objectBindingProperty g))
    let span ← spanFrom start
    if props.dropLast.any isRestProperty || (trailing && props.getLast?.any isRestProperty) then
      report span (.misplaced "A rest property before others")
    return .object span props none
  | _ => return .ident (← boundName) false none

end Parse

/-! ## Assignment targets -/

/-- A value can be assigned to the expression. -/
def Expr.isTarget : Expr → Bool
  | .ident id => !Parse.isRestrictedName id.name
  | .member _ obj _ =>
    match obj with
    | .member _ _ _ => obj.isTarget
    | .chainMember _ _ _ _ | .chainCall _ _ _ _ _ => false
    | _ => true
  | .superMember _ _ => true
  | .paren _ e | .nonNull _ e | .asType _ e _ | .satisfiesType _ e _ | .typeAssertion _ _ e
  | .instantiation _ e _ => e.isTarget
  | _ => false

/-- A literal other than a template. -/
def Expr.isLiteral : Expr → Bool
  | .string _ | .number _ _ | .bigint _ _ | .bool _ _ | .null _ | .regex _ _ _ => true
  | _ => false

/-- Typed code leaves it to its type checker to refuse these as targets: literals, results of
operators and, when `callOk`, calls, each possibly in parentheses. -/
def Expr.isLooseTarget (callOk : Bool) : Expr → Bool
  | .paren _ e => e.isLooseTarget callOk
  | .call _ _ _ _ | .superCall _ _ _ _ | .importCall _ _ => callOk
  | .binary _ _ _ _ => true
  | e => e.isLiteral

/-- An expression in parentheses. -/
def Expr.isParen : Expr → Bool
  | .paren _ _ => true
  | _ => false

/-! ## Expressions as patterns -/

/-- How an expression is read as a pattern. -/
structure PatternMode where
  /-- the pattern binds names; otherwise it assigns -/
  binds : Bool
  /-- where the literals start in which a comma follows the last spread -/
  openSpreads : List Nat

/-- What can stand as an element of an assignment pattern besides names and patterns. -/
def Expr.isTargetElement (e : Expr) : Bool :=
  match e with
  | .member _ _ _ | .superMember _ _ | .asType _ _ _ | .paren _ _ => e.isTarget
  | _ => false

mutual

/-- The pattern an expression is written as. -/
def Expr.toPattern? (m : PatternMode) : Expr → Option Pat
  | .ident id => if Parse.isRestrictedName id.name then none else some (.ident id false none)
  | .array span es =>
    if m.openSpreads.contains span.start then none
    else (elementPatterns? m es).map (.array span · none)
  | .object span ps =>
    if m.openSpreads.contains span.start then none
    else (propertyPatterns? m ps).map (.object span · none)
  | .assign span .assign target value =>
    match m.binds, target with
    | true, .expr _ => none
    | _, _ => some (.withDefault span target value)
  | e => if !m.binds && e.isTargetElement then some (.expr e) else none

/-- The element patterns of an array literal. Omitted elements at the end do not count, and a
spread comes last. -/
def elementPatterns? (m : PatternMode) : List Expr → Option (List Pat)
  | [] => some []
  | .spread span arg :: rest =>
    match rest, arg with
    | [], .assign _ _ _ _ => none
    | [], _ => (arg.toPattern? m).map fun p => [.rest span p none]
    | _ :: _, _ => none
  | .hole :: rest =>
    (elementPatterns? m rest).map fun ps => if ps.isEmpty then [] else .hole :: ps
  | e :: rest =>
    match e.toPattern? m, elementPatterns? m rest with
    | some p, some ps => some (p :: ps)
    | _, _ => none

/-- The property patterns of an object literal. A spread comes last. -/
def propertyPatterns? (m : PatternMode) : List Property → Option (List PatProperty)
  | [] => some []
  | .spread span arg :: rest =>
    match rest, arg.toPattern? m with
    | [], some (.ident id o t) => some [.rest span (.ident id o t)]
    | [], some p => if m.binds then none else some [.rest span p]
    | _, _ => none
  | .shorthand id :: rest =>
    (propertyPatterns? m rest).map (.shorthand id.span id none :: ·)
  | .keyValue key value :: rest =>
    match value.toPattern? m, propertyPatterns? m rest with
    | some p, some ps => some (.keyValue key p :: ps)
    | _, _ => none
  | .initialized id value :: rest =>
    (propertyPatterns? m rest).map
      (.shorthand ⟨id.span.start, value.span.stop⟩ id (some value) :: ·)
  | _ => none

end

namespace Parse

/-- The way to read expressions as patterns at this place. -/
def patternMode (binds : Bool) : Parse PatternMode := do
  return ⟨binds, (← get).openSpreads⟩

/-- Reads an expression as a pattern. -/
def asPattern (binds : Bool) (e : Expr) : Parse Pat := do
  match e.toPattern? (← patternMode binds) with
  | some p => return p
  | none => fault e.span .notAssignable

/-- The target of an assignment with this operator. -/
def assignTarget (op : AssignOp) (e : Expr) : Parse Pat := do
  match op, e with
  | .assign, .array _ _ | .assign, .object _ _ => asPattern false e
  | _, .ident id => if e.isTarget then return .ident id false none else fault id.span .notAssignable
  | _, _ =>
    if e.isTarget || (op == .assign && e.isParen && (← typed) && e.isLooseTarget false) then
      return .expr e
    else fault e.span .notAssignable

/-- Checks the operand of `++` and `--`. -/
def checkUpdateTarget (e : Expr) : Parse Unit := do
  unless e.isTarget || ((← typed) && e.isLooseTarget true) do report e.span .notAssignable

end Parse

end ScriptSetup.Script
