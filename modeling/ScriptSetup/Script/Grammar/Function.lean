import ScriptSetup.Script.Grammar.Pattern
import ScriptSetup.Script.ModuleTree

/-!
# Functions

Parameters, bodies and what they share: a body opens a scope of its own, in which labels and
loops from outside do not count, and in which `await` and `yield` are words of the language or
not depending on the function.
-/

set_option autoImplicit false

namespace ScriptSetup.Script

/-- What a function is, beside its parameters and body. -/
structure FuncKind where
  isAsync : Bool := false
  isGenerator : Bool := false
  isArrow : Bool := false
  isConstructor : Bool := false

/-- The context inside a function. -/
def Context.enter (ctx : Context) (kind : FuncKind) : Context :=
  { ctx with
    allowIn := true, inFunction := true, ownThis := ctx.ownThis || !kind.isArrow,
    inAsync := kind.isAsync, inGenerator := kind.isGenerator,
    inField := ctx.inField && kind.isArrow, inCond := false, colonFollows := false,
    noConditionalType := false, inForHead := false, canBreak := false, canContinue := false,
    labels := [], arrowAt := none }

/-- A parameter that is a name without a default. -/
def Pat.isPlainParam : Pat → Bool
  | .ident _ _ _ => true
  | _ => false

/-- A parameter that takes what is left. -/
def Pat.isRest : Pat → Bool
  | .rest _ _ _ => true
  | _ => false

/-- A parameter with a default. -/
def Pat.hasDefault : Pat → Bool
  | .withDefault _ _ _ => true
  | _ => false

namespace Parse

/-! ## Decorators -/

/-- Decorators, when there are any. -/
def decorators (g : Grammar) : Parse (List Decorator) :=
  collect do
    if ← isPunct "@" then
      let start ← here
      advance
      let e ← g.decoration
      return some ⟨← spanFrom start, e⟩
    else return none

/-! ## Parameters -/

/-- Gives a pattern that starts at `start` and ends here its type. -/
def typedPattern (start : Nat) (pat : Pat) (isOptional : Bool) (type : Option TypeText) :
    Parse Pat := do
  let whole ← spanFrom start
  match pat with
  | .ident id _ _ => return .ident id isOptional type
  | .array span es _ => return .array (if type.isSome then whole else span) es type
  | .object span ps _ => return .object (if type.isSome then whole else span) ps type
  | p => return p

/-- A parameter that is not a rest, with its type and default. -/
def plainParam (g : Grammar) : Parse Pat := do
  let start ← here
  let pat ← g.binding
  let isOptional ← if ← typed then eat "?" else pure false
  let type ← typeAnn? g
  let pat ← typedPattern start pat isOptional type
  if ← eat "=" then
    if isOptional then report (← spanFrom start) (.misplaced "A default of an optional parameter")
    let value ← inBrackets g.assign
    return .withDefault (← spanFrom start) pat value
  else return pat

/-- A rest parameter after its dots. -/
def restParam (g : Grammar) (start : Nat) : Parse Pat := do
  let arg ← g.binding
  if ← isPunct "=" then fault (← tokenSpan) (.misplaced "A default of a rest parameter")
  let type ← typeAnn? g
  let span ← spanFrom start
  if (← typed) && (← isPunct "?") then fault (← tokenSpan) (.misplaced "An optional rest")
  return .rest span arg type

/-- Modifiers that turn a parameter of a constructor into a field. -/
def eatFieldModifiers : Parse Bool := do
  let found ← collect do
    if ← isWordIn ["public", "protected", "private", "override", "readonly"] then
      match ← nextToken with
      | .word _ _ | .punct "\x7b" | .punct "[" =>
        advance
        return some ()
      | _ => return none
    else return none
  return !found.isEmpty

/-- A parameter with its decorators. -/
def param (g : Grammar) (kind : FuncKind) : Parse (List Decorator × Pat) := do
  let decs ← decorators g
  let start ← here
  if ← eat "..." then return (decs, ← restParam g start)
  let modified ←
    if !(← typed) then pure false
    else if kind.isConstructor then eatFieldModifiers
    else eatParamModifier
  let pat ← plainParam g
  if modified then
    let span ← spanFrom start
    if !kind.isConstructor then report span (.misplaced "A parameter property")
    match pat with
    | .ident _ _ _ | .withDefault _ (.ident _ _ _) _ => return (decs, pat)
    | _ => fault span (.misplaced "A pattern as a parameter property")
  else return (decs, pat)

/-- A rest parameter comes last and no comma follows it. -/
def checkRest (start : Nat) (params : List Pat) (trailing : Bool) : Parse Unit := do
  if params.dropLast.any Pat.isRest || (trailing && params.getLast?.any Pat.isRest) then
    report (← spanFrom start) (.misplaced "A rest parameter before others")

/-- The parameters of a function after the opening parenthesis. -/
def params (g : Grammar) (kind : FuncKind) : Parse (List (List Decorator × Pat)) := do
  let start ← here
  let (ps, trailing) ← commaList ")" (param g kind)
  checkRest start (ps.map (·.2)) trailing
  return ps

/-! ## Bodies -/

/-- The statements between braces. -/
def blockBody (g : Grammar) : Parse (List Stmt) := do
  expect "\x7b"
  let body ← inBrackets <| collect do
    if ← isPunct "\x7d" then return none else return some (← g.stmt true)
  expect "\x7d"
  return body

/-- The statements before the first that is not a string. -/
def isStrictDirective : List Stmt → Bool
  | .expr _ (.string lit) :: rest =>
    lit.raw == "'use strict'" || lit.raw == "\"use strict\"" || isStrictDirective rest
  | _ => false

/-- The block of a function. Only a function with plain parameters may ask for strict code. -/
def functionBlock (g : Grammar) (kind : FuncKind) (isPlain : Bool) : Parse (List Stmt) := do
  let span ← tokenSpan
  let body ← withReader (·.enter kind) (blockBody g)
  if !isPlain && isStrictDirective body then report span (.misplaced "'use strict'")
  return body

/-- A function after its name, from its type parameters on. In typed code the body may be left
out, when the statement ends there. -/
def function (g : Grammar) (kind : FuncKind) (start : Nat) :
    Parse (Func × List (List Decorator)) := do
  let tps ← typeParams? g
  expect "("
  let ps ← withReader (·.enter kind) (params g kind)
  let result ← returnType? g
  let pats := ps.map (·.2)
  let bodyless ←
    if (← typed) && !(← isPunct "\x7b") then eatSemicolon else pure false
  if bodyless then
    let span ← spanFrom start
    if pats.any Pat.hasDefault then report span (.misplaced "A default in a signature")
    return (.mk span kind.isAsync kind.isGenerator tps pats result false [], ps.map (·.1))
  if (← read).inDeclare then report (← tokenSpan) (.misplaced "A body in a declaration")
  let body ← functionBlock g kind (pats.all Pat.isPlainParam)
  let span ← spanFrom start
  return (.mk span kind.isAsync kind.isGenerator tps pats result true body, ps.map (·.1))

/-- The head of a function: `async`, `function` and `*`. -/
def functionHead : Parse FuncKind := do
  let isAsync ← eatWord "async"
  expectWord "function"
  let isGenerator ← eat "*"
  return { isAsync, isGenerator }

/-- The declaration of a function, from `async` or `function` on. -/
def functionDecl (g : Grammar) : Parse Stmt := do
  let start ← here
  let kind ← functionHead
  let name ← boundName
  let (f, _) ← function g kind start
  return .funcDecl name f

/-- A function as an expression. -/
def functionExpr (g : Grammar) : Parse Expr := do
  let start ← here
  let kind ← functionHead
  let name ← if ← isPunctIn ["(", "<"] then pure none else some <$> boundName
  let (f, _) ← function g kind start
  unless f.hasBody do unexpected "\x7b"
  return .func name f

end Parse

end ScriptSetup.Script
