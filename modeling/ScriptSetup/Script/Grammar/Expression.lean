import ScriptSetup.Script.Grammar.Arrow
import ScriptSetup.Script.Grammar.Element

/-!
# Expressions

From the tightest to the loosest: primary expressions, what follows them (`.a`, `[e]`, calls),
operators before and after an operand, operators between operands, conditions, assignments,
commas. An arrow function is complete as soon as it is read: no operator applies to it.
-/

set_option autoImplicit false

namespace ScriptSetup.Script

/-- A link of an optional chain, possibly with `!` after it. -/
def Expr.isChain : Expr → Bool
  | .chainMember _ _ _ _ | .chainCall _ _ _ _ _ => true
  | .nonNull _ e => e.isChain
  | _ => false

/-- An operator that may not be mixed with `??` without parentheses. -/
def Expr.isBareLogical : Expr → Bool
  | .binary _ op _ _ => op == .logicalOr || op == .logicalAnd
  | _ => false

/-- `??` without parentheses. -/
def Expr.isBareNullish : Expr → Bool
  | .binary _ op _ _ => op == .nullish
  | _ => false

/-- An operand that `**` may not have on its left. -/
def Expr.isUnaryLike : Expr → Bool
  | .unary _ _ _ | .await _ _ => true
  | _ => false

/-- Something that `delete` can remove: an access, possibly in parentheses. -/
def Expr.isAccess : Expr → Bool
  | .member _ _ _ | .superMember _ _ | .chainMember _ _ _ _ => true
  | .paren _ e => e.isAccess
  | _ => false

namespace Parse

/-! ## What can follow -/

/-- Words that cannot start an expression. -/
def notExprWords : List String :=
  ["break", "case", "catch", "const", "continue", "debugger", "default", "do", "else", "enum",
    "export", "extends", "finally", "for", "if", "in", "instanceof", "return", "switch", "throw",
    "try", "var", "while", "with"]

/-- The token can start an expression. -/
def startsExpr : Token → Bool
  | .word w false => !notExprWords.contains w
  | .word _ true | .privateName _ | .number _ | .bigint _ | .string _ _ => true
  | .punct p =>
    ["(", "[", "\x7b", "`", "/", "/=", "+", "-", "~", "!", "++", "--", "<", "@"].contains p
  | .eof | .invalid _ => false

/-- The operator between two operands that the current token is. -/
def binaryOp? : Parse (Option BinaryOp) := do
  match ← token with
  | .punct p => return BinaryOp.ofText? p
  | .word "in" false => return if (← read).allowIn then some .inside else none
  | .word "instanceof" false => return some .instanceOf
  | _ => return none

/-- Type arguments just read are meant as such rather than as comparisons. -/
def typeArgsEndHere : Parse Bool := do
  if ← isPunctIn ["<", ">", "+", "-"] then return false
  if ← newlineBefore then return true
  if (← binaryOp?).isSome || (← isWordIn ["as", "satisfies"]) then return true
  return !startsExpr (← token)

/-! ## Links -/

/-- An access or call, as a link of the optional chain that `obj` is part of, if any. -/
def memberLink (start : Nat) (obj : Expr) (key : Key) : Parse Expr := do
  let span ← spanFrom start
  return if obj.isChain then .chainMember span false obj key else .member span obj key

/-- A call, as a link of the optional chain that `callee` is part of, if any. -/
def callLink (start : Nat) (callee : Expr) (types : Option TypeText) (args : List Expr) :
    Parse Expr := do
  let span ← spanFrom start
  return if callee.isChain then .chainCall span false callee types args
    else .call span callee types args

/-- The name after a dot. -/
def dotKey : Parse Key := do
  let span ← tokenSpan
  match ← token with
  | .privateName name =>
    advance
    return .privateName ⟨name, span⟩
  | _ => return .ident (← anyName)

/-- A name in brackets, brackets included. -/
def bracketKey (g : Grammar) : Parse Key := do
  let start ← here
  expect "["
  let e ← inBrackets g.expr
  expect "]"
  return .computed (← spanFrom start) e

/-- A template with a tag before it. -/
def taggedTemplate (g : Grammar) (start : Nat) (tag : Expr) (types : Option TypeText) :
    Parse Expr := do
  if tag.isChain then fault (← tokenSpan) (.misplaced "A template in an optional chain")
  let (_, exprs) ← templateParts true g.expr
  return .taggedTemplate (← spanFrom start) tag types exprs

/-- What follows `?.`. -/
def optionalLink (g : Grammar) (start : Nat) (obj : Expr) : Parse Expr := do
  match ← token with
  | .punct "[" =>
    let key ← bracketKey g
    return .chainMember (← spanFrom start) true obj key
  | .punct "(" =>
    let args ← arguments g
    return .chainCall (← spanFrom start) true obj none args
  | .punct "`" => fault (← tokenSpan) (.misplaced "A template in an optional chain")
  | _ =>
    if (← typed) && (← isAngle) then
      let types ← typeArgs g
      let args ← arguments g
      return .chainCall (← spanFrom start) true obj (some types) args
    let key ← dotKey
    return .chainMember (← spanFrom start) true obj key

/-- Type arguments after an expression: a call, a tagged template or the expression at these
types. -/
def typeArgsLink? (g : Grammar) (noCall : Bool) (start : Nat) (e : Expr) : Parse (Option Expr) :=
  attempt do
    let types ← typeArgs g
    if !noCall && (← isPunct "(") then
      let args ← arguments g
      return some (← callLink start e (some types) args)
    if ← isPunct "`" then return some (← taggedTemplate g start e (some types))
    if ← typeArgsEndHere then return some (.instantiation (← spanFrom start) e types)
    return none

/-- One link after an expression, when there is one. -/
def link? (g : Grammar) (noCall noComputed : Bool) (start : Nat) (e : Expr) :
    Parse (Option Expr) := do
  match ← token with
  | .punct "?." =>
    if noCall then unexpected "("
    advance
    return some (← optionalLink g start e)
  | .punct "." =>
    advance
    return some (← memberLink start e (← dotKey))
  | .punct "[" =>
    if noComputed then return none
    let key ← bracketKey g
    return some (← memberLink start e key)
  | .punct "(" =>
    if noCall then return none
    let args ← arguments g
    return some (← callLink start e none args)
  | .punct "`" => return some (← taggedTemplate g start e none)
  | .punct "!" =>
    if !(← typed) || (← newlineBefore) then return none
    advance
    return some (.nonNull (← spanFrom start) e)
  | .punct "<" | .punct "<<" =>
    if ← typed then typeArgsLink? g noCall start e else return none
  | _ => return none

/-- The links after an expression. -/
def links (g : Grammar) (noCall noComputed : Bool) (start : Nat) (e : Expr) : Parse Expr :=
  iterate (link? g noCall noComputed start) e

/-! ## Primary expressions -/

/-- A class as an expression, from its decorators on. -/
def classExpr (g : Grammar) : Parse Expr := do
  let start ← here
  let _ ← decorators g
  let (name, c) ← classFrom g start
  return .classExpr name c.span

/-- A name, or an arrow function whose only parameter it is. -/
def nameOrArrow (g : Grammar) : Parse Expr := do
  let start ← here
  let canBeArrow := (← read).arrowAt == some start
  let id ← name
  if canBeArrow && id.name == "async" && !(← newlineBefore) && (← isName) then
    if (← read).inForHead && (← isWord "of") && (← nextToken) != .punct "=>" then
      unexpected "=>"
    let p ← boundName
    arrowMark
    arrowBody g start true none [.ident p false none] none
  else if canBeArrow && !(← newlineBefore) && (← isPunct "=>") then
    if isRestrictedName id.name then report id.span (.reserved id.name)
    advance
    arrowBody g start false none [.ident id false none] none
  else return .ident id

/-- `async` as the start of a function, or as a name. -/
def asyncExpr (g : Grammar) : Parse Expr := do
  let span ← tokenSpan
  let canBeArrow := (← read).arrowAt == some span.start
  match ← nextOnLine with
  | some (.word "function" false) => functionExpr g
  | some (.punct "(") =>
    if canBeArrow then
      advance
      parenOrArrow g (some ⟨"async", span⟩)
    else nameOrArrow g
  | some (.punct "<") =>
    if canBeArrow && (← typed) then
      match ← genericAsyncArrow? g with
      | some e => return e
      | none => nameOrArrow g
    else nameOrArrow g
  | _ => nameOrArrow g

/-- An expression that no operator or link is part of. -/
def primary (g : Grammar) : Parse Expr := do
  let span ← tokenSpan
  match ← token with
  | .word w false =>
    match w with
    | "this" =>
      advance
      return .this span
    | "null" =>
      advance
      return .null span
    | "true" =>
      advance
      return .bool span true
    | "false" =>
      advance
      return .bool span false
    | "function" => functionExpr g
    | "class" => classExpr g
    | "async" => asyncExpr g
    | _ => nameOrArrow g
  | .word _ true => nameOrArrow g
  | .privateName n =>
    advance
    return .privateName ⟨n, span⟩
  | .number raw =>
    advance
    return .number span raw
  | .bigint raw =>
    advance
    return .bigint span raw
  | .string raw value =>
    advance
    return .string ⟨span, value, raw⟩
  | .punct "(" => parenOrArrow g none
  | .punct "[" => arrayLit g
  | .punct "\x7b" => objectLit g
  | .punct "`" => templateLit g
  | .punct "/" | .punct "/=" => regexLit
  | .punct "@" => classExpr g
  | .punct "<" =>
    if (← read).tags then
      let e ← g.element
      closeAngle
      return e
    else unexpected "expression"
  | _ => unexpected "expression"

/-! ## `new`, `super` and `import` -/

/-- `super` with the access or call that has to follow it. -/
def superExpr (g : Grammar) (noCall : Bool) : Parse Expr := do
  let span ← tokenSpan
  expectWord "super"
  match ← token with
  | .punct "." =>
    advance
    let id ← anyName
    return .superMember (← spanFrom span.start) (.ident id)
  | .punct "[" =>
    let key ← bracketKey g
    return .superMember (← spanFrom span.start) key
  | .punct "(" =>
    if noCall then unexpected "."
    let args ← arguments g
    return .superCall (← spanFrom span.start) span none args
  | _ =>
    if (← typed) && (← isAngle) && !noCall then
      let types ← typeArgs g
      let args ← arguments g
      return .superCall (← spanFrom span.start) span (some types) args
    unexpected "( or ."

/-- `import.meta` or the import of a module at run time. -/
def importExpr (g : Grammar) (noCall : Bool) : Parse Expr := do
  let start ← here
  expectWord "import"
  if ← eat "." then
    expectWord "meta"
    return .metaProperty (← spanFrom start) .importMeta
  if noCall then unexpected "."
  let (args, trailing) ← argumentList g
  let span ← spanFrom start
  if args.isEmpty || (trailing && !(← typed)) then
    fault span (.malformed "arguments of import")
  return .importCall span args

/-- `new.target` after `new`. -/
def newTargetMeta (start : Nat) : Parse Expr := do
  expect "."
  expectWord "target"
  let span ← spanFrom start
  if !(← read).ownThis then report span (.misplaced "new.target")
  return .metaProperty span .newTarget

/-- The operand of `new`, with accesses but without a call. -/
def newOperand (g : Grammar) : Parse Expr := do
  let start ← here
  if ← isWord "new" then return ← g.newTarget
  let base ←
    if ← isWord "super" then superExpr g true
    else if ← isWord "import" then importExpr g true
    else withReader (fun ctx => { ctx with arrowAt := none }) (primary g)
  links g true false start base

/-- `new`, with whether it has arguments. Without them, nothing more can follow. -/
def newExpr (g : Grammar) : Parse (Expr × Bool) := do
  let start ← here
  expectWord "new"
  if ← isPunct "." then return (← newTargetMeta start, true)
  let operandStart ← here
  let callee ← newOperand g
  let types ←
    if (← typed) && (← isAngle) then
      attempt do
        let types ← typeArgs g
        if ← isPunct "(" then return some types else return none
    else pure none
  let callee ←
    match types with
    | some t => pure (.instantiation (← spanFrom operandStart) callee t)
    | none => pure callee
  if ← isPunct "(" then
    let args ← arguments g
    return (.new (← spanFrom start) callee args, true)
  else return (.new (← spanFrom start) callee [], false)

/-- The operand of an outer `new` that is itself one. -/
def innerNew (g : Grammar) : Parse Expr := do
  let start ← here
  let (e, complete) ← newExpr g
  if complete then links g true false start e else return e

/-- An operand without operators before or after it. -/
def leftHand (g : Grammar) : Parse Expr := do
  let start ← here
  if ← isWord "super" then
    let e ← superExpr g false
    links g false false start e
  else if ← isWord "import" then
    let e ← importExpr g false
    links g false false start e
  else if ← isWord "new" then
    let (e, complete) ← newExpr g
    if complete then links g false false start e else return e
  else
    let e ← primary g
    if e.isArrow then return e else links g false false start e

/-- What follows the `@` of a decorator. -/
def decoration (g : Grammar) : Parse Expr := do
  let start ← here
  let e ←
    if ← eat "(" then
      let e ← inBrackets g.expr
      expect ")"
      pure e
    else
      let id ← name
      links g false true start (.ident id)
  let types ← if (← typed) && (← isAngle) then some <$> typeArgs g else pure none
  if types.isSome || (← isPunct "(") then
    let args ← arguments g
    return .call (← spanFrom start) e types args
  else return e

/-! ## Operators -/

/-- The operator before an operand that a token is. -/
def unaryOp? : Token → Option UnaryOp
  | .punct "-" => some .minus
  | .punct "+" => some .plus
  | .punct "!" => some .not
  | .punct "~" => some .bitNot
  | .word "typeof" false => some .typeOf
  | .word "void" false => some .void
  | .word "delete" false => some .delete
  | _ => none

/-- `++` or `--`. -/
def updateOp? : Token → Option UpdateOp
  | .punct "++" => some .increment
  | .punct "--" => some .decrement
  | _ => none

/-- `await` with its operand. -/
def awaitExpr (g : Grammar) : Parse Expr := do
  let span ← tokenSpan
  expectWord "await"
  if ← isPunct "*" then unexpected "expression"
  let ctx ← read
  if ctx.inFunction && !ctx.inAsync then report span (.misplaced "await")
  let e ← g.unary
  return .await (← spanFrom span.start) e

/-- Checks the operand of `delete`. -/
def checkDelete (e : Expr) : Parse Unit := do
  match e with
  | .ident id => report id.span (.misplaced "delete of a name")
  | _ => if (← typed) && !e.isAccess then report e.span (.misplaced "delete of this")

/-- `<T>e` from `<` on. -/
def typeAssertion (g : Grammar) : Parse Expr := do
  let start ← here
  splitPunct '<'
  expect "<"
  if ← eatWord "const" then
    closeAngle
    let e ← g.unary
    return .constAssertion (← spanFrom start) e
  let t ← inBrackets g.type
  closeAngle
  let e ← g.unary
  return .typeAssertion (← spanFrom start) t e

/-- An operand with the operators before and after it. -/
def unaryExpr (g : Grammar) : Parse Expr := do
  let start ← here
  let t ← token
  let ctx ← read
  if ctx.typed && !ctx.tags && (← isAngle) then return ← typeAssertion g
  if let some op := updateOp? t then
    advance
    let e ← g.unary
    let span ← spanFrom start
    checkUpdateTarget e
    return .update span op true e
  if let some op := unaryOp? t then
    advance
    let e ← g.unary
    if op == .delete then checkDelete e
    return .unary (← spanFrom start) op e
  if ← isWord "await" then return ← awaitExpr g
  let e ← leftHand g
  if e.isArrow then return e
  if ← newlineBefore then return e
  match updateOp? (← token) with
  | some op =>
    checkUpdateTarget e
    advance
    return .update (← spanFrom start) op false e
  | none => return e

/-- `??` is not mixed with `||` or `&&` without parentheses. -/
def checkNullish (op : BinaryOp) (left right : Expr) : Parse Unit := do
  let bad :=
    match op with
    | .nullish => left.isBareLogical || right.isBareLogical
    | .logicalOr | .logicalAnd => left.isBareNullish || right.isBareNullish
    | _ => false
  if bad then fault left.span (.misplaced "?? beside || or &&")

/-- A type after `as` or `satisfies`, applied to an expression. -/
def castRest (g : Grammar) (start : Nat) (e : Expr) : Parse Expr := do
  if ← eatWord "as" then
    if ← eatWord "const" then return .constAssertion (← spanFrom start) e
    let t ← inBrackets g.type
    return .asType (← spanFrom start) e t
  else
    expectWord "satisfies"
    let t ← inBrackets g.type
    return .satisfiesType (← spanFrom start) e t

/-- The operators after `left` that bind tighter than `least`, with their right operands. -/
def binaryRest (g : Grammar) (start : Nat) :
    (fuel : Nat) → (least : Nat) → (left : Expr) → Parse Expr
  | 0, _, _ => do fault (← tokenSpan) .tooDeep
  | n + 1, least, left => do
    if (← typed) && !(← newlineBefore) && (← isWordIn ["as", "satisfies"])
        && least < BinaryOp.lt.precedence then
      let e ← castRest g start left
      binaryRest g start n least e
    else
      match ← binaryOp? with
      | none => return left
      | some op =>
        if op.precedence ≤ least then return left
        if op == .exp && left.isUnaryLike then unexpected "parentheses"
        advance
        let rightStart ← here
        let first ← g.unary
        let right ← binaryRest g rightStart n
          (if op == .exp then op.precedence - 1 else op.precedence) first
        checkNullish op left right
        binaryRest g start n least (.binary (← spanFrom start) op left right)

/-- Operands with operators between them. -/
def binaryExpr (g : Grammar) : Parse Expr := do
  let start ← here
  let first ← g.unary
  if first.isArrow then return first
  binaryRest g start ((← get).here.length + 2) 0 first

/-! ## Conditions, assignments and commas -/

/-- A condition with its branches, or what stands for one. -/
def condExpr (g : Grammar) : Parse Expr := do
  let start ← here
  let test ← g.binary
  if test.isArrow then return test
  if ← isPunct "?" then condBranches g start test else return test

/-- `yield` with what it gives. -/
def yieldExpr (g : Grammar) : Parse Expr := do
  let start ← here
  expectWord "yield"
  if (← isSemicolon) || (!(← isPunct "*") && !startsExpr (← token)) then
    return .yield (← spanFrom start) false none
  let delegate ← eat "*"
  let e ← g.assign
  return .yield (← spanFrom start) delegate (some e)

/-- An expression that no assignment can have on its left. -/
def isOperation : Expr → Bool
  | .cond _ _ _ _ | .binary _ _ _ _ | .unary _ _ _ | .update _ _ _ _ => true
  | _ => false

/-- An expression without a comma on top, where no type parameters come first. -/
def plainAssignExpr (g : Grammar) : Parse Expr := do
  if (← read).inGenerator && (← isWord "yield") then return ← yieldExpr g
  let start ← here
  let arrowAt :=
    match ← token with
    | .word _ _ | .punct "(" => some start
    | _ => none
  withReader (fun ctx => { ctx with arrowAt }) do
    let e ← condExpr g
    if e.isArrow || isOperation e then return e
    assignmentRest g start e

/-- An arrow function with type parameters. -/
def genericArrow? (g : Grammar) : Parse (Option Expr) :=
  attempt do
    let tps ← typeParams g
    let e ← plainAssignExpr g
    return e.withTypeParams tps

/-- An expression without a comma on top. -/
def assignExpr (g : Grammar) : Parse Expr := do
  let ctx ← read
  if ctx.typed && (← isPunct "<") then
    if ctx.tags then
      if let some e ← attempt (some <$> plainAssignExpr g) then return e
    match ← nextToken with
    | .word _ _ =>
      match ← genericArrow? g with
      | some e => return e
      | none => plainAssignExpr g
    | _ => plainAssignExpr g
  else plainAssignExpr g

/-- An expression. -/
def commaExpr (g : Grammar) : Parse Expr := do
  let start ← here
  let first ← g.assign
  if ← isPunct "," then
    let rest ← collect do
      if ← eat "," then return some (← g.assign) else return none
    return .seq (← spanFrom start) (first :: rest)
  else return first

end Parse

end ScriptSetup.Script
