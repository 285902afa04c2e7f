import ScriptSetup.Script.Grammar.Class

/-!
# Literals

Templates, regular expressions, arrays, objects and argument lists.
-/

set_option autoImplicit false

namespace ScriptSetup.Script.Parse

/-- A template with the value of its escapes. -/
def templateLit (g : Grammar) : Parse Expr := do
  let start ← here
  let (chunks, exprs) ← templateParts false g.expr
  return .template (← spanFrom start) chunks exprs

/-- The flags of a regular expression are letters of a fixed set, each at most once. -/
def regexFlagsOk (flags : List Char) : Bool :=
  flags.all (['d', 'g', 'i', 'm', 's', 'u', 'v', 'y'].contains ·) && flags.eraseDups == flags

/-- A regular expression from its opening slash. -/
def regexLit : Parse Expr := do
  let s ← get
  match scanRegex false (s.here.drop 1) with
  | none => fault ⟨s.start, s.stop⟩ (.unclosed "regular expression")
  | some (body, rest) =>
    let flags := rest.takeWhile isNamePart
    if !regexFlagsOk flags then fault ⟨s.start, s.stop⟩ (.malformed "regular expression flags")
    else
      resume (2 + Text.byteLength body + Text.byteLength flags) (rest.drop flags.length)
      return .regex (← spanFrom s.start) (String.ofList body) (String.ofList flags)

/-- An expression that may have `...` before it. -/
def spreadable (g : Grammar) : Parse Expr := do
  let start ← here
  if ← eat "..." then
    let e ← g.assign
    return .spread (← spanFrom start) e
  else g.assign

/-- Arguments, parentheses included, and whether a comma follows the last. -/
def argumentList (g : Grammar) : Parse (List Expr × Bool) := do
  expect "("
  inBrackets (commaList ")" (spreadable g))

/-- Arguments, parentheses included. -/
def arguments (g : Grammar) : Parse (List Expr) := return (← argumentList g).1

/-- Something with `...` before it. -/
def isSpread : Expr → Bool
  | .spread _ _ => true
  | _ => false

/-- Notes that the literal that starts here ends with a spread and a comma. -/
def noteOpenSpread (start : Nat) : Parse Unit :=
  modify fun s => { s with openSpreads := start :: s.openSpreads }

/-- An element of an array, with whether a comma follows it. -/
def arrayElement (g : Grammar) : Parse (Option (Expr × Bool)) := do
  if ← isPunct "]" then return none
  if ← eat "," then return some (.hole, false)
  let e ← spreadable g
  if ← isPunct "]" then return some (e, false)
  expect ","
  return some (e, true)

/-- An array. -/
def arrayLit (g : Grammar) : Parse Expr := do
  let start ← here
  expect "["
  let elems ← inBrackets (collect (arrayElement g))
  expect "]"
  if elems.getLast?.any fun (e, comma) => comma && isSpread e then noteOpenSpread start
  return .array (← spanFrom start) (elems.map (·.1))

/-! ## Objects -/

/-- A getter or setter of an object after `get` or `set`. -/
def objectAccessor (g : Grammar) (start : Nat) (kind : MethodKind) : Parse Property := do
  let key ← propertyKey g
  let (f, _) ← function g {} start
  let span ← spanFrom start
  checkAccessor kind span f.params
  match kind, f.params.filter (!·.isThis) with
  | .setter, p :: _ => return .setter span key p f.body
  | _, _ => return .getter span key f.returnType f.body

/-- A method of an object from its parameters on. -/
def objectMethod (g : Grammar) (start : Nat) (kind : FuncKind) (key : Key) : Parse Property := do
  let (f, _) ← function g kind start
  return .method (← spanFrom start) key f

/-- A property of an object after a name that is neither a value nor a method. -/
def propertyAfterName (g : Grammar) (start : Nat) (id : Ident) (modified : Bool) :
    Parse Property := do
  if ← isPunctIn [",", "\x7d"] then return .shorthand id
  if ← eat "=" then return .initialized id (← g.assign)
  if modified then unexpected ":"
  match id.name with
  | "get" => objectAccessor g start .getter
  | "set" => objectAccessor g start .setter
  | "async" =>
    let isGenerator ← eat "*"
    let key ← propertyKey g
    objectMethod g start { isAsync := true, isGenerator } key
  | _ => unexpected "*, (, [, :, ,, ?, = or an identifier"

/-- A property of an object. -/
def objectProperty (g : Grammar) : Parse Property := do
  let start ← here
  if ← eat "..." then
    let e ← g.assign
    return .spread (← spanFrom start) e
  if ← eat "*" then
    let key ← propertyKey g
    return ← objectMethod g start { isGenerator := true } key
  let modified ← eatParamModifier
  let key ← propertyKey g
  if ← eat ":" then return .keyValue key (← g.assign)
  if ← isMethodNext then return ← objectMethod g start {} key
  match key with
  | .ident id => propertyAfterName g start id modified
  | _ => unexpected ":"

/-- A spread among the properties of an object. -/
def isSpreadProperty : Property → Bool
  | .spread _ _ => true
  | _ => false

/-- The properties of an object, with the braces around them. -/
def objectProperties (g : Grammar) : Parse (List Property) := do
  let start ← here
  expect "\x7b"
  let (props, trailing) ← inBrackets (commaList "\x7d" (objectProperty g))
  if trailing && props.getLast?.any isSpreadProperty then noteOpenSpread start
  return props

/-- An object. -/
def objectLit (g : Grammar) : Parse Expr := do
  let start ← here
  let props ← objectProperties g
  return .object (← spanFrom start) props

end ScriptSetup.Script.Parse
