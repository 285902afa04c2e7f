import ScriptSetup.Script.Grammar.Function

/-!
# Elements written with tags

The text between tags is not made of tokens, so an element is read up to its last `>`, which
stays the current token: whoever reads the element knows whether text or a token follows. Of an
element only the expressions inside are kept.
-/

set_option autoImplicit false

namespace ScriptSetup.Script.Parse

/-- A name of a tag or attribute, which may hold dashes. -/
def tagWord : Parse String := do
  let s ← get
  match s.here with
  | c :: cs =>
    if isNameStart c then
      let tail := cs.takeWhile fun c => isNamePart c || c == '-'
      resume (c.utf8Size + Text.byteLength tail) (cs.drop tail.length)
      return String.ofList (c :: tail)
    else unexpected "identifier"
  | [] => unexpected "identifier"

/-- The name of an element: a word, or words with a colon or with dots between them. -/
def tagName : Parse String := do
  let first ← tagWord
  if ← eat ":" then return first ++ ":" ++ (← tagWord)
  let rest ← collect do
    if ← eat "." then return some (← tagWord) else return none
  return ".".intercalate (first :: rest)

/-- The value of an attribute in quotes, which knows no escapes. -/
def attributeText (quote : Char) (cs : List Char) : Parse Unit := do
  let body := cs.takeWhile (· != quote)
  match cs.drop body.length with
  | _ :: rest => resume (2 + Text.byteLength body) rest
  | [] => fault (← tokenSpan) (.unclosed "string")

/-- An expression in braces. -/
def bracedExpr (g : Grammar) : Parse Expr := do
  expect "\x7b"
  let e ← inBrackets g.expr
  expect "\x7d"
  return e

/-- The value of an attribute. -/
def attributeValue (g : Grammar) : Parse (List Expr) := do
  match (← get).here with
  | '"' :: cs =>
    attributeText '"' cs
    return []
  | '\'' :: cs =>
    attributeText '\'' cs
    return []
  | '{' :: _ => return [← bracedExpr g]
  | '<' :: _ =>
    let e ← g.element
    closeAngle
    return [e]
  | _ => unexpected "string"

/-- An attribute of an element. -/
def tagAttribute (g : Grammar) : Parse (List Expr) := do
  if ← eat "\x7b" then
    expect "..."
    let e ← inBrackets g.assign
    expect "\x7d"
    return [e]
  let _ ← tagWord
  if ← eat ":" then
    let _ ← tagWord
  if ← eat "=" then attributeValue g else return []

/-- Steps over the text after the current token, a `>` or a closing brace. -/
def elementText : Parse Unit := do
  let s ← get
  let cs := s.here.drop 1
  let text := cs.takeWhile fun c => !(c == '{' || c == '<' || c == '>' || c == '}')
  match cs.drop text.length with
  | '{' :: rest => resume (1 + Text.byteLength text) ('{' :: rest)
  | '<' :: rest => resume (1 + Text.byteLength text) ('<' :: rest)
  | [] => fault ⟨s.start, s.stop⟩ (.unclosed "element")
  | _ => fault ⟨s.start, s.stop⟩ (.malformed "text in an element")

/-- A closing tag comes next. -/
def isClosingTag : Parse Bool := do
  match (← get).here with
  | '<' :: '/' :: _ => return true
  | _ => return false

/-- What stands between two tags, up to the closing tag, from the `>` before it on. -/
def elementChildren (g : Grammar) : Parse (List Expr) := do
  elementText
  let children ← collect do
    if ← isClosingTag then return none
    if ← eat "\x7b" then
      let inside ←
        if ← isPunct "\x7d" then pure []
        else
          let _ ← eat "..."
          pure [← inBrackets g.expr]
      unless ← isPunct "\x7d" do unexpected "\x7d"
      elementText
      return some inside
    let e ← g.element
    elementText
    return some [e]
  return children.flatten

/-- A closing tag for an element of this name, up to its `>`. -/
def closingTag (name : String) : Parse Unit := do
  let span ← tokenSpan
  splitPunct '<'
  expect "<"
  expect "/"
  splitPunct '>'
  let found ← if ← isPunct ">" then pure "" else tagName
  if found != name then fault span (.malformed "closing tag")
  splitPunct '>'
  unless ← isPunct ">" do unexpected ">"

/-- An element, up to its last `>`. -/
def element (g : Grammar) : Parse Expr := do
  let start ← here
  splitPunct '<'
  expect "<"
  splitPunct '>'
  if ← isPunct ">" then
    let inside ← elementChildren g
    closingTag ""
    return .jsx ⟨start, (← get).stop⟩ inside
  let name ← tagName
  if (← typed) && (← isAngle) then
    let _ ← typeArgs g
  let attributes ← collect do
    splitPunct '>'
    if (← isPunct ">") || (← isPunct "/") then return none
    return some (← tagAttribute g)
  let inside := attributes.flatten
  if ← eat "/" then
    splitPunct '>'
    unless ← isPunct ">" do unexpected ">"
    return .jsx ⟨start, (← get).stop⟩ inside
  unless ← isPunct ">" do unexpected ">"
  let children ← elementChildren g
  closingTag name
  return .jsx ⟨start, (← get).stop⟩ (inside ++ children)

end ScriptSetup.Script.Parse
