import ScriptSetup.Script.Lang
import ScriptSetup.Script.SelfNames
import ScriptSetup.Script.Token

/-!
# Reading a module token by token

A `Parse α` reads from the tokens of a text and gives an `α` or a `Fault`. It knows where it
stands (`Context`: inside a function, inside a loop, …) and what is left (`State`: the current
token and the characters after it). Only the current token is scanned, so a reader may look at
the characters of the token again where the grammar calls for it, as in a regular expression.

The grammar is recursive. Its readers do not call each other in a cycle: what a reader needs
from later in the grammar it takes from a `Grammar`, a record of the entry points, and
`Grammar.Module` ties the knot with a bound on the depth of nesting.

Some faults are found in a text whose structure is clear all the same. `report` raises one,
but not while the reader is only trying whether a text can be read in a certain way.
-/

set_option autoImplicit false

namespace ScriptSetup.Script

/-! ## Context and state -/

/-- Where in the module the reader stands. -/
structure Context where
  /-- types may be written -/
  typed : Bool
  /-- elements may be written with tags -/
  tags : Bool
  /-- only trying: faults that leave the structure clear do not count -/
  quiet : Bool := false
  /-- `in` is an operator here -/
  allowIn : Bool := true
  inFunction : Bool := false
  /-- inside a function other than an arrow -/
  ownThis : Bool := false
  inAsync : Bool := false
  inGenerator : Bool := false
  /-- inside the value of a class field or a static block -/
  inField : Bool := false
  /-- inside a declaration that only describes -/
  inDeclare : Bool := false
  /-- in a branch of a conditional expression -/
  inCond : Bool := false
  /-- a colon of the conditional expression around is still to come -/
  colonFollows : Bool := false
  /-- a conditional type may not be written without parentheses -/
  noConditionalType : Bool := false
  /-- a statement list at the start of a `for` head -/
  inForHead : Bool := false
  canBreak : Bool := false
  canContinue : Bool := false
  labels : List String := []
  /-- the class around extends another -/
  hasSuper : Bool := false
  /-- where an arrow function may start -/
  arrowAt : Option Nat := none
  deriving Repr, Inhabited

/-- What is left to read. -/
structure State where
  /-- the characters from the start of the current token -/
  here : List Char
  token : Token
  start : Nat
  stop : Nat
  /-- a line ended before the current token -/
  newline : Bool
  /-- the characters after the current token -/
  after : List Char
  /-- where the token before ended -/
  prevStop : Nat
  /-- where the literals start that end with a spread and a comma -/
  openSpreads : List Nat := []
  deriving Repr, Inhabited

/-- The state at the token that follows `offset`. -/
def State.at (offset prevStop : Nat) (lineStart : Bool) (cs : List Char) : State :=
  match skipTrivia .code 0 lineStart cs with
  | (used, newline, none) =>
    ⟨cs, .invalid (.unclosed "comment"), offset, offset + used, newline, [], prevStop, []⟩
  | (used, newline, some rest) =>
    let start := offset + used
    let (token, raw, after) := Token.scan rest
    let token :=
      if newline && ['-', '-', '>'].isPrefixOf rest then
        .invalid (.misplaced "An HTML comment")
      else token
    ⟨rest, token, start, start + Text.byteLength raw, newline, after, prevStop, []⟩

/-- The state at the token that follows `offset`, where the characters `rest` are left. -/
def State.skipTo (s : State) (offset : Nat) (rest : List Char) : State :=
  { State.at offset offset false rest with openSpreads := s.openSpreads }

/-- The state at the next token. -/
def State.next (s : State) : State :=
  s.skipTo s.stop s.after

/-- A reader of part of a module. -/
abbrev Parse := ReaderT Context (StateT State (Except Fault))

namespace Parse

/-! ## Tokens -/

/-- The current token. -/
def token : Parse Token := return (← get).token

/-- Where the current token starts. -/
def here : Parse Nat := return (← get).start

/-- The span of the current token. -/
def tokenSpan : Parse Span := do
  let s ← get
  return ⟨s.start, s.stop⟩

/-- The span from `start` to the end of the last token read. -/
def spanFrom (start : Nat) : Parse Span := return ⟨start, (← get).prevStop⟩

/-- A line ends before the current token. -/
def newlineBefore : Parse Bool := return (← get).newline

/-- Types may be written. -/
def typed : Parse Bool := return (← read).typed

/-- Raises a fault at a span. -/
def fault {α : Type} (span : Span) (cause : Cause) : Parse α :=
  throw ⟨span, cause⟩

/-- Raises a fault at the current token, naming what could stand there. -/
def unexpected {α : Type} (expected : String) : Parse α := do
  let span ← tokenSpan
  match ← token with
  | .invalid cause => fault span cause
  | t => fault span (.unexpected t.describe expected)

/-- Raises a fault unless the reader is only trying. -/
def report (span : Span) (cause : Cause) : Parse Unit := do
  if (← read).quiet then return () else fault span cause

/-- Goes on with the characters `rest`, `used` bytes after the start of the current token. -/
def resume (used : Nat) (rest : List Char) : Parse Unit :=
  modify fun s => s.skipTo (s.start + used) rest

/-- Steps over the current token. -/
def advance : Parse Unit := do
  let s ← get
  match s.token with
  | .invalid cause => fault ⟨s.start, s.stop⟩ cause
  | _ => set s.next

/-- The token after the current one. -/
def nextToken : Parse Token := return (← get).next.token

/-- The token after the current one, when both stand on one line. -/
def nextOnLine : Parse (Option Token) := do
  let next := (← get).next
  return if next.newline then none else some next.token

/-- The current token is this operator or separator. -/
def isPunct (text : String) : Parse Bool := return (← token) == .punct text

/-- The current token is this word, written without escapes. -/
def isWord (word : String) : Parse Bool := return (← token) == .word word false

/-- The current token is one of these operators or separators. -/
def isPunctIn (texts : List String) : Parse Bool := do
  match ← token with
  | .punct t => return texts.contains t
  | _ => return false

/-- The current token is one of these words. -/
def isWordIn (words : List String) : Parse Bool := do
  match ← token with
  | .word w false => return words.contains w
  | _ => return false

/-- Reads an operator or separator when it is the current token. -/
def eat (text : String) : Parse Bool := do
  if ← isPunct text then
    advance
    return true
  else return false

/-- Reads a word when it is the current token. -/
def eatWord (word : String) : Parse Bool := do
  if ← isWord word then
    advance
    return true
  else return false

/-- Reads an operator or separator that must come now. -/
def expect (text : String) : Parse Unit := do
  unless ← eat text do unexpected text

/-- Reads a word that must come now. -/
def expectWord (word : String) : Parse Unit := do
  unless ← eatWord word do unexpected word

/-- Splits an operator that starts with `first`, so that `first` is the current token. Closing
brackets of types are read this way. -/
def splitPunct (first : Char) : Parse Unit := do
  let s ← get
  match s.token, s.here with
  | .punct _, c :: rest =>
    if c == first then
      set { s with
        token := .punct (String.singleton c), stop := s.start + c.utf8Size, after := rest }
  | _, _ => return ()

/-- Reads the `>` that closes a list of types. -/
def closeAngle : Parse Unit := do
  splitPunct '>'
  expect ">"

/-- The current token opens a list of types. -/
def isAngle : Parse Bool := do
  return (← isPunct "<") || (← isPunct "<<")

/-! ## Trying -/

/-- Runs a reader, and goes back to where it started when it fails or gives nothing. -/
def attempt {α : Type} (p : Parse (Option α)) : Parse (Option α) := fun ctx s =>
  match p { ctx with quiet := true } s with
  | .ok (some a, s') => .ok (some a, s')
  | .ok (none, _) => .ok (none, s)
  | .error _ => .ok (none, s)

/-- Whether a reader answers yes. Nothing is read. -/
def lookahead (p : Parse Bool) : Parse Bool := fun ctx s =>
  match p { ctx with quiet := true } s with
  | .ok (b, _) => .ok (b, s)
  | .error _ => .ok (false, s)

/-! ## Repetition -/

/-- Runs a reader until it gives nothing, at most `fuel` times. -/
def repeatUpTo {α : Type} : Nat → Parse (Option α) → Parse (List α)
  | 0, _ => do fault (← tokenSpan) .tooDeep
  | n + 1, step => do
    match ← step with
    | none => return []
    | some a => return a :: (← repeatUpTo n step)

/-- Runs a reader until it gives nothing. Every run that gives something reads a token, so the
characters that are left bound the number of runs. -/
def collect {α : Type} (step : Parse (Option α)) : Parse (List α) := do
  repeatUpTo ((← get).here.length + 2) step

/-- Feeds a value through a reader until it gives nothing, at most `fuel` times. -/
def iterateUpTo {α : Type} : Nat → (α → Parse (Option α)) → α → Parse α
  | 0, _, _ => do fault (← tokenSpan) .tooDeep
  | n + 1, step, a => do
    match ← step a with
    | none => return a
    | some b => iterateUpTo n step b

/-- Feeds a value through a reader until it gives nothing. -/
def iterate {α : Type} (step : α → Parse (Option α)) (a : α) : Parse α := do
  iterateUpTo ((← get).here.length + 2) step a

/-- Items with commas between them up to a closing token, which is read. A comma may follow the
last item; the answer says whether one does. -/
def commaList {α : Type} (close : String) (item : Parse α) : Parse (List α × Bool) := do
  if ← eat close then return ([], false)
  let first ← item
  let rest ← collect do
    if ← isPunct close then return none
    expect ","
    if ← isPunct close then return some none
    return some (some (← item))
  expect close
  return (first :: rest.filterMap id, rest.getLast?.any Option.isNone)

/-! ## Ends of statements -/

/-- A semicolon may be left out here. -/
def canInsertSemicolon : Parse Bool := do
  return (← isPunct "\x7d") || (← token) == .eof || (← newlineBefore)

/-- A statement ends here. -/
def isSemicolon : Parse Bool := do
  return (← isPunct ";") || (← canInsertSemicolon)

/-- Reads the semicolon of a statement, when there is one, and says whether the statement
ends. -/
def eatSemicolon : Parse Bool := do
  if ← eat ";" then return true else canInsertSemicolon

/-- Reads the end of a statement. -/
def semicolon : Parse Unit := do
  unless ← eatSemicolon do unexpected ";"

/-! ## Names -/

/-- Reads any word as a name. -/
def anyName : Parse Ident := do
  let span ← tokenSpan
  match ← token with
  | .word name _ =>
    advance
    return ⟨name, span⟩
  | _ => unexpected "identifier"

/-- A word that is never a name at this place. -/
def isReservedHere (ctx : Context) (name : String) : Bool :=
  reservedWords.contains name || strictReservedWords.contains name
    || (name == "await" && !ctx.inDeclare)

/-- The current token is a word that can be a name. -/
def isName : Parse Bool := do
  match ← token with
  | .word name _ => return !isReservedHere (← read) name
  | _ => return false

/-- A word token can be a name. -/
def canBeName (t : Token) : Parse Bool := do
  match t with
  | .word name _ => return !isReservedHere (← read) name
  | _ => return false

/-- Reads the name of a value. -/
def name : Parse Ident := do
  let span ← tokenSpan
  match ← token with
  | .word name _ =>
    if isReservedHere (← read) name then
      fault span (.reserved name)
    else
      if name == "arguments" && (← read).inField then report span (.misplaced "arguments")
      advance
      return ⟨name, span⟩
  | _ => unexpected "identifier"

/-- Names that strict code does not allow to be bound or assigned. -/
def isRestrictedName (name : String) : Bool :=
  name == "eval" || name == "arguments"

/-- Reads a name that is bound here. -/
def boundName : Parse Ident := do
  let span ← tokenSpan
  if (← isWord "this") && (← typed) then
    advance
    return ⟨"this", span⟩
  match ← token with
  | .word _ _ =>
    let id ← name
    if isRestrictedName id.name then report span (.reserved id.name)
    return id
  | _ => unexpected "yield, an identifier, [ or \x7b"

/-- Reads a string literal. -/
def stringLit : Parse StringLit := do
  let span ← tokenSpan
  match ← token with
  | .string raw value =>
    advance
    return ⟨span, value, raw⟩
  | _ => unexpected "string"

end Parse

/-! ## Entry points -/

/-- The entry points of the grammar that readers use before they are defined. -/
structure Grammar where
  /-- an expression without a comma on top -/
  assign : Parse Expr
  /-- an expression -/
  expr : Parse Expr
  /-- operands with operators between them -/
  binary : Parse Expr
  /-- an operand -/
  unary : Parse Expr
  /-- an operand without operators before or after it -/
  leftHand : Parse Expr
  /-- an operand of `new` -/
  newTarget : Parse Expr
  /-- an element written with tags -/
  element : Parse Expr
  /-- what follows the `@` of a decorator -/
  decoration : Parse Expr
  /-- a statement where a declaration may or may not stand -/
  stmt : (isItem : Bool) → Parse Stmt
  /-- an item of a namespace, as the statements in it -/
  item : Parse (List Stmt)
  /-- a pattern that binds names -/
  binding : Parse Pat
  /-- a type -/
  type : Parse TypeText
  /-- a type without a condition on top -/
  plainType : Parse TypeText

namespace Parse

/-- Reads what stands between brackets: nothing of the context around a bracket decides how an
arrow function or a conditional type inside it is read. -/
def inBrackets {α : Type} (p : Parse α) : Parse α :=
  withReader (fun ctx => { ctx with
    allowIn := true, inCond := false, colonFollows := false, noConditionalType := false,
    inForHead := false, arrowAt := none }) p

end Parse

end ScriptSetup.Script
