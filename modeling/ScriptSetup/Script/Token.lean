import ScriptSetup.Script.NameChars
import ScriptSetup.Text.Blank
import ScriptSetup.Text.Span

/-!
# Tokens of a logic block

`Token.scan` reads one token from the front of a list of characters and gives back the
characters it used and those that follow. White space and comments are skipped by
`skipTrivia`, which also says whether a line ended in between.

What a token is can depend on where it stands: a slash may open a regular expression, and
the text of a template or between tags is not made of tokens at all. `scanRegex`,
`scanTemplate` and the readers of `Grammar.Jsx` are for those places. A text that starts no
token gives `Token.invalid`, which is an error only where a token is asked for.
-/

set_option autoImplicit false

namespace ScriptSetup.Script

/-! ## Faults -/

/-- Why a text is not a module. -/
inductive Cause where
  /-- a token that cannot stand here, and what could -/
  | unexpected (found expected : String)
  /-- a literal or comment that never ends -/
  | unclosed (what : String)
  /-- a literal, name or escape that is not well formed -/
  | malformed (what : String)
  /-- a construct that is not allowed at this place -/
  | misplaced (what : String)
  /-- a name that is reserved -/
  | reserved (name : String)
  /-- something that no value can be assigned to -/
  | notAssignable
  /-- nesting deeper than the text is long -/
  | tooDeep
  deriving DecidableEq, Repr, Inhabited

/-- A fault and the text it points at. -/
structure Fault where
  span : Span
  cause : Cause
  deriving DecidableEq, Repr, Inhabited

/-- The fault in words. -/
def Cause.message : Cause → String
  | unexpected found "" => s!"Unexpected token {found}"
  | unexpected found expected => s!"Unexpected token {found}. Expected {expected}"
  | unclosed what => s!"Unterminated {what}"
  | malformed what => s!"Invalid {what}"
  | misplaced what => s!"{what} is not allowed here"
  | reserved name => s!"{name} cannot be used as an identifier"
  | notAssignable => "Cannot assign to this"
  | tooDeep => "Nesting is too deep"

/-! ## Tokens -/

/-- A token. -/
inductive Token where
  | eof
  /-- a name or keyword; `escaped` when part of it is written as an escape -/
  | word (name : String) (escaped : Bool)
  /-- `#name` -/
  | privateName (name : String)
  | number (raw : String)
  | bigint (raw : String)
  | string (raw value : String)
  | punct (text : String)
  | invalid (cause : Cause)
  deriving DecidableEq, Repr, Inhabited

/-- Operators and separators, longest first. -/
def punctuators : List (List Char × String) :=
  [">>>=", "...", "===", "!==", "**=", "<<=", ">>=", ">>>", "&&=", "||=", "??=", "=>", "==",
    "!=", "<=", ">=", "&&", "||", "??", "?.", "++", "--", "+=", "-=", "*=", "/=", "%=", "&=",
    "|=", "^=", "<<", ">>", "**", "\x7b", "\x7d", "(", ")", "[", "]", ";", ",", "<", ">", "+",
    "-", "*", "/", "%", "&", "|", "^", "!", "~", "?", ":", "=", ".", "@", "`"].map
    fun s => (s.toList, s)

/-- Words that are never names. -/
def reservedWords : List String :=
  ["break", "case", "catch", "class", "const", "continue", "debugger", "default", "delete",
    "do", "else", "enum", "export", "extends", "false", "finally", "for", "function", "if",
    "import", "in", "instanceof", "new", "null", "return", "super", "switch", "this", "throw",
    "true", "try", "typeof", "var", "void", "while", "with"]

/-- Words that strict code, and so every module, does not allow as names. -/
def strictReservedWords : List String :=
  ["implements", "interface", "let", "package", "private", "protected", "public", "static",
    "yield"]

/-- A character that ends a line. -/
def isLineEnd (c : Char) : Bool :=
  c == '\n' || c == '\r' || c.toNat == 0x2028 || c.toNat == 0x2029

/-! ## White space and comments -/

/-- Where `skipTrivia` stands: between tokens, in a line comment or in a block comment. -/
inductive TriviaMode where
  | code | line | block
  deriving DecidableEq, Repr, Inhabited

/-- Skips white space and comments. The answer is the number of bytes skipped, whether a line
ended among them, and what follows, or nothing when a block comment is not closed. -/
def skipTrivia : TriviaMode → Nat → Bool → List Char → Nat × Bool × Option (List Char)
  | .block, n, nl, [] => (n, nl, none)
  | _, n, nl, [] => (n, nl, some [])
  | .code, n, nl, '/' :: '/' :: cs => skipTrivia .line (n + 2) nl cs
  | .code, n, nl, '/' :: '*' :: cs => skipTrivia .block (n + 2) nl cs
  | .block, n, nl, '*' :: '/' :: cs => skipTrivia .code (n + 2) nl cs
  | .code, n, nl, c :: cs =>
    if isLineEnd c then skipTrivia .code (n + c.utf8Size) true cs
    else if Text.isBlankChar c || c.toNat == 0xfeff then
      skipTrivia .code (n + c.utf8Size) nl cs
    else (n, nl, some (c :: cs))
  | .line, n, nl, c :: cs =>
    if isLineEnd c then skipTrivia .code (n + c.utf8Size) true cs
    else skipTrivia .line (n + c.utf8Size) nl cs
  | .block, n, nl, c :: cs => skipTrivia .block (n + c.utf8Size) (nl || isLineEnd c) cs

/-! ## Escapes -/

/-- The value of a hexadecimal digit. -/
def hexDigit? (c : Char) : Option Nat :=
  if c.isDigit then some (c.toNat - '0'.toNat)
  else if 'a' ≤ c && c ≤ 'f' then some (c.toNat - 'a'.toNat + 10)
  else if 'A' ≤ c && c ≤ 'F' then some (c.toNat - 'A'.toNat + 10)
  else none

/-- A hexadecimal digit. -/
def isHexDigit (c : Char) : Bool :=
  (hexDigit? c).isSome

/-- The number written with these hexadecimal digits. -/
def hexValue (ds : List Char) : Nat :=
  ds.foldl (fun v d => 16 * v + (hexDigit? d).getD 0) 0

/-- Reads what follows `\u`: four digits, or any number of digits in braces. The answer is the
code point, the characters used and those that follow. -/
def unicodeEscape? : List Char → Option (Nat × List Char × List Char)
  | '{' :: cs =>
    let ds := cs.takeWhile isHexDigit
    match cs.dropWhile isHexDigit with
    | '}' :: rest =>
      if ds.isEmpty || 0x10ffff < hexValue ds then none
      else some (hexValue ds, '{' :: ds ++ ['}'], rest)
    | _ => none
  | a :: b :: c :: d :: rest =>
    let ds := [a, b, c, d]
    if ds.all isHexDigit then some (hexValue ds, ds, rest) else none
  | _ => none

/-- The code points of the body of a string or template, or nothing when an escape in it is not
well formed. At most `fuel` characters are read. -/
def decodeEscapes : (fuel : Nat) → List Char → Option (List Nat)
  | 0, _ => some []
  | _ + 1, [] => some []
  | n + 1, '\\' :: '\r' :: '\n' :: cs => decodeEscapes n cs
  | n + 1, '\\' :: 'x' :: a :: b :: cs =>
    if isHexDigit a && isHexDigit b then (decodeEscapes n cs).map (hexValue [a, b] :: ·) else none
  | n + 1, '\\' :: 'u' :: cs =>
    match unicodeEscape? cs with
    | some (v, _, rest) => (decodeEscapes n rest).map (v :: ·)
    | none => none
  | n + 1, '\\' :: c :: cs =>
    if isLineEnd c then decodeEscapes n cs
    else
      match c with
      | 'n' => (decodeEscapes n cs).map (10 :: ·)
      | 't' => (decodeEscapes n cs).map (9 :: ·)
      | 'b' => (decodeEscapes n cs).map (8 :: ·)
      | 'v' => (decodeEscapes n cs).map (11 :: ·)
      | 'f' => (decodeEscapes n cs).map (12 :: ·)
      | 'r' => (decodeEscapes n cs).map (13 :: ·)
      | 'x' => none
      | '0' =>
        if (cs.head?.any fun d => '0' ≤ d && d ≤ '7') then none
        else (decodeEscapes n cs).map (0 :: ·)
      | _ =>
        if '1' ≤ c && c ≤ '7' then none
        else (decodeEscapes n cs).map (c.toNat :: ·)
  | n + 1, c :: cs => (decodeEscapes n cs).map (c.toNat :: ·)

/-- The first half of a surrogate pair. -/
def isLeadSurrogate (n : Nat) : Bool := 0xd800 ≤ n && n < 0xdc00

/-- The second half of a surrogate pair. -/
def isTrailSurrogate (n : Nat) : Bool := 0xdc00 ≤ n && n < 0xe000

/-- The text of a list of code points: pairs of surrogates are one character, and a surrogate
on its own becomes U+FFFD. -/
def textOfCodePoints : List Nat → List Char
  | [] => []
  | [a] => if isLeadSurrogate a || isTrailSurrogate a then ['�'] else [Char.ofNat a]
  | a :: b :: rest =>
    if isLeadSurrogate a && isTrailSurrogate b then
      Char.ofNat (0x10000 + (a - 0xd800) * 0x400 + (b - 0xdc00)) :: textOfCodePoints rest
    else if isLeadSurrogate a || isTrailSurrogate a then '�' :: textOfCodePoints (b :: rest)
    else Char.ofNat a :: textOfCodePoints (b :: rest)

/-! ## Names and literals -/

/-- Reads the characters of a name. The answer is the name, the characters used, whether one of
them was an escape, and what follows; nothing when an escape does not give a name character. -/
def scanName : (fuel : Nat) → List Char → Option (List Char × List Char × Bool × List Char)
  | 0, cs => some ([], [], false, cs)
  | _ + 1, [] => some ([], [], false, [])
  | n + 1, '\\' :: cs =>
    match cs with
    | 'u' :: cs =>
      match unicodeEscape? cs with
      | some (v, used, rest) =>
        if isNamePart (Char.ofNat v) then
          (scanName n rest).map fun (name, raw, _, rest) =>
            (Char.ofNat v :: name, '\\' :: 'u' :: used ++ raw, true, rest)
        else none
      | none => none
    | _ => none
  | n + 1, c :: cs =>
    if isNamePart c then
      (scanName n cs).map fun (name, raw, escaped, rest) => (c :: name, c :: raw, escaped, rest)
    else some ([], [], false, c :: cs)

/-- Reads the body of a string up to and including the closing quote, which is not part of the
answer. -/
def scanString (quote : Char) : List Char → Option (List Char × List Char)
  | [] => none
  | '\\' :: '\r' :: '\n' :: cs =>
    (scanString quote cs).map fun (body, rest) => ('\\' :: '\r' :: '\n' :: body, rest)
  | '\\' :: c :: cs => (scanString quote cs).map fun (body, rest) => ('\\' :: c :: body, rest)
  | c :: cs =>
    if c == quote then some ([], cs)
    else if c == '\n' || c == '\r' then none
    else (scanString quote cs).map fun (body, rest) => (c :: body, rest)

/-- Reads a chunk of a template up to and including the closing backquote or, with `true`, the
opening `${` of an expression. -/
def scanTemplate : List Char → Option (List Char × Bool × List Char)
  | [] => none
  | '`' :: cs => some ([], false, cs)
  | '$' :: '{' :: cs => some ([], true, cs)
  | '\\' :: c :: cs =>
    (scanTemplate cs).map fun (body, more, rest) => ('\\' :: c :: body, more, rest)
  | c :: cs => (scanTemplate cs).map fun (body, more, rest) => (c :: body, more, rest)

/-- Reads the pattern of a regular expression up to and including the closing slash. A slash
inside a class does not close it. -/
def scanRegex (inClass : Bool) : List Char → Option (List Char × List Char)
  | [] => none
  | '\\' :: c :: cs =>
    if isLineEnd c then none
    else (scanRegex inClass cs).map fun (body, rest) => ('\\' :: c :: body, rest)
  | c :: cs =>
    if isLineEnd c then none
    else if c == '/' && !inClass then some ([], cs)
    else
      let inClass := if c == '[' then true else if c == ']' then false else inClass
      (scanRegex inClass cs).map fun (body, rest) => (c :: body, rest)

/-- Two digit separators follow each other somewhere. -/
def doubledSeparator : List Char → Bool
  | '_' :: '_' :: _ => true
  | _ :: cs => doubledSeparator cs
  | [] => false

/-- Digit separators stand only between two digits. -/
def separatorsOk (cs : List Char) : Bool :=
  cs.head? != some '_' && cs.getLast? != some '_' && !doubledSeparator cs

/-- The characters of a number without its digit separators. -/
def withoutSeparators (cs : List Char) : List Char :=
  cs.filter (· != '_')

/-- A number may not run into a name. -/
def endsCleanly : List Char → Bool
  | [] => true
  | c :: _ => !(isNameStart c || c == '\\')

/-- The digits of a number in the given class, with separators. -/
def digitRun (isDigit : Char → Bool) (cs : List Char) : List Char × List Char :=
  cs.span fun c => isDigit c || c == '_'

/-- A token with the characters used for it and those that follow. -/
abbrev Scanned := Token × List Char × List Char

/-- The answer for a number that is not well formed. -/
def badNumber (cs : List Char) : Scanned :=
  (.invalid (.malformed "number"), cs.take 1, cs.drop 1)

/-- A number with a base letter: `0x1f`, `0o17`, `0b11`, each also with `n`. -/
def scanRadix (isDigit : Char → Bool) (all lead cs : List Char) : Scanned :=
  let (ds, rest) := digitRun isDigit cs
  if ds.isEmpty || !separatorsOk ds then badNumber all
  else
    match rest with
    | 'n' :: after =>
      if endsCleanly after then
        let raw := lead ++ ds ++ ['n']
        (.bigint (String.ofList raw), raw, after)
      else badNumber all
    | _ =>
      if endsCleanly rest then (.number (String.ofList (lead ++ ds)), lead ++ ds, rest)
      else badNumber all

/-- The exponent of a decimal number, when there is one, or nothing when it has no digits. -/
def scanExponent : List Char → Option (List Char × List Char)
  | [] => some ([], [])
  | e :: cs =>
    if e == 'e' || e == 'E' then
      let (sign, cs) :=
        match cs with
        | '+' :: cs => (['+'], cs)
        | '-' :: cs => (['-'], cs)
        | cs => ([], cs)
      let (ds, rest) := digitRun Char.isDigit cs
      if ds.isEmpty || !separatorsOk ds then none else some (e :: sign ++ ds, rest)
    else some ([], e :: cs)

/-- What follows the integer part `int` of a decimal number. -/
def scanDecimalTail (all int cs : List Char) : Scanned :=
  let (frac, rest) :=
    match cs with
    | '.' :: cs =>
      let (ds, rest) := digitRun Char.isDigit cs
      ('.' :: ds, rest)
    | cs => ([], cs)
  if !separatorsOk (frac.drop 1) then badNumber all
  else
    match scanExponent rest with
    | none => badNumber all
    | some (exp, rest) =>
      let raw := int ++ frac ++ exp
      if endsCleanly rest then (.number (String.ofList raw), raw, rest) else badNumber all

/-- Reads a number. A decimal number with a leading zero and further digits is not allowed. -/
def scanNumber (cs : List Char) : Scanned :=
  match cs with
  | '0' :: 'x' :: rest => scanRadix isHexDigit cs ['0', 'x'] rest
  | '0' :: 'X' :: rest => scanRadix isHexDigit cs ['0', 'X'] rest
  | '0' :: 'o' :: rest => scanRadix (fun c => '0' ≤ c && c ≤ '7') cs ['0', 'o'] rest
  | '0' :: 'O' :: rest => scanRadix (fun c => '0' ≤ c && c ≤ '7') cs ['0', 'O'] rest
  | '0' :: 'b' :: rest => scanRadix (fun c => c == '0' || c == '1') cs ['0', 'b'] rest
  | '0' :: 'B' :: rest => scanRadix (fun c => c == '0' || c == '1') cs ['0', 'B'] rest
  | _ =>
    let (int, rest) := digitRun Char.isDigit cs
    if !separatorsOk int || (int.head? == some '0' && 1 < int.length) then badNumber cs
    else
      match rest with
      | 'n' :: after =>
        if !int.isEmpty && endsCleanly after then
          (.bigint (String.ofList (int ++ ['n'])), int ++ ['n'], after)
        else badNumber cs
      | _ => scanDecimalTail cs int rest

/-! ## Scanning -/

/-- The longest operator or separator at the front. `?.` before a digit is a question mark. -/
def scanPunct (cs : List Char) : Scanned :=
  match cs with
  | '?' :: '.' :: d :: rest =>
    if d.isDigit then (.punct "?", ['?'], '.' :: d :: rest)
    else (.punct "?.", ['?', '.'], d :: rest)
  | _ =>
    match punctuators.find? fun p => p.1.isPrefixOf cs with
    | some (used, text) => (.punct text, used, cs.drop used.length)
    | none => (.invalid (.malformed "character"), cs.take 1, cs.drop 1)

/-- Reads a name, checking its first character. -/
def scanWord (cs : List Char) : Scanned :=
  match scanName cs.length cs with
  | some (name, raw, escaped, rest) =>
    if name.head?.any isNameStart then (.word (String.ofList name) escaped, raw, rest)
    else (.invalid (.malformed "name"), cs.take 1, cs.drop 1)
  | none => (.invalid (.malformed "escape in a name"), cs.take 1, cs.drop 1)

/-- Reads a string literal after its opening quote. -/
def scanQuoted (quote : Char) (cs : List Char) : Scanned :=
  match scanString quote cs with
  | none => (.invalid (.unclosed "string"), [quote], cs)
  | some (body, rest) =>
    let raw := quote :: body ++ [quote]
    match decodeEscapes body.length body with
    | none => (.invalid (.malformed "escape in a string"), raw, rest)
    | some points =>
      (.string (String.ofList raw) (String.ofList (textOfCodePoints points)), raw, rest)

/-- Reads the token at the front of the characters, which start with no white space. -/
def Token.scan (cs : List Char) : Scanned :=
  match cs with
  | [] => (.eof, [], [])
  | '<' :: '!' :: '-' :: '-' :: rest =>
    (.invalid (.misplaced "An HTML comment"), ['<', '!', '-', '-'], rest)
  | '"' :: rest => scanQuoted '"' rest
  | '\'' :: rest => scanQuoted '\'' rest
  | '#' :: rest =>
    match scanWord rest with
    | (.word name _, raw, rest) => (.privateName name, '#' :: raw, rest)
    | _ => (.invalid (.malformed "private name"), ['#'], rest)
  | '.' :: d :: rest =>
    if d.isDigit then scanDecimalTail cs [] cs else scanPunct ('.' :: d :: rest)
  | c :: rest =>
    if c.isDigit then scanNumber cs
    else if isNameStart c || c == '\\' then scanWord cs
    else scanPunct (c :: rest)

/-- How a message names the token. -/
def Token.describe : Token → String
  | eof => "end of file"
  | word name _ => s!"`{name}`"
  | privateName name => s!"`#{name}`"
  | number raw | bigint raw | string raw _ => s!"`{raw}`"
  | punct text => s!"`{text}`"
  | invalid _ => "`invalid`"

end ScriptSetup.Script
