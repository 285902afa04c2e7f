import ScriptSetup.Text.Span

/-!
# Tokens of an opening tag

`TagToken.lex` splits a text into the tokens that can stand in an opening tag. It does not know
where the tag ends: it goes on to the end of the text, and a tag is read from the front of its
answer.
-/

set_option autoImplicit false

namespace ScriptSetup.Block

open Text

/-- The kinds of tokens in an opening tag. -/
inductive TagTokenKind where
  /-- `>` -/
  | close
  /-- `/>` -/
  | selfClose
  /-- `=` -/
  | equals
  /-- a `/` that closes nothing -/
  | slash
  | doubleQuoted
  | singleQuoted
  /-- a tag name, an attribute name or a value without quotes -/
  | name
  /-- the end of the text -/
  | eof
  /-- a `<`, or a quote that is never closed -/
  | invalid
  deriving DecidableEq, Repr, Inhabited

namespace TagTokenKind

/-- The kind in words. -/
def text : TagTokenKind → String
  | close => "'>'"
  | selfClose => "'/>'"
  | equals => "'='"
  | slash => "'/'"
  | doubleQuoted | singleQuoted => "quoted value"
  | name => "name"
  | eof => "end of file"
  | invalid => "invalid token"

/-- A value in quotes. -/
def isQuoted : TagTokenKind → Bool
  | doubleQuoted | singleQuoted => true
  | _ => false

end TagTokenKind

/-- A token of an opening tag. -/
structure TagToken where
  kind : TagTokenKind
  span : Span
  text : List Char
  deriving DecidableEq, Repr, Inhabited

/-- A character between tokens. -/
def isTagBlank (c : Char) : Bool :=
  c == ' ' || c == '\t' || c == '\r' || c == '\n' || c == '\x0c'

/-- A character of a name or of a value without quotes. -/
def isTagNameChar (c : Char) : Bool :=
  !(isTagBlank c || c == '"' || c == '\'' || c == '<' || c == '>' || c == '=' || c == '/')

namespace TagToken

/-- A quoted value after its opening quote, which is closed by the next such quote. -/
def scanQuoted (kind : TagTokenKind) (quote : Char) (cs : List Char) :
    TagTokenKind × List Char × List Char :=
  let body := cs.takeWhile (· != quote)
  match cs.dropWhile (· != quote) with
  | [] => (.invalid, quote :: body, [])
  | q :: rest => (kind, quote :: body ++ [q], rest)

/-- The token that starts with `c`, which is not blank: its kind, its text and what follows. -/
def scan (c : Char) (cs : List Char) : TagTokenKind × List Char × List Char :=
  if c = '>' then (.close, [c], cs)
  else if c = '=' then (.equals, [c], cs)
  else if c = '<' then (.invalid, [c], cs)
  else if c = '"' then scanQuoted .doubleQuoted '"' cs
  else if c = '\'' then scanQuoted .singleQuoted '\'' cs
  else if c = '/' then
    match cs with
    | '>' :: rest => (.selfClose, [c, '>'], rest)
    | _ => (.slash, [c], cs)
  else (.name, c :: cs.takeWhile isTagNameChar, cs.dropWhile isTagNameChar)

theorem scanQuoted_rest_length (kind : TagTokenKind) (quote : Char) (cs : List Char) :
    (scanQuoted kind quote cs).2.2.length ≤ cs.length := by
  have h := (List.dropWhile_suffix (· != quote) (l := cs)).length_le
  unfold scanQuoted
  split
  · simp
  · rename_i q rest hd
    rw [hd] at h
    simp only [List.length_cons] at h
    exact Nat.le_of_succ_le h

theorem scan_rest_length (c : Char) (cs : List Char) : (scan c cs).2.2.length ≤ cs.length := by
  unfold scan
  split
  · simp
  split
  · simp
  split
  · simp
  split
  · exact scanQuoted_rest_length _ _ _
  split
  · exact scanQuoted_rest_length _ _ _
  split
  · split
    · simp
    · simp
  · exact (List.dropWhile_suffix _).length_le

/-- The tokens of a text that starts at `offset`. The last one is the end of the text. -/
def lex (offset : Nat) : List Char → List TagToken
  | [] => [⟨.eof, .ofOffsets offset offset, []⟩]
  | c :: cs =>
    if isTagBlank c then lex (offset + c.utf8Size) cs
    else
      let next := scan c cs
      let stop := offset + byteLength next.2.1
      ⟨next.1, .ofOffsets offset stop, next.2.1⟩ :: lex stop next.2.2
  termination_by cs => cs.length
  decreasing_by
    · simp
    · exact Nat.lt_succ_of_le (scan_rest_length c cs)

end TagToken

end ScriptSetup.Block
