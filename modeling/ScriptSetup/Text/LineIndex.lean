import ScriptSetup.Text.Span

/-!
# Lines and columns

A `LineIndex` holds the offsets of the line feeds of a text, and finds the line and the column
of a byte offset. Lines and columns count from zero, and columns count bytes.
-/

set_option autoImplicit false

namespace ScriptSetup.Text

/-- A line and a column, both from zero. -/
structure Position where
  line : Nat
  column : Nat
  deriving DecidableEq, Repr, Inhabited

/-- The offsets of the line feeds of a text, in order. -/
structure LineIndex where
  lineFeeds : List Nat
  deriving DecidableEq, Repr, Inhabited

namespace LineIndex

/-- The offsets of the line feeds in the characters from `offset` on. -/
def lineFeedsFrom (offset : Nat) : List Char → List Nat
  | [] => []
  | c :: cs =>
    let later := lineFeedsFrom (offset + c.utf8Size) cs
    if c = '\n' then offset :: later else later

/-- The index of a text. -/
def ofText (text : String) : LineIndex :=
  ⟨lineFeedsFrom 0 text.toList⟩

/-- The number of lines: a line feed at the end opens one more. -/
def lineCount (index : LineIndex) : Nat :=
  index.lineFeeds.length + 1

/-- The position of an offset. A line feed belongs to the line that it ends, and an offset after
the end of the text to the last line. -/
def position (index : LineIndex) (offset : Nat) : Position :=
  let before := index.lineFeeds.takeWhile (· < offset)
  let lineStart := match before.getLast? with
    | some lineFeed => lineFeed + 1
    | none => 0
  ⟨before.length, offset - lineStart⟩

end LineIndex

end ScriptSetup.Text
