/-!
# Byte spans

A `Span` is a half-open range of UTF-8 byte offsets into a text. Offsets are 32-bit
numbers: `Span.ofOffsets` and `Span.shift` reduce modulo `Span.limit`, and every text of
fewer than `Span.limit` bytes is addressed exactly.

`Span.slice` gives the text that a span covers, and nothing when the span is reversed,
leaves the text or cuts a character in two.
-/

set_option autoImplicit false

namespace ScriptSetup

/-- A half-open range of byte offsets, from `start` up to `stop`. -/
structure Span where
  /-- offset of the first byte -/
  start : Nat
  /-- offset just past the last byte -/
  stop : Nat
  deriving DecidableEq, Repr, Inhabited

namespace Text

/-! ## Bytes of a list of characters -/

/-- The number of bytes that UTF-8 needs for the characters. -/
def byteLength : List Char → Nat
  | [] => 0
  | c :: cs => c.utf8Size + byteLength cs

@[simp] theorem byteLength_nil : byteLength [] = 0 := rfl

@[simp] theorem byteLength_cons (c : Char) (cs : List Char) :
    byteLength (c :: cs) = c.utf8Size + byteLength cs := rfl

@[simp] theorem byteLength_append (as bs : List Char) :
    byteLength (as ++ bs) = byteLength as + byteLength bs := by
  induction as with
  | nil => simp
  | cons a as ih => simp [ih, Nat.add_assoc]

/-- The characters from byte `n` on, when a character starts or the text ends there. -/
def dropBytes : List Char → Nat → Option (List Char)
  | [], n => if n = 0 then some [] else none
  | c :: cs, n =>
    if n = 0 then some (c :: cs)
    else if c.utf8Size ≤ n then dropBytes cs (n - c.utf8Size)
    else none

/-- The characters before byte `n`, when a character ends or the text starts there. -/
def takeBytes : List Char → Nat → Option (List Char)
  | [], n => if n = 0 then some [] else none
  | c :: cs, n =>
    if n = 0 then some []
    else if c.utf8Size ≤ n then (takeBytes cs (n - c.utf8Size)).map (c :: ·)
    else none

end Text

namespace Span

/-- Offsets are smaller than this. -/
def limit : Nat := Nat.pow 2 32

/-- The span between two offsets, each kept modulo `limit`. -/
def ofOffsets (start stop : Nat) : Span :=
  ⟨start % limit, stop % limit⟩

/-- Both ends are the same offset. -/
def isEmpty (s : Span) : Bool :=
  s.start == s.stop

/-- The span moved `offset` bytes to the right. -/
def shift (s : Span) (offset : Nat) : Span :=
  ofOffsets (s.start + offset) (s.stop + offset)

/-- The characters that the span covers. -/
def slice? (s : Span) (text : List Char) : Option (List Char) :=
  if s.start ≤ s.stop then
    (Text.dropBytes text s.start).bind (Text.takeBytes · (s.stop - s.start))
  else none

/-- The text that the span covers. -/
def slice (s : Span) (text : String) : Option String :=
  (s.slice? text.toList).map String.ofList

end Span

end ScriptSetup
