import ScriptSetup.Block.Header
import ScriptSetup.Text.Blank

/-!
# Splitting a component file into blocks

`Block.split` finds the blocks at the top of a component file, one after the other. Comments are
passed over, and so is all text between blocks. At the first fault it stops: the blocks before
it are kept.

A block ends at the first closing tag of its name. Only `template` blocks nest: there, opening
tags of the same name are counted.

Behind an opening tag and behind a block, reading goes on from the offset that is kept in a span. In
a text of `Span.limit` bytes or more this can be a place that was passed already.
-/

set_option autoImplicit false

namespace ScriptSetup

open Text

/-- The blocks of a component file, up to the first fault if there is one. -/
structure Split where
  blocks : List Block
  errors : List BlockError
  deriving DecidableEq, Repr, Inhabited

/-- The fault that a file is refused for. -/
def Split.error? (s : Split) : Option BlockError :=
  s.errors.head?

namespace Block

/-! ## Closing tags -/

/-- The name of a tag ends before `cs`. -/
def endsTagName : List Char → Bool
  | [] => false
  | c :: _ => c == '>' || c == '/' || isBlankChar c

/-- `cs` starts with `opening`, and the name of the tag ends there. -/
def atTag (opening cs : List Char) : Bool :=
  opening.isPrefixOf cs && endsTagName (cs.drop opening.length)

/-- Where the search for a closing tag stands. -/
structure CloseSearch where
  /-- inner blocks that are still open -/
  depth : Nat
  /-- inside the opening tag of an inner block; tells whether the last character was a `/` -/
  inTag : Option Bool
  deriving DecidableEq, Repr, Inhabited

/-- The content of a block and what follows its closing tag. -/
structure Closed where
  content : List Char
  /-- the closing tag -/
  tag : List Char
  rest : List Char
  deriving DecidableEq, Repr, Inhabited

/-- A closing tag, up to and with the first `>`. -/
def closeHere (cs : List Char) : Option Closed :=
  match cs.dropWhile (· != '>') with
  | [] => none
  | c :: rest => some ⟨[], cs.takeWhile (· != '>') ++ [c], rest⟩

/-- Finds the closing tag of a block with this name. When the block nests, an opening tag of the
same name counts unless it ends in `/>`. -/
def findClose (name : List Char) (nested : Bool) : CloseSearch → List Char → Option Closed
  | _, [] => none
  | state, c :: cs =>
    let goOn (next : CloseSearch) : Option Closed :=
      (findClose name nested next cs).map fun r => { r with content := c :: r.content }
    match state.inTag with
    | some slash =>
      if c = '>' then goOn ⟨if slash then state.depth else state.depth + 1, none⟩
      else goOn { state with inTag := some (c == '/') }
    | none =>
      if atTag ('<' :: '/' :: name) (c :: cs) then
        if state.depth = 0 then closeHere (c :: cs)
        else goOn { state with depth := state.depth - 1 }
      else if nested && atTag ('<' :: name) (c :: cs) then goOn { state with inTag := some false }
      else goOn state

/-! ## Blocks -/

/-- The tag whose blocks nest. -/
def nestingTag : List Char := "template".toList

/-- The characters of the source from a kept offset on. There are none at an offset inside of a
character. -/
def resume (source : List Char) (offset : Nat) : List Char :=
  (dropBytes source offset).getD []

/-- Reads the block of the source that opens at `start`; `cs` follows its `<`. -/
def read (source : List Char) (start : Nat) (cs : List Char) : Except BlockError Block :=
  let nameChars := cs.takeWhile isTagNameChar
  let name := String.ofList nameChars
  match Header.read start name (start + 1 + byteLength nameChars) (cs.dropWhile isTagNameChar) with
  | .error e => .error e
  | .ok header =>
    if header.selfClosing then
      .ok ⟨name, .ofOffsets start header.stop, .ofOffsets header.stop header.stop, "",
        header.attributes⟩
    else
      let rest := resume source header.stop
      match findClose nameChars (nameChars == nestingTag) ⟨0, none⟩ rest with
      | none => .error ⟨.unclosedBlock name, .ofOffsets start header.stop⟩
      | some closed =>
        let contentStop := header.stop + byteLength closed.content
        .ok ⟨name, .ofOffsets start (contentStop + byteLength closed.tag),
          .ofOffsets header.stop contentStop, String.ofList closed.content, header.attributes⟩

/-! ## Comments and the text between blocks -/

/-- The text up to and with the first `-->`, and what follows. -/
def afterComment : List Char → Option (List Char × List Char)
  | [] => none
  | '-' :: '-' :: '>' :: rest => some (['-', '-', '>'], rest)
  | c :: cs => (afterComment cs).map fun r => (c :: r.1, r.2)

/-- The character can start the name of a tag. -/
def startsTagName (c : Char) : Bool :=
  c.isAlpha

/-- Splits the source from `offset` on, where `cs` stands. Each step passes over a character, a
comment or a block. A source that is short enough has fewer steps than `steps`; in a longer one the
scan could go round for ever. -/
def splitFrom (source : List Char) : (steps : Nat) → (offset : Nat) → List Char → Split
  | 0, _, _ | _, _, [] => ⟨[], []⟩
  | steps + 1, offset, c :: cs =>
    if c = '<' then
      if ['!', '-', '-'].isPrefixOf cs then
        match afterComment cs with
        | some (comment, rest) => splitFrom source steps (offset + 1 + byteLength comment) rest
        | none => ⟨[], [⟨.unterminatedComment, .ofOffsets offset (offset + 4)⟩]⟩
      else if cs.head?.any startsTagName then
        match read source offset cs with
        | .error e => ⟨[], [e]⟩
        | .ok block =>
          let stop := block.span.stop
          let later := splitFrom source steps stop (resume source stop)
          ⟨block :: later.blocks, later.errors⟩
      else splitFrom source steps (offset + 1) cs
    else splitFrom source steps (offset + c.utf8Size) cs

/-- The blocks of a component file. -/
def split (source : String) : Split :=
  splitFrom source.toList (source.toList.length + 1) 0 source.toList

end Block

end ScriptSetup
