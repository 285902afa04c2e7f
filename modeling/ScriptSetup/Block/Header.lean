import ScriptSetup.Block.Basic
import ScriptSetup.Block.Token

/-!
# Opening tags

`Header.read` reads an opening tag after its name: the attributes up to `>` or `/>`. Where the
tag goes wrong it says what stands there, as a `BlockError`.
-/

set_option autoImplicit false

namespace ScriptSetup

open Text

/-- Why a component file cannot be split into blocks. -/
inductive BlockFault where
  /-- the text ends inside the opening tag with this name -/
  | unterminatedTag (name : String)
  /-- the block with this name has no closing tag -/
  | unclosedBlock (name : String)
  /-- `found` may not stand where it does in the tag with this name -/
  | invalidAttribute (found name : String)
  /-- a comment has no `-->` -/
  | unterminatedComment
  deriving DecidableEq, Repr, Inhabited

/-- The fault in words. -/
def BlockFault.message : BlockFault → String
  | unterminatedTag name => "unterminated tag: <" ++ name
  | unclosedBlock name => "unclosed block: <" ++ name ++ "> has no matching </" ++ name ++ ">"
  | invalidAttribute found name =>
    "invalid attribute: unexpected " ++ found ++ " in <" ++ name ++ ">"
  | unterminatedComment => "unterminated comment"

/-- A fault with its place. -/
structure BlockError where
  fault : BlockFault
  span : Span
  deriving DecidableEq, Repr, Inhabited

namespace Block

/-- What an opening tag says besides its name. -/
structure Header where
  attributes : List Attribute
  /-- the offset after `>` or `/>`, as it is kept in the span of this token -/
  stop : Nat
  /-- closed by `/>` -/
  selfClosing : Bool
  deriving DecidableEq, Repr, Inhabited

namespace TagToken

/-- The token as the value of an attribute: a quoted value without its quotes. -/
def value (t : TagToken) : String :=
  String.ofList (if t.kind.isQuoted then t.text.tail.dropLast else t.text)

/-- The token as a message names it. -/
def found (t : TagToken) : String :=
  if t.kind = .invalid then String.ofList t.text else t.kind.text

end TagToken

/-- The last attribute read, the head of the list, is given a value. -/
def giveValue (t : TagToken) : List Attribute → List Attribute
  | [] => []
  | a :: rest => { a with value := .text t.value, span := ⟨a.span.start, t.span.stop⟩ } :: rest

namespace Header

/-- Reads on in a tag. `attributes` holds those read so far, the last one first; `pending` tells
that `=` was read after the last one. A second `=` gives the last attribute another value. -/
def readFrom (start : Nat) (name : String) (attributes : List Attribute) (pending : Bool) :
    List TagToken → Except BlockError Header
  | [] => .error ⟨.unterminatedTag name, .ofOffsets start start⟩
  | t :: more =>
    let unexpected : Except BlockError Header := .error ⟨.invalidAttribute t.found name, t.span⟩
    match t.kind, pending with
    | .eof, _ => .error ⟨.unterminatedTag name, .ofOffsets start t.span.stop⟩
    | .close, false => .ok ⟨attributes.reverse, t.span.stop, false⟩
    | .selfClose, false => .ok ⟨attributes.reverse, t.span.stop, true⟩
    | .name, false =>
      readFrom start name (⟨String.ofList t.text, .bare, t.span⟩ :: attributes) false more
    | .equals, false =>
      if attributes.isEmpty then unexpected else readFrom start name attributes true more
    | .name, true | .doubleQuoted, true | .singleQuoted, true =>
      readFrom start name (giveValue t attributes) false more
    | _, _ => unexpected

/-- Reads the tag with this name that opens at `start`; `cs` follows the name, at `offset`. -/
def read (start : Nat) (name : String) (offset : Nat) (cs : List Char) :
    Except BlockError Header :=
  readFrom start name [] false (TagToken.lex offset cs)

end Header

end Block

end ScriptSetup
