import ScriptSetup.Block.Split
import ScriptSetup.Setup.Convert

/-!
# Converting a component file

`convertFile` converts the first logic block of a component file and leaves the other blocks as
they are. A file without a logic block, or one that is written in the new style, is skipped.
-/

set_option autoImplicit false

namespace ScriptSetup.Setup

/-- Why a component file cannot be converted. -/
inductive FileError where
  /-- it cannot be split into blocks -/
  | blocks (e : BlockError)
  /-- its logic block cannot be converted; places are those in the file -/
  | script (e : ScriptError)
  deriving DecidableEq, Repr, Inhabited

namespace FileError

/-- The error in words. -/
def message : FileError → String
  | blocks e => "invalid component file: " ++ e.fault.message
  | script e => e.message

/-- Where the error is. -/
def span : FileError → Span
  | blocks e | script e => e.span

end FileError

/-- Why a component file is left as it is. -/
inductive SkipReason where
  /-- it has no logic block -/
  | noScript
  /-- it has a logic block in the new style -/
  | alreadySetup
  deriving DecidableEq, Repr, Inhabited

/-- The reason in words. -/
def SkipReason.text : SkipReason → String
  | noScript => "no <script> block"
  | alreadySetup => "already uses <script setup>"

/-- What becomes of a component file. -/
inductive Outcome where
  | converted (c : Converted)
  | skipped (reason : SkipReason)
  deriving DecidableEq, Repr, Inhabited

/-- A converted logic block with the attributes that it had. -/
def setupBlock (body : String) (attributes : List Block.Attribute) : String :=
  "<script setup" ++ Block.renderAttributes attributes ++ ">\n" ++ body ++ "\n</script>"

/-- The blocks as they are written, the first logic block with a new body. -/
def renderBlocks (body : String) : List Block → List String
  | [] => []
  | b :: rest =>
    if b.kind = .script then setupBlock body b.attributes :: rest.map Block.render
    else b.render :: renderBlocks body rest

/-- The text of a file with these blocks: a blank line between blocks, a line feed at the end. -/
def fileText (blocks : List String) : String :=
  Text.join "\n\n" blocks ++ "\n"

/-- Converts the logic block `script` of a file with these blocks. -/
def convertBlocks (blocks : List Block) (script : Block) (o : Options) :
    Except FileError Converted :=
  let offset := script.contentSpan.start
  match convertScript script.content (Script.Lang.ofAttr script.lang?) o with
  | .error e => .error (.script (e.shift offset))
  | .ok c =>
    .ok ⟨fileText (renderBlocks c.code blocks), c.findings.map (·.shift offset)⟩

/-- Converts a component file. -/
def convertFile (source : String) (o : Options) : Except FileError Outcome :=
  let split := Block.split source
  match split.error? with
  | some e => .error (.blocks e)
  | none =>
    match Block.ofKind? split.blocks .script with
    | none => .ok (.skipped .noScript)
    | some script =>
      if (Block.ofKind split.blocks .script).any (·.hasAttribute "setup") then
        .ok (.skipped .alreadySetup)
      else
        (convertBlocks split.blocks script o).map .converted

end ScriptSetup.Setup
