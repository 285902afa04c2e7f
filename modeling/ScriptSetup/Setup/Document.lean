import ScriptSetup.Text.Blank
import ScriptSetup.Text.Lines

/-!
# Documents

A document is filled in any order, piece by piece, and each piece goes into a segment. Its text
has the segments in a fixed order.
-/

set_option autoImplicit false

namespace ScriptSetup.Setup

open Text

/-- The segments of a document. -/
inductive Segment where
  | imports
  /-- the blank line under the imports -/
  | separator
  | inputs | events | observers | reactiveFields | computedAccessors
  /-- everything that stays where it stood -/
  | body
  deriving DecidableEq, Repr, Inhabited

/-- The segments in the order of the text. -/
def Segment.all : List Segment :=
  [.imports, .separator, .inputs, .events, .observers, .reactiveFields, .computedAccessors, .body]

/-- The pieces of a document, in the order in which they were added. -/
structure Document where
  pieces : List (Segment × String) := []
  deriving DecidableEq, Repr, Inhabited

namespace Document

/-- A document without pieces. -/
def empty : Document := {}

/-- Adds a piece to a segment. -/
def push (d : Document) (segment : Segment) (piece : String) : Document :=
  ⟨d.pieces ++ [(segment, piece)]⟩

/-- Adds pieces to a segment. -/
def extend (d : Document) (segment : Segment) (pieces : List String) : Document :=
  pieces.foldl (fun d piece => d.push segment piece) d

/-- The document has no pieces. -/
def isEmpty (d : Document) : Bool := d.pieces.isEmpty

/-- The pieces of a segment. -/
def segment (d : Document) (s : Segment) : List String :=
  (d.pieces.filter (·.1 == s)).map (·.2)

/-- What stands between two pieces of the body: a blank line, unless both are single lines. -/
def bodyGap (before after : String) : String :=
  if isMultiline before || isMultiline after then "\n\n" else "\n"

/-- The pieces of the body, with gaps between them. -/
def joinBody : List String → String
  | [] => ""
  | [piece] => piece
  | piece :: next :: rest => piece ++ bodyGap piece next ++ joinBody (next :: rest)

/-- The text of a segment from its pieces. Blank pieces do not count. -/
def segmentText (s : Segment) (pieces : List String) : String :=
  let solid := pieces.filter (!isBlank ·)
  match s with
  | .separator => if pieces.isEmpty then "" else "\n"
  | .imports => if solid.isEmpty then "" else join "\n" solid ++ "\n"
  | .body => if solid.isEmpty then "" else joinBody solid ++ "\n"
  | _ => if solid.isEmpty then "" else join "\n" solid ++ "\n\n"

/-- The text of the document. -/
def render (d : Document) : String :=
  trimEnd (join "" (Segment.all.map fun s => segmentText s (d.segment s)))

end Document

end ScriptSetup.Setup
