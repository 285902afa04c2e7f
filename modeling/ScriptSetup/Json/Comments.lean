/-!
# Comments in JSON

`withoutComments` takes comments out of a text and leaves everything else. A comment is `//` up
to the end of the line, whose line feed stays, or `/*` up to the next `*/`. What stands in quotes
is no comment.
-/

set_option autoImplicit false

namespace ScriptSetup.Json

/-- What the character before belongs to. -/
inductive Region where
  | plain
  /-- a text in quotes -/
  | quoted
  /-- a comment up to the end of the line -/
  | line
  /-- a comment up to `*/` -/
  | block
  deriving DecidableEq, Repr, Inhabited

/-- Takes the comments out of characters that follow a region. -/
def dropComments : Region → List Char → List Char
  | _, [] => []
  | .plain, '"' :: cs => '"' :: dropComments .quoted cs
  | .plain, '/' :: '/' :: cs => dropComments .line cs
  | .plain, '/' :: '*' :: cs => dropComments .block cs
  | .plain, c :: cs => c :: dropComments .plain cs
  | .quoted, '"' :: cs => '"' :: dropComments .plain cs
  | .quoted, '\\' :: c :: cs => '\\' :: c :: dropComments .quoted cs
  | .quoted, c :: cs => c :: dropComments .quoted cs
  | .line, '\n' :: cs => '\n' :: dropComments .plain cs
  | .line, _ :: cs => dropComments .line cs
  | .block, '*' :: '/' :: cs => dropComments .plain cs
  | .block, _ :: cs => dropComments .block cs

/-- The text without its comments. -/
def withoutComments (text : String) : String :=
  String.ofList (dropComments .plain text.toList)

end ScriptSetup.Json
