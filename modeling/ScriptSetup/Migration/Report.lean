import ScriptSetup.Json.Write
import ScriptSetup.Migration.Arguments
import ScriptSetup.Setup.File
import ScriptSetup.Text.LineIndex

/-!
# Reports

What a run says about a file: notices, each a finding or the error that stopped the conversion,
in one of three formats. A `Summary` counts what became of the files.
-/

set_option autoImplicit false

namespace ScriptSetup.Migration

open Text

/-! ## Notices -/

/-- How serious a notice is. -/
inductive Level where
  /-- the file is not converted -/
  | error
  | warning
  | hint
  deriving DecidableEq, Repr, Inhabited

/-- The level as people read it. -/
def Level.text : Level → String
  | error => "Error"
  | warning => "Warning"
  | hint => "Hint"

/-- The level in capitals. -/
def Level.capitals : Level → String
  | error => "ERROR"
  | warning => "WARNING"
  | hint => "HINT"

/-- The level of a finding. -/
def Level.ofSeverity : Severity → Level
  | .warning => warning
  | .hint => hint

/-- Something to say about a file. -/
structure Notice where
  level : Level
  code : String
  message : String
  span : Span
  deriving DecidableEq, Repr, Inhabited

namespace Notice

/-- The notice about a finding. -/
def ofFinding (f : Finding) : Notice :=
  ⟨Level.ofSeverity f.severity, f.code.text, f.message, f.span⟩

/-- The code of an error. -/
def errorCode : Setup.FileError → String
  | .blocks _ => "invalid-component"
  | .script (.notModule _) => "parse-error"
  | .script (.decorator _) => "malformed-decorator"

/-- The notice about the error that stopped a conversion. -/
def ofError (e : Setup.FileError) : Notice :=
  ⟨.error, errorCode e, e.message, e.span⟩

/-- The notices about a conversion. -/
def ofOutcome : Except Setup.FileError Setup.Outcome → List Notice
  | .ok (.converted c) => c.findings.map ofFinding
  | .ok (.skipped _) => []
  | .error e => [ofError e]

/-! ## Formats -/

/-- A number as text. -/
def number (n : Nat) : String := toString n

/-- A position with line and column from one. -/
def place (p : Position) : String :=
  number (p.line + 1) ++ ":" ++ number (p.column + 1)

/-- The line of a position with a mark under its column. -/
def excerpt (lines : List String) (p : Position) : String :=
  match lines[p.line]? with
  | none => ""
  | some line =>
    let gutter := number (p.line + 1)
    let blank (n : Nat) : String := String.ofList (List.replicate n ' ')
    "  " ++ gutter ++ " | " ++ line ++ "\n" ++
      "  " ++ blank gutter.length ++ " | " ++ blank p.column ++ "^\n"

/-- The notice for people. -/
def human (fileName : String) (index : LineIndex) (lines : List String) (n : Notice) : String :=
  let start := index.position n.span.start
  fileName ++ ":" ++ place start ++ "\n" ++
    n.level.text ++ ": " ++ n.message ++ " (" ++ n.code ++ ")\n" ++
    excerpt lines start ++ "\n"

/-- The notice on one line. -/
def machine (fileName : String) (index : LineIndex) (n : Notice) : String :=
  n.level.capitals ++ " " ++ fileName ++ ":" ++ place (index.position n.span.start) ++ ":" ++
    place (index.position n.span.stop) ++ " " ++ n.message ++ " (" ++ n.code ++ ")\n"

/-- A position in JSON. -/
def positionValue (index : LineIndex) (offset : Nat) : Json.Value :=
  let p := index.position offset
  .object [("line", .number (p.line + 1)), ("column", .number (p.column + 1)),
    ("offset", .number offset)]

/-- The notice in JSON. -/
def value (fileName : String) (index : LineIndex) (n : Notice) : Json.Value :=
  .object [("type", .text n.level.text), ("filename", .text fileName),
    ("start", positionValue index n.span.start), ("end", positionValue index n.span.stop),
    ("message", .text n.message), ("code", .text n.code)]

/-- Notices about a file in JSON. -/
def values (notices : List Notice) (fileName source : String) : List Json.Value :=
  notices.map (value fileName (LineIndex.ofText source))

end Notice

/-- Notices about a file in a format. -/
def Format.render (f : Format) (notices : List Notice) (fileName source : String) : String :=
  match f with
  | human =>
    let index := LineIndex.ofText source
    let lines := Text.lines source
    join "" (notices.map (Notice.human fileName index lines))
  | machine => join "" (notices.map (Notice.machine fileName (LineIndex.ofText source)))
  | json => (Json.Value.list (Notice.values notices fileName source)).render 0

/-! ## Summaries -/

/-- What became of the files of a run. -/
structure Summary where
  converted : Nat := 0
  skipped : Nat := 0
  failed : Nat := 0
  /-- warnings about converted files -/
  warnings : Nat := 0
  /-- a warning is reason enough to fail -/
  failOnWarnings : Bool := false
  deriving DecidableEq, Repr, Inhabited

namespace Summary

/-- The run has failed. -/
def isFailure (s : Summary) : Bool :=
  0 < s.failed || (s.failOnWarnings && 0 < s.warnings)

/-- A number of things. -/
def count (n : Nat) (noun : String) : String :=
  Notice.number n ++ " " ++ noun ++ if n = 1 then "" else "s"

/-- The summary in words. -/
def text (s : Summary) : String :=
  "====================================\n" ++
    "vue-setup-migrate converted " ++ count s.converted "file" ++
    " (" ++ Notice.number s.skipped ++ " skipped, " ++ Notice.number s.failed ++ " failed) with " ++
    count s.warnings "warning"

end Summary

end ScriptSetup.Migration
