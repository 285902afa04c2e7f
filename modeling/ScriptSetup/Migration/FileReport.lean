import ScriptSetup.Files.Tree
import ScriptSetup.Migration.Report

/-!
# Reports on files

A run leaves one `FileReport` for each file. What is printed is a function of these reports and of
the counters.
-/

set_option autoImplicit false

namespace ScriptSetup.Migration

open Text

/-- What became of a file. -/
inductive FileStatus where
  | converted
  | skipped
  | failed
  deriving DecidableEq, Repr, Inhabited

/-- The status in a report. -/
def FileStatus.text : FileStatus → String
  | converted => "converted"
  | skipped => "skipped"
  | failed => "failed"

/-- What a run has to say about a file. -/
structure FileReport where
  /-- the path of the file as seen from the directory of the run -/
  fileName : String
  source : String
  status : FileStatus
  /-- why the file is skipped, or could not be read or written -/
  reason? : Option String := none
  /-- why the file could not be read -/
  unreadable? : Option Files.Fault := none
  /-- the converted file, when it is shown and not written -/
  output? : Option String := none
  notices : List Notice := []
  deriving DecidableEq, Repr, Inhabited

namespace FileReport

/-! ## In words -/

/-- What a file adds to the standard output. -/
def out (f : Format) (r : FileReport) : String :=
  let shown := match r.output? with
    | some code => "=== " ++ r.fileName ++ " ===\n" ++ code ++ "\n"
    | none => ""
  shown ++ f.render r.notices r.fileName r.source

/-- What a file adds to the standard error. -/
def err (r : FileReport) : String :=
  match r.unreadable? with
  | some fault => "Failed to read " ++ r.fileName ++ ": " ++ fault.message ++ "\n"
  | none => ""

/-! ## In JSON -/

/-- A member that may be missing. -/
def optional (key : String) : Option String → List (String × Json.Value)
  | some s => [(key, .text s)]
  | none => []

/-- The report without its notices. -/
def value (r : FileReport) : Json.Value :=
  .object ([("filename", .text r.fileName), ("status", .text r.status.text)] ++
    optional "reason" r.reason? ++ optional "output" r.output?)

/-- All reports, and then all notices. -/
def allValue (reports : List FileReport) : Json.Value :=
  .object [("files", .list (reports.map value)),
    ("diagnostics", .list (reports.flatMap fun r => Notice.values r.notices r.fileName r.source))]

/-! ## As a whole -/

/-- The standard output of a run. -/
def standardOut (f : Format) (reports : List FileReport) (s : Summary) : String :=
  match f with
  | .json => (allValue reports).render 0 ++ "\n"
  | f => join "" (reports.map (out f)) ++ s.text ++ "\n"

/-- The standard error of a run, without the log of a verbose one. -/
def standardError (f : Format) (reports : List FileReport) : String :=
  match f with
  | .json => ""
  | _ => join "" (reports.map err)

end FileReport

end ScriptSetup.Migration
