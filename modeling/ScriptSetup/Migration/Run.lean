import ScriptSetup.Glob.Match
import ScriptSetup.Migration.Config
import ScriptSetup.Migration.FileReport

/-!
# Runs

`run` converts a file, or all component files below a directory, of a file tree. It finds the
configuration and collects the files, which `Plan.make` does without a change to the tree. Then it
makes a copy of the target when files are written in place, converts and then writes.

Everything that can stop a run as a whole comes before the first file is written. What goes wrong
with a single file is in its report.
-/

set_option autoImplicit false

namespace ScriptSetup.Migration

open Files Text

/-! ## Errors -/

/-- Why a run stops. -/
inductive RunError where
  /-- there is nothing at the path -/
  | missingPath (path : String)
  /-- a pattern of files to leave out is none -/
  | invalidGlob (pattern : String) (fault : Glob.Fault)
  /-- the configuration file cannot be read -/
  | configRead (path : String) (fault : Files.Fault)
  /-- the configuration file holds no configuration -/
  | configParse (path : String) (fault : Json.Fault)
  /-- the copy cannot be made -/
  | backup (path : String) (fault : Files.Fault)
  deriving DecidableEq, Repr, Inhabited

namespace RunError

/-- What a message about a configuration file starts with. -/
def invalidConfig (path : String) : String :=
  "invalid config " ++ path ++ ": "

/-- A fault of a configuration in words. -/
def configFault : Json.Fault → String
  | .malformed => "not valid JSON"
  | .truncated => "unexpected end of the text"
  | .unfit => "unexpected key or value"

/-- The error in words. -/
def message : RunError → String
  | missingPath path => "no such file or directory: " ++ path
  | invalidGlob pattern fault =>
    "invalid glob pattern: error parsing glob '" ++ pattern ++ "': " ++ fault.message
  | configRead path fault => "failed to read " ++ path ++ ": " ++ fault.message
  | configParse path fault => invalidConfig path ++ configFault fault
  | backup path fault => "failed to back up " ++ path ++ ": " ++ fault.message

/-- The code of the error. -/
def code : RunError → String
  | missingPath _ => "vue_setup_migrate::missing_path"
  | invalidGlob _ _ => "vue_setup_migrate::invalid_glob"
  | configRead _ _ | configParse _ _ => "vue_setup_migrate::config"
  | backup _ _ => "vue_setup_migrate::backup"

/-- What can be done about the error. -/
def help? : RunError → Option String
  | invalidGlob _ _ => some "patterns use globset syntax, e.g. `**/legacy/**`"
  | backup _ _ => some "pass --no-backup to rewrite without a backup copy"
  | _ => none

end RunError

/-! ## Configuration -/

/-- The configuration in a text that was read from `path`. -/
def loadConfig (path : String) (text : Except Files.Fault String) : Except RunError Config :=
  match text with
  | .error fault => .error (.configRead path fault)
  | .ok text => (Config.parse text).mapError (.configParse path)

/-- The configuration of a run. A file that is named has to be there; otherwise the directory of
the run is searched, and then the working directory. -/
def findConfig (access : Access) (t : Tree) (workingDir root : Path) (name? : Option String) :
    Except RunError Config :=
  match name? with
  | some name => loadConfig name (t.readText access workingDir name)
  | none =>
    match [root, workingDir].find? fun dir => t.isFile (dir ++ [Config.fileName]) with
    | some dir =>
      let path := dir ++ [Config.fileName]
      loadConfig path.render (t.textAt access path)
    | none => .ok {}

/-! ## Files -/

/-- Patterns of files that are never converted. -/
def defaultIgnore : List String := ["**/node_modules/**", "**/dist/**"]

/-- The patterns that these texts stand for. -/
def parsePatterns (patterns : List String) : Except RunError (List (List Glob.Token)) :=
  patterns.mapM fun p => (Glob.parse p).mapError (.invalidGlob p)

/-- The path as seen from a directory above it. -/
def relativeName (root p : Path) : String :=
  join "/" (p.drop root.length)

/-- Puts a path in its place among paths in order. -/
def insertPath (p : Path) : List Path → List Path
  | [] => [p]
  | q :: rest => if q < p then q :: insertPath p rest else p :: q :: rest

/-- The paths in order. -/
def sortPaths : List Path → List Path := List.foldr insertPath []

/-- The files to convert, in order. A target that is a file is taken as it is. -/
def collectFiles (t : Tree) (target root backup : Path) (extensions : List String)
    (ignore : List (List Glob.Token)) : List Path :=
  if t.isFile target then [target]
  else
    let found := (t.below target).filter fun x =>
      x.2.isFile && !backup.isPrefixOf x.1 &&
        extensions.any (endsWith · (x.1.getLastD "")) &&
        !ignore.any (Glob.fits · (relativeName root x.1))
    sortPaths (found.map (·.1))

/-- Where the copy of a target goes: beside it, with a longer name. -/
def backupPath (target : Path) : Path :=
  target.dropLast ++ [target.getLastD "" ++ "_backup"]

/-- Makes a copy of the target in the place of an earlier one. -/
def makeBackup (access : Access) (t : Tree) (target backup : Path) : Tree × Option Files.Fault :=
  if Tree.isTooLong (backup.getLastD "") then (t, some .nameTooLong)
  else (t.remove backup).copyEntries access target backup (t.below target)

/-- The name of a file without what follows its last dot. A dot in front does not count. -/
def fileStem (name : String) : String :=
  let cs := name.toList.reverse
  match (cs.dropWhile (· != '.')).tail with
  | [] => name
  | stem => String.ofList stem.reverse

/-- The end of the names of files that are written beside others. -/
def defaultSuffix : String := ".setup.vue"

/-! ## Single files -/

/-- A file that was read and converted, if that was possible. -/
structure FileResult where
  path : Path
  source : String
  outcome : Except Files.Fault (Except Setup.FileError Setup.Outcome)

/-- Reads and converts a file. -/
def convertAt (access : Access) (t : Tree) (o : Setup.Options) (p : Path) : FileResult :=
  match t.textAt access p with
  | .error fault => ⟨p, "", .error fault⟩
  | .ok source => ⟨p, source, .ok (Setup.convertFile source o)⟩

/-- Writes a converted file. -/
def writeConverted (access : Access) (t : Tree) (mode : Mode) (suffix : String) (p : Path)
    (code : String) : Tree × Option Files.Fault :=
  match mode with
  | .inPlace => t.putEntry access p (.file code.toUTF8)
  | .sideBySide => t.writeText access p.dropLast (fileStem (p.getLastD "") ++ suffix) code

/-- What is left when files are finished one after the other: the tree, the counters so far and
what there is to report. -/
structure Progress (α : Type) where
  tree : Tree
  summary : Summary
  report : α

/-- Writes a file if it is converted, counts it and reports on it. -/
def finishFile (access : Access) (a : Arguments) (root : Path) (suffix : String) (t : Tree)
    (s : Summary) (r : FileResult) : Progress FileReport :=
  let fileName := relativeName root r.path
  match r.outcome with
  | .error fault =>
    ⟨t, { s with failed := s.failed + 1 },
      { fileName, source := r.source, status := .failed, unreadable? := some fault,
        reason? := some ("failed to read: " ++ fault.message) }⟩
  | .ok outcome =>
    let notices := Notice.ofOutcome outcome
    match outcome with
    | .error _ =>
      ⟨t, { s with failed := s.failed + 1 },
        { fileName, source := r.source, status := .failed, notices }⟩
    | .ok (.skipped reason) =>
      ⟨t, { s with skipped := s.skipped + 1 },
        { fileName, source := r.source, status := .skipped, reason? := some reason.text }⟩
    | .ok (.converted c) =>
      let warnings := c.findings.countP fun f : Finding => f.severity == .warning
      let s := { s with warnings := s.warnings + warnings }
      let report : FileReport := { fileName, source := r.source, status := .converted, notices }
      if a.dryRun then
        ⟨t, { s with converted := s.converted + 1 }, { report with output? := some c.code }⟩
      else
        match writeConverted access t a.mode suffix r.path c.code with
        | (t, none) => ⟨t, { s with converted := s.converted + 1 }, report⟩
        | (t, some fault) =>
          ⟨t, { s with failed := s.failed + 1 }, { report with
            status := .failed, reason? := some ("failed to write: " ++ fault.message) }⟩

/-- Finishes files one after the other. -/
def finishAll (access : Access) (a : Arguments) (root : Path) (suffix : String) (t : Tree)
    (s : Summary) : List FileResult → Progress (List FileReport)
  | [] => ⟨t, s, []⟩
  | r :: rest =>
    let first := finishFile access a root suffix t s r
    let later := finishAll access a root suffix first.tree first.summary rest
    { later with report := first.report :: later.report }

/-! ## Runs -/

/-- What a run is going to do. -/
structure Plan where
  /-- the file or directory to convert -/
  target : Path
  /-- the directory that file names are seen from -/
  root : Path
  files : List Path
  options : Setup.Options
  /-- the end of the names of files that are written beside others -/
  suffix : String

/-- Where the copy of the target goes. -/
def Plan.backup (p : Plan) : Path := backupPath p.target

/-- What a run in a working directory of a tree is going to do. -/
def Plan.make (access : Access) (t : Tree) (workingDir : Path) (a : Arguments) :
    Except RunError Plan := do
  let target ← (t.resolve workingDir a.path).mapError fun _ => .missingPath a.path
  let root := if t.isFile target then target.dropLast else target
  let config ← findConfig access t workingDir root a.config?
  let given ← parsePatterns (config.ignore ++ a.ignore)
  let always ← parsePatterns defaultIgnore
  return { target, root
           files := collectFiles t target root (backupPath target) config.fileExtensions
             (given ++ always)
           options := config.options a.framework?
           suffix := (a.suffix?.or config.suffix?).getD defaultSuffix }

/-- What a run has to say. -/
structure RunResult where
  reports : List FileReport
  summary : Summary
  out : String
  err : String

/-- What is said about these files. -/
def RunResult.ofReports (a : Arguments) (summary : Summary) (reports : List FileReport) :
    RunResult :=
  { reports, summary
    out := FileReport.standardOut a.format reports summary
    err := FileReport.standardError a.format reports }

/-- A copy of the target is made. -/
def Arguments.needsBackup (a : Arguments) : Bool :=
  a.mode == .inPlace && !a.noBackup && !a.dryRun

/-- Makes the copy that a run needs. -/
def Plan.prepare (p : Plan) (access : Access) (t : Tree) (a : Arguments) :
    Tree × Option Files.Fault :=
  if a.needsBackup && !p.files.isEmpty then makeBackup access t p.target p.backup else (t, none)

/-- Converts the files and writes them. All of them are read before the first is written. -/
def Plan.carryOut (p : Plan) (access : Access) (t : Tree) (a : Arguments) :
    Progress (List FileReport) :=
  finishAll access a p.root p.suffix t { failOnWarnings := a.failOnWarnings }
    (p.files.map (convertAt access t p.options))

/-- Runs in a working directory of a tree. Gives the tree as it is then, also when the run
stops. -/
def run (access : Access) (t : Tree) (workingDir : Path) (a : Arguments) :
    Tree × Except RunError RunResult :=
  match Plan.make access t workingDir a with
  | .error e => (t, .error e)
  | .ok p =>
    match p.prepare access t a with
    | (t, some fault) => (t, .error (.backup p.target.render fault))
    | (t, none) =>
      let done := p.carryOut access t a
      (done.tree, .ok (.ofReports a done.summary done.report))

end ScriptSetup.Migration
