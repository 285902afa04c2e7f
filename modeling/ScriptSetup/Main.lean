import ScriptSetup.Migration.Run

/-!
# The command

The command reads the part of the file system that a run can see into a tree, runs, writes what
has changed, and prints the reports.
-/

set_option autoImplicit false

namespace ScriptSetup.Command

open Files Migration Text

/-- The version of the command. -/
def version : String := "vue-setup-migrate 0.3.0"

/-- How the command is used. -/
def usage : String :=
  join "\n"
    ["Migrates Vue class components to <script setup>",
      "",
      "Usage: vue-setup-migrate [OPTIONS] <PATH>",
      "",
      "Arguments:",
      "  <PATH>  File or directory to migrate",
      "",
      "Options:",
      "      --mode <MODE>            Where converted components are written: " ++
        "in-place or side-by-side",
      "      --suffix <SUFFIX>        Suffix of the file written beside each component",
      "      --no-backup              Skip the copy made before writing in place",
      "      --dry-run                Print converted components instead of writing them",
      "      --output <OUTPUT>        Output format: human, json or machine",
      "      --ignore <IGNORE>        Glob patterns to ignore",
      "      --config <CONFIG>        Path to the JSON configuration file",
      "      --framework <FRAMEWORK>  Module the generated framework import points at",
      "      --fail-on-warnings       Exit with error on warnings",
      "  -v, --verbose                Enable debug logging",
      "  -h, --help                   Print help",
      "  -V, --version                Print version"]

/-- Arguments that are not taken, in words. -/
def argumentsMessage : ArgumentsFault → String
  | .missingPath => "error: the required argument <PATH> was not provided"
  | .unknown => "error: unexpected argument found"
  | .invalidValue => "error: an option has no value or an invalid one"
  | .repeated => "error: an argument cannot be used multiple times"
  | .unneededValue => "error: unexpected value for a flag"
  | .help => usage
  | .version => version

/-! ## Reading the file system -/

/-- The names on a path. -/
def namesOf (path : String) : Path :=
  (splitAll '/' path).filter (!·.isEmpty)

/-- Adds the directories above a path. -/
def putAbove (t : Tree) (p : Path) : Tree :=
  (List.range (p.length - 1)).foldl (fun t n => t.put (p.take (n + 1)) .directory) t

/-- Adds what stands at a path, and below it down to `depth` levels. -/
def load (depth : Nat) (p : Path) (t : Tree) : IO Tree := do
  let real ← IO.FS.realPath p.render
  if ← real.isDir then
    let t := if p.isEmpty then t else t.put p .directory
    match depth with
    | 0 => return t
    | depth + 1 =>
      (← real.readDir).foldlM (fun t entry => load depth (p ++ [entry.fileName]) t) t
  else if ← real.pathExists then return t.put p (.file (← IO.FS.readBinFile real))
  else return t

/-- Adds all that a name leads over, as seen from a directory, and what stands at its end down to
`depth` levels. -/
def loadWay (directory : Path) (name : String) (depth : Nat) (t : Tree) : IO Tree := do
  let names := splitAll '/' name
  let start := if startsWith "/" name then [] else directory
  (List.range (names.length + 1)).foldlM (fun t n => do
    let way : Path := start ++ names.take n
    try
      let p := namesOf (← IO.FS.realPath way.render).toString
      load (if n = names.length then depth else 0) p (putAbove t p)
    catch _ => return t) t

/-- More levels than a file system has. -/
def allLevels : Nat := 4096

/-- The part of the file system that a run can see. -/
def snapshot (workingDir : Path) (a : Arguments) : IO Tree := do
  let t ← loadWay workingDir "." 1 Tree.empty
  let t ← loadWay workingDir a.path allLevels t
  let t ← match a.config? with
    | some name => loadWay workingDir name 0 t
    | none => pure t
  match t.resolve workingDir a.path with
  | .error _ => return t
  | .ok target =>
    let t ← loadWay target.dropLast "." 1 t
    loadWay [] (backupPath target).render allLevels t

/-! ## Writing the file system -/

/-- Both are directories, or files with the same bytes. -/
def same : Option Entry → Entry → Bool
  | some .directory, .directory => true
  | some (.file a), .file b => a == b
  | _, _ => false

/-- Makes the changes between two trees. -/
def store (before after : Tree) : IO Unit := do
  for (p, e) in before.entries.reverse do
    if (after.get? p).isNone then
      if e.isFile then IO.FS.removeFile p.render else IO.FS.removeDirAll p.render
  for (p, e) in after.entries do
    unless same (before.get? p) e do
      match e with
      | .directory => IO.FS.createDirAll p.render
      | .file bytes => IO.FS.writeBinFile p.render bytes

/-- Runs the command. -/
def execute (args : List String) : IO UInt32 := do
  match Arguments.parse args with
  | .error e =>
    if e == .help || e == .version then
      IO.println (argumentsMessage e)
      return 0
    else
      IO.eprintln (argumentsMessage e)
      return 2
  | .ok a =>
    let workingDir := namesOf (← IO.currentDir).toString
    let t ← snapshot workingDir a
    let (after, outcome) := run {} t workingDir a
    store t after
    match outcome with
    | .error e =>
      IO.eprintln ("Error: " ++ e.code ++ "\n\n  " ++ e.message)
      if let some help := e.help? then IO.eprintln ("  help: " ++ help)
      return 1
    | .ok r =>
      IO.print r.out
      IO.eprint r.err
      return if r.summary.isFailure then 1 else 0

end ScriptSetup.Command

/-- The command. -/
def main (args : List String) : IO UInt32 :=
  ScriptSetup.Command.execute args
