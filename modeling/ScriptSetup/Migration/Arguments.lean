import ScriptSetup.Text.Lines

/-!
# Arguments

`Arguments.parse` reads the arguments of a run from left to right. The value of an option is
looked at only when the next argument is taken: an argument that cannot be taken at all is
reported before a wrong value in front of it.
-/

set_option autoImplicit false

namespace ScriptSetup.Migration

/-- Where converted components are written. -/
inductive Mode where
  /-- over the file they come from -/
  | inPlace
  /-- into a new file beside it -/
  | sideBySide
  deriving DecidableEq, Repr, Inhabited

/-- The mode that is written so. -/
def Mode.ofText? : String → Option Mode
  | "in-place" => some inPlace
  | "side-by-side" => some sideBySide
  | _ => none

/-- How a run reports. -/
inductive Format where
  /-- for people, with the line that a finding is about -/
  | human
  | json
  /-- one line for each finding -/
  | machine
  deriving DecidableEq, Repr, Inhabited

/-- The format that is written so. -/
def Format.ofText? : String → Option Format
  | "human" => some human
  | "json" => some json
  | "machine" => some machine
  | _ => none

/-- What a run is asked to do. -/
structure Arguments where
  /-- the file or directory to convert -/
  path : String
  mode : Mode := .inPlace
  /-- the end of the name of a file that is written beside another -/
  suffix? : Option String := none
  /-- makes no copy before files are written in place -/
  noBackup : Bool := false
  /-- shows converted components and writes nothing -/
  dryRun : Bool := false
  format : Format := .human
  /-- patterns of files to leave out -/
  ignore : List String := []
  /-- the configuration file -/
  config? : Option String := none
  framework? : Option String := none
  failOnWarnings : Bool := false
  verbose : Bool := false
  deriving DecidableEq, Repr, Inhabited

/-- Why arguments are not taken. -/
inductive ArgumentsFault where
  /-- there is no path -/
  | missingPath
  /-- an argument that means nothing here -/
  | unknown
  /-- an option without a value or with a wrong one -/
  | invalidValue
  /-- an option or a flag that may stand only once -/
  | repeated
  /-- a value for a flag -/
  | unneededValue
  /-- not a fault: help is asked for -/
  | help
  /-- not a fault: the version is asked for -/
  | version
  deriving DecidableEq, Repr, Inhabited

namespace Arguments

/-! ## Options and flags -/

/-- The arguments that say all by standing there. -/
inductive Flag where
  | noBackup | dryRun | failOnWarnings | verbose | help | version
  deriving DecidableEq, Repr, Inhabited

/-- The arguments that take a value. -/
inductive Setting where
  | mode | suffix | output | ignore | config | framework
  deriving DecidableEq, Repr, Inhabited

/-- The flag that is written so after two hyphens. -/
def Flag.ofName? : String → Option Flag
  | "no-backup" => some noBackup
  | "dry-run" => some dryRun
  | "fail-on-warnings" => some failOnWarnings
  | "verbose" => some verbose
  | "help" => some help
  | "version" => some version
  | _ => none

/-- The flag that is written so after one hyphen. -/
def Flag.ofLetter? : Char → Option Flag
  | 'v' => some verbose
  | 'h' => some help
  | 'V' => some version
  | _ => none

/-- The option that is written so after two hyphens. -/
def Setting.ofName? : String → Option Setting
  | "mode" => some mode
  | "suffix" => some suffix
  | "output" => some output
  | "ignore" => some ignore
  | "config" => some config
  | "framework" => some framework
  | _ => none

/-- The option may have this value. -/
def Setting.accepts (s : Setting) (value : String) : Bool :=
  match s with
  | mode => (Mode.ofText? value).isSome
  | output => (Format.ofText? value).isSome
  | _ => true

/-- The option may stand more than once. -/
def Setting.isRepeatable (s : Setting) : Bool := s == ignore

/-- An argument by its form. -/
inductive Shape where
  /-- `--` -/
  | separator
  /-- `--name` or `--name=value` -/
  | long (name : String) (value? : Option String)
  /-- `-letters` -/
  | short (letters : List Char)
  | plain
  deriving DecidableEq, Repr, Inhabited

/-- The form of an argument. A single hyphen is plain. -/
def Shape.of (arg : String) : Shape :=
  match arg.toList with
  | ['-', '-'] => separator
  | '-' :: '-' :: rest =>
    match Text.splitOnce? '=' (String.ofList rest) with
    | some (name, value) => long name (some value)
    | none => long (String.ofList rest) none
  | '-' :: c :: rest => short (c :: rest)
  | _ => plain

/-! ## Reading -/

/-- The arguments read so far. -/
structure Draft where
  path? : Option String := none
  flags : List Flag := []
  values : List (Setting × String) := []
  /-- the last option, with its value if that has come, before it is looked at -/
  pending? : Option (Setting × Option String) := none
  /-- after `--` nothing is an option -/
  plainOnly : Bool := false
  deriving DecidableEq, Repr, Inhabited

namespace Draft

/-- Gives an option a value. -/
def give (d : Draft) (s : Setting) (value : String) : Except ArgumentsFault Draft :=
  if !s.isRepeatable && d.values.any (·.1 == s) then .error .repeated
  else if s.accepts value then .ok { d with values := d.values ++ [(s, value)] }
  else .error .invalidValue

/-- Looks at the last option. -/
def settle (d : Draft) : Except ArgumentsFault Draft :=
  match d.pending? with
  | none => .ok d
  | some (_, none) => .error .invalidValue
  | some (s, some value) => { d with pending? := none }.give s value

/-- Sets a flag. -/
def raise (d : Draft) (f : Flag) : Except ArgumentsFault Draft := do
  let d ← d.settle
  match f with
  | .help => throw .help
  | .version => throw .version
  | f =>
    if d.flags.contains f then throw .repeated
    else return { d with flags := d.flags ++ [f] }

/-- Takes the path. -/
def takePath (d : Draft) (arg : String) : Except ArgumentsFault Draft := do
  if d.path?.isSome then throw .unknown
  return { ← d.settle with path? := some arg }

/-- Takes `--name` or `--name=value`. -/
def takeLong (d : Draft) (name : String) (value? : Option String) :
    Except ArgumentsFault Draft :=
  match Flag.ofName? name, Setting.ofName? name, value? with
  | some f, _, none => d.raise f
  | some _, _, some _ => .error .unneededValue
  | none, some s, some value => d.settle.bind (·.give s value)
  | none, some s, none => d.settle.map fun d => { d with pending? := some (s, none) }
  | none, none, _ => .error .unknown

/-- Takes one letter after a hyphen. -/
def takeLetter (d : Draft) (c : Char) : Except ArgumentsFault Draft :=
  match Flag.ofLetter? c with
  | some f => d.raise f
  | none => .error .unknown

/-- Takes one argument. -/
def take (d : Draft) (arg : String) : Except ArgumentsFault Draft :=
  if d.plainOnly then d.takePath arg
  else
    match Shape.of arg with
    | .separator => .ok { d with plainOnly := true }
    | .long name value? => d.takeLong name value?
    | .short letters => letters.foldlM takeLetter d
    | .plain =>
      match d.pending? with
      | some (s, none) => .ok { d with pending? := some (s, some arg) }
      | _ => d.takePath arg

/-- The value of an option that stands once. -/
def value? (d : Draft) (s : Setting) : Option String :=
  d.values.lookup s

/-- The arguments when all are read. -/
def finish (d : Draft) : Except ArgumentsFault Arguments := do
  let d ← d.settle
  let some path := d.path? | throw .missingPath
  let flag (f : Flag) : Bool := d.flags.contains f
  return {
    path
    mode := ((d.value? .mode).bind Mode.ofText?).getD .inPlace
    suffix? := d.value? .suffix
    noBackup := flag .noBackup
    dryRun := flag .dryRun
    format := ((d.value? .output).bind Format.ofText?).getD .human
    ignore := (d.values.filter (·.1 == .ignore)).map (·.2)
    config? := d.value? .config
    framework? := d.value? .framework
    failOnWarnings := flag .failOnWarnings
    verbose := flag .verbose }

end Draft

/-- What the arguments ask for. -/
def parse (args : List String) : Except ArgumentsFault Arguments := do
  (← args.foldlM Draft.take {}).finish

end Arguments

end ScriptSetup.Migration
