import ScriptSetup.Json.Comments
import ScriptSetup.Json.Scan
import ScriptSetup.Setup.Convert

/-!
# Configuration

A configuration is a JSON object in which every key may be missing, or a list of the values of
all keys in order, of which only the first two may be missing. Comments are allowed.
-/

set_option autoImplicit false

namespace ScriptSetup.Migration

open Json

/-- The settings of a configuration. -/
structure Config where
  /-- ends of the names of the files to convert -/
  extensions : List String := []
  /-- patterns of files to leave out -/
  ignore : List String := []
  /-- imports to drop, in place of the usual ones -/
  denied? : Option (List String) := none
  /-- the module that the generated import names -/
  framework? : Option String := none
  /-- the end of the name of a file that is written beside another -/
  suffix? : Option String := none
  deriving DecidableEq, Repr, Inhabited

namespace Config

/-- The name of a configuration file. -/
def fileName : String := "vue-setup.config.json"

/-- The keys of a configuration, in order. -/
inductive Field where
  | extensions | ignore | denied | framework | suffix
  deriving DecidableEq, Repr, Inhabited

/-- All keys. -/
def Field.all : List Field := [.extensions, .ignore, .denied, .framework, .suffix]

/-- A key as written. -/
def Field.key : Field → String
  | extensions => "extensions"
  | ignore => "ignore"
  | denied => "deniedImports"
  | framework => "frameworkModule"
  | suffix => "suffix"

/-- The key that is written so. -/
def Field.ofKey? (key : String) : Option Field :=
  Field.all.find? (·.key == key)

/-- Reads the value of a key. -/
def readField (c : Config) (cs : List Char) : Field → Except Fault (Config × List Char)
  | .extensions => (readStrings cs).map fun r => ({ c with extensions := r.1 }, r.2)
  | .ignore => (readStrings cs).map fun r => ({ c with ignore := r.1 }, r.2)
  | .denied => (readNullable readStrings cs).map fun r => ({ c with denied? := r.1 }, r.2)
  | .framework => (readNullable readString cs).map fun r => ({ c with framework? := r.1 }, r.2)
  | .suffix => (readNullable readString cs).map fun r => ({ c with suffix? := r.1 }, r.2)

theorem length_erase_lt {f : Field} {missing : List Field} (h : f ∈ missing) :
    (missing.erase f).length < missing.length := by
  rw [List.length_erase_of_mem h]
  exact Nat.sub_lt (List.length_pos_of_mem h) Nat.one_pos

/-- Reads the members of an object up to its end. Each of `missing` may stand once, and no other
key may. -/
def readMembers (first : Bool) (missing : List Field) (c : Config) (cs : List Char) :
    Except Fault (Config × List Char) :=
  match nextKey first cs with
  | .error e => .error e
  | .ok (none, rest) => .ok (c, rest)
  | .ok (some key, rest) =>
    match Field.ofKey? key with
    | none => .error .unfit
    | some f =>
      if h : f ∈ missing then
        have := length_erase_lt h
        match (colon rest).bind (readField c · f) with
        | .error e => .error e
        | .ok (c, rest) => readMembers false (missing.erase f) c rest
      else .error .unfit
  termination_by missing.length
  decreasing_by exact this

/-- Reads the values of all keys up to the end of the list. -/
def readValues (cs : List Char) : Except Fault (Config × List Char) := do
  let (extensions, cs) ← readElement true readStrings cs
  let (ignore, cs) ← readElement false readStrings cs
  let (denied, cs) ← readElement false (readNullable readStrings) cs
  let some denied := denied | throw .unfit
  let (framework, cs) ← readElement false (readNullable readString) cs
  let some framework := framework | throw .unfit
  let (suffix, cs) ← readElement false (readNullable readString) cs
  let some suffix := suffix | throw .unfit
  let cs ← closeList cs
  return (⟨extensions.getD [], ignore.getD [], denied, framework, suffix⟩, cs)

/-- Reads a configuration. -/
def read (cs : List Char) : Except Fault (Config × List Char) :=
  match skipSpace cs with
  | [] => .error .truncated
  | c :: rest =>
    if c = '[' then readValues rest
    else if c = '\x7b' then readMembers true Field.all {} rest
    else .error (unfitValue (c :: rest))

/-- The configuration that a text holds. -/
def parse (text : String) : Except Fault Config := do
  let (c, rest) ← read (withoutComments text).toList
  close rest
  return c

/-- The ends of the names of the files to convert. -/
def fileExtensions (c : Config) : List String :=
  if c.extensions.isEmpty then [".vue"] else c.extensions

/-- How logic blocks are converted. A framework that is given beside the configuration goes
before. -/
def options (c : Config) (framework? : Option String) : Setup.Options :=
  let base : Setup.Options := {}
  { framework := (framework?.or c.framework?).getD base.framework
    denied := c.denied?.getD base.denied }

end Config

end ScriptSetup.Migration
