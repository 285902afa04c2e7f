import ScriptSetup.Text.Lines

/-!
# File trees

A `Tree` holds the files and directories of a file system by their paths, without links. Names
are found in it as a file system does it: step by step from a directory, where every step needs a
directory to go on from.

What the system allows is kept apart, as an `Access`. An operation that is refused changes nothing,
but a file that was opened to be written has lost its content, and can be left with a part of what
was to be written.
-/

set_option autoImplicit false

namespace ScriptSetup.Files

open Text

/-- The names on the way from the root. -/
abbrev Path := List String

/-- The path as text. -/
def Path.render (p : Path) : String := "/" ++ join "/" p

/-- A file or a directory. -/
inductive Entry where
  | directory
  | file (bytes : ByteArray)
  deriving Inhabited

/-- It is a file. -/
def Entry.isFile : Entry → Bool
  | file _ => true
  | directory => false

/-- Why a file cannot be read or written. -/
inductive Fault where
  | notFound
  | notDirectory
  | isDirectory
  | nameTooLong
  /-- the system does not allow it -/
  | denied
  /-- there is no room for the bytes -/
  | noSpace
  /-- the bytes are not UTF-8 -/
  | notText
  /-- a name with a zero byte -/
  | zeroByte
  deriving DecidableEq, Repr, Inhabited

/-- The fault in words. -/
def Fault.message : Fault → String
  | notFound => "No such file or directory (os error 2)"
  | notDirectory => "Not a directory (os error 20)"
  | isDirectory => "Is a directory (os error 21)"
  | nameTooLong => "File name too long (os error 36)"
  | denied => "Permission denied (os error 13)"
  | noSpace => "No space left on device (os error 28)"
  | notText => "stream did not contain valid UTF-8"
  | zeroByte => "file name contained an unexpected NUL byte"

/-- What the system does not do at a path, and why. -/
structure Access where
  /-- reading the file there -/
  read : Path → Option Fault := fun _ => none
  /-- opening a file to write it, or making a directory there -/
  write : Path → Option Fault := fun _ => none
  /-- writing more than so many bytes into a file that is open -/
  breaksOff : Path → Option (Nat × Fault) := fun _ => none

/-! ## Entries in order -/

/-- Adds an entry, or puts it in the place of the one with the same path. -/
def insertEntry (p : Path) (e : Entry) : List (Path × Entry) → List (Path × Entry)
  | [] => [(p, e)]
  | (q, f) :: rest =>
    if p < q then (p, e) :: (q, f) :: rest
    else if p = q then (p, e) :: rest
    else (q, f) :: insertEntry p e rest

/-- Each path comes before those that follow it. -/
def Sorted (entries : List (Path × Entry)) : Prop :=
  entries.Pairwise fun a b => a.1 < b.1

theorem fst_of_mem_insertEntry {p : Path} {e : Entry} {entries : List (Path × Entry)}
    {x : Path × Entry} (h : x ∈ insertEntry p e entries) : x.1 = p ∨ x ∈ entries := by
  induction entries with
  | nil =>
    rw [insertEntry, List.mem_singleton] at h
    exact .inl (congrArg Prod.fst h)
  | cons y rest ih =>
    obtain ⟨q, f⟩ := y
    rw [insertEntry] at h
    split at h
    · rcases List.mem_cons.1 h with rfl | h
      · exact .inl rfl
      · exact .inr h
    · split at h
      · rcases List.mem_cons.1 h with rfl | h
        · exact .inl rfl
        · exact .inr (List.mem_cons_of_mem _ h)
      · rcases List.mem_cons.1 h with rfl | h
        · exact .inr List.mem_cons_self
        · exact (ih h).imp id (List.mem_cons_of_mem _)

theorem sorted_insertEntry {p : Path} {e : Entry} {entries : List (Path × Entry)}
    (h : Sorted entries) : Sorted (insertEntry p e entries) := by
  induction entries with
  | nil => exact List.pairwise_singleton _ _
  | cons y rest ih =>
    obtain ⟨q, f⟩ := y
    obtain ⟨hq, hr⟩ := List.pairwise_cons.1 h
    rw [insertEntry]
    split
    · rename_i hlt
      refine List.pairwise_cons.2 ⟨fun x hx => ?_, h⟩
      rcases List.mem_cons.1 hx with rfl | hx
      · exact hlt
      · exact List.lt_trans hlt (hq x hx)
    · split
      · rename_i heq
        exact List.pairwise_cons.2 ⟨fun x hx => heq ▸ hq x hx, hr⟩
      · rename_i hnlt hne
        refine List.pairwise_cons.2 ⟨fun x hx => ?_, ih hr⟩
        rcases fst_of_mem_insertEntry hx with rfl | hx
        · exact Classical.byContradiction fun h =>
            hne (Std.Trichotomous.trichotomous x.1 q hnlt h)
        · exact hq x hx

/-! ## Trees -/

/-- Files and directories by their paths. The root is a directory and has no entry. -/
structure Tree where
  entries : List (Path × Entry)
  sorted : Sorted entries

namespace Tree

/-- A tree with nothing below its root. -/
def empty : Tree := ⟨[], .nil⟩

instance : Inhabited Tree := ⟨empty⟩

/-- What stands at a path. -/
def get? (t : Tree) (p : Path) : Option Entry :=
  if p = [] then some .directory else t.entries.lookup p

/-- There is a directory at the path. -/
def isDirectory (t : Tree) (p : Path) : Bool :=
  match t.get? p with
  | some .directory => true
  | _ => false

/-- There is a file at the path. -/
def isFile (t : Tree) (p : Path) : Bool :=
  match t.get? p with
  | some (.file _) => true
  | _ => false

/-- Puts an entry at a path. -/
def put (t : Tree) (p : Path) (e : Entry) : Tree :=
  ⟨insertEntry p e t.entries, sorted_insertEntry t.sorted⟩

/-- The entries with such paths. -/
def filter (t : Tree) (keep : Path → Bool) : Tree :=
  ⟨t.entries.filter fun x => keep x.1, t.sorted.filter _⟩

/-- The path and everything below it is gone. -/
def remove (t : Tree) (p : Path) : Tree :=
  t.filter fun q => !p.isPrefixOf q

/-- The entries at a path and below it, in order. -/
def below (t : Tree) (p : Path) : List (Path × Entry) :=
  t.entries.filter fun x => p.isPrefixOf x.1

/-- Makes a directory or writes a file at a path. -/
def putEntry (access : Access) (t : Tree) (p : Path) (e : Entry) : Tree × Option Fault :=
  match access.write p with
  | some fault => (t, some fault)
  | none =>
    match e, access.breaksOff p with
    | .file bytes, some (n, fault) => (t.put p (.file (bytes.extract 0 n)), some fault)
    | e, _ => (t.put p e, none)

/-- Puts copies of the entries, which stand at and below `source`, at and below `target`. Stops
at the first one with a fault. -/
def copyEntries (access : Access) (source target : Path) (t : Tree) :
    List (Path × Entry) → Tree × Option Fault
  | [] => (t, none)
  | (p, e) :: rest =>
    match access.read p with
    | some fault => (t, some fault)
    | none =>
      match t.putEntry access (target ++ p.drop source.length) e with
      | (t, some fault) => (t, some fault)
      | (t, none) => copyEntries access source target t rest

/-! ## Names -/

/-- Names are at most this long, in bytes. -/
def maxNameLength : Nat := 255

/-- The name is too long. -/
def isTooLong (name : String) : Bool :=
  maxNameLength < name.utf8ByteSize

/-- Goes from an entry along names. An empty name and `.` stay, `..` goes up. -/
def walk (t : Tree) : Path → List String → Except Fault Path
  | here, [] => .ok here
  | here, name :: rest =>
    if !t.isDirectory here then .error .notDirectory
    else if name == "" || name == "." then walk t here rest
    else if name == ".." then walk t here.dropLast rest
    else if isTooLong name then .error .nameTooLong
    else if (t.get? (here ++ [name])).isNone then .error .notFound
    else walk t (here ++ [name]) rest

/-- The path of the entry with this name, as seen from a directory. -/
def resolve (t : Tree) (directory : Path) (name : String) : Except Fault Path :=
  if hasChar '\x00' name then .error .zeroByte
  else walk t (if startsWith "/" name then [] else directory) (splitAll '/' name)

/-- The bytes of a file as text. -/
def textAt (access : Access) (t : Tree) (p : Path) : Except Fault String :=
  match t.get? p with
  | none => .error .notFound
  | some .directory => .error .isDirectory
  | some (.file bytes) =>
    match access.read p with
    | some fault => .error fault
    | none =>
      match String.fromUTF8? bytes with
      | some text => .ok text
      | none => .error .notText

/-- The text of the file with this name, as seen from a directory. -/
def readText (access : Access) (t : Tree) (directory : Path) (name : String) :
    Except Fault String :=
  if name.isEmpty then .error .notFound
  else (t.resolve directory name).bind (t.textAt access)

/-- The path at which a file with this name would be written, as seen from a directory. -/
def destination (t : Tree) (directory : Path) (name : String) : Except Fault Path :=
  if hasChar '\x00' name then .error .zeroByte
  else
    match (splitAll '/' name).reverse.dropWhile (· == "") with
    | [] => .error .isDirectory
    | last :: before =>
      match walk t directory before.reverse with
      | .error e => .error e
      | .ok parent =>
        if !t.isDirectory parent then .error .notDirectory
        else if endsWith "/" name || last == "." || last == ".." then .error .isDirectory
        else if isTooLong last then .error .nameTooLong
        else if t.isDirectory (parent ++ [last]) then .error .isDirectory
        else .ok (parent ++ [last])

/-- Writes a text into the file with this name, as seen from a directory. -/
def writeText (access : Access) (t : Tree) (directory : Path) (name text : String) :
    Tree × Option Fault :=
  match t.destination directory name with
  | .error fault => (t, some fault)
  | .ok p => t.putEntry access p (.file text.toUTF8)

end Tree

end ScriptSetup.Files
