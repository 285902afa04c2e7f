/-!
# Patterns for paths

A `Glob` is a pattern for the paths of files: `?` stands for one byte, `*` for any bytes, also a
slash, `[ab-d]` for one byte of a class, `{a,b}` for one of several patterns, and `**` between
slashes for any number of directories. A backslash takes the meaning of the character after it.

`Glob.parse` reads a pattern from its text.
-/

set_option autoImplicit false

namespace ScriptSetup.Glob

/-- A part of a pattern. -/
inductive Token where
  | literal (c : Char)
  /-- `?` -/
  | any
  /-- `*` -/
  | star
  /-- `**` before a slash at the start, or a whole pattern: any directories, or none -/
  | anyStart
  /-- `**` after a slash at the end: everything below -/
  | anyEnd
  /-- `**` between slashes: any directories, or none -/
  | anyMiddle
  /-- one of a class, or none of it when negated -/
  | oneOf (negated : Bool) (ranges : List (Char × Char))
  /-- one of several patterns -/
  | alternatives (branches : List (List Token))
  deriving Repr, Inhabited

/-- Why a text is no pattern. -/
inductive Fault where
  | unclosedGroup
  | unopenedGroup
  | unclosedClass
  /-- the start of a range comes after its end -/
  | invalidRange (first last : Char)
  /-- a backslash at the end -/
  | danglingEscape
  deriving DecidableEq, Repr, Inhabited

/-- The fault in words. -/
def Fault.message : Fault → String
  | unclosedGroup =>
    "unclosed alternate group; missing '\x7d' (maybe escape '\x7b' with '[\x7b]'?)"
  | unopenedGroup =>
    "unopened alternate group; missing '\x7b' (maybe escape '\x7d' with '[\x7d]'?)"
  | unclosedClass => "unclosed character class; missing ']'"
  | invalidRange first last =>
    "invalid range; '" ++ String.singleton first ++ "' > '" ++ String.singleton last ++ "'"
  | danglingEscape => "dangling '\\'"

/-! ## Classes -/

/-- Where the reading of a class stands. -/
structure ClassState where
  /-- the last range first -/
  ranges : List (Char × Char)
  /-- nothing has been read yet -/
  first : Bool
  /-- a hyphen was read that may join the last character with the next one -/
  joining : Bool
  deriving DecidableEq, Repr, Inhabited

/-- Reads one character of a class. -/
def ClassState.add (s : ClassState) (c : Char) : Except Fault ClassState :=
  if s.joining then
    match s.ranges with
    | (lo, _) :: rest =>
      if c < lo then .error (.invalidRange lo c) else .ok ⟨(lo, c) :: rest, false, false⟩
    | [] => .ok ⟨[(c, c)], false, false⟩
  else if c = '-' && !s.first then .ok { s with joining := true }
  else .ok ⟨(c, c) :: s.ranges, false, false⟩

/-- The ranges of a class that is closed here. A hyphen at the end stands for itself. -/
def ClassState.close (s : ClassState) : List (Char × Char) :=
  ((if s.joining then ('-', '-') :: s.ranges else s.ranges)).reverse

/-- Reads a class up to its closing bracket. A bracket in front stands for itself. -/
def readRanges (s : ClassState) : List Char → Except Fault (List (Char × Char) × List Char)
  | [] => .error .unclosedClass
  | c :: cs =>
    if c = ']' && !s.first then .ok (s.close, cs)
    else
      match s.add c with
      | .error e => .error e
      | .ok next => readRanges next cs

/-- The class that starts here is negated. -/
def isNegated (cs : List Char) : Bool :=
  cs.head? == some '!' || cs.head? == some '^'

/-- Reads a class after its opening bracket. -/
def readClass (cs : List Char) : Except Fault (Token × List Char) :=
  let body := if isNegated cs then cs.tail else cs
  (readRanges ⟨[], true, false⟩ body).map fun r => (.oneOf (isNegated cs) r.1, r.2)

theorem readRanges_length {s : ClassState} {cs : List Char}
    {r : List (Char × Char) × List Char} (h : readRanges s cs = .ok r) :
    r.2.length < cs.length := by
  induction cs generalizing s with
  | nil => cases h
  | cons c cs ih =>
    rw [readRanges] at h
    split at h
    · cases h
      exact Nat.lt_succ_self _
    · split at h
      · cases h
      · exact Nat.lt_succ_of_lt (ih h)

theorem readClass_length {cs rest : List Char} {t : Token} (h : readClass cs = .ok (t, rest)) :
    rest.length < cs.length := by
  simp only [readClass] at h
  generalize hb : (if isNegated cs then cs.tail else cs) = body at h
  have hl : body.length ≤ cs.length := by
    rw [← hb]
    split
    · rw [List.length_tail]
      exact Nat.sub_le _ _
    · exact Nat.le_refl _
  cases hr : readRanges ⟨[], true, false⟩ body with
  | error e =>
    rw [hr] at h
    cases h
  | ok r =>
    rw [hr] at h
    cases h
    exact Nat.lt_of_lt_of_le (readRanges_length hr) hl

/-! ## Patterns -/

/-- Where the reading of a pattern stands. -/
structure State where
  /-- the branch that is being read, its last part first -/
  tokens : List Token
  /-- the open groups, the innermost first: the branch around it, its last part first, and the
  branches that are read, the last one first -/
  groups : List (List Token × List (List Token))
  deriving Inhabited

namespace State

/-- Adds a part. -/
def push (s : State) (t : Token) : State :=
  { s with tokens := t :: s.tokens }

/-- Inside a group. -/
def inGroup (s : State) : Bool := !s.groups.isEmpty

/-- Opens a group. -/
def openGroup (s : State) : State :=
  ⟨[], (s.tokens, []) :: s.groups⟩

/-- Closes the innermost group. -/
def closeGroup (s : State) : Except Fault State :=
  match s.groups with
  | [] => .error .unopenedGroup
  | (outer, branches) :: groups =>
    .ok ⟨.alternatives (s.tokens.reverse :: branches).reverse :: outer, groups⟩

/-- A comma ends a branch of a group, and elsewhere stands for itself. -/
def comma (s : State) : State :=
  match s.groups with
  | [] => s.push (.literal ',')
  | (outer, branches) :: groups => ⟨[], (outer, s.tokens.reverse :: branches) :: groups⟩

/-- Puts `t` in the place of the slash before it. After another `**` that one stays. -/
def replaceLast (s : State) (t : Token) : State :=
  match s.tokens with
  | .anyStart :: _ | .anyEnd :: _ | [] => s
  | _ :: rest => { s with tokens := t :: rest }

/-- Reads `**`, where `previous` stands before it and `rest` after it. Gives the character before
what is read next, and that. -/
def doubleStar (s : State) (previous : Option Char) (rest : List Char) :
    State × Char × List Char :=
  let plain := ((s.push .star).push .star, '*', rest)
  if s.tokens.isEmpty then
    match rest with
    | [] => (s.push .anyStart, '*', [])
    | c :: tail => if c = '/' then (s.push .anyStart, c, tail) else plain
  else if previous = some '/' ||
      (s.inGroup && (previous = some ',' || previous = some '\x7b')) then
    match rest with
    | [] => (s.replaceLast .anyEnd, '*', [])
    | c :: tail =>
      if s.inGroup && (c = ',' || c = '\x7d') then (s.replaceLast .anyEnd, '*', rest)
      else if c = '/' then (s.replaceLast .anyMiddle, c, tail)
      else plain
  else plain

theorem doubleStar_length (s : State) (previous : Option Char) (rest : List Char) :
    (s.doubleStar previous rest).2.2.length ≤ rest.length := by
  unfold doubleStar
  dsimp only
  split
  · split
    · exact Nat.le_refl _
    · split
      · exact Nat.le_succ _
      · exact Nat.le_refl _
  · split
    · split
      · exact Nat.le_refl _
      · split
        · exact Nat.le_refl _
        · split
          · exact Nat.le_succ _
          · exact Nat.le_refl _
    · exact Nat.le_refl _

end State

/-- Reads the pattern on; `previous` stands before it. -/
def parseFrom (previous : Option Char) (s : State) : List Char → Except Fault (List Token)
  | [] => if s.inGroup then .error .unclosedGroup else .ok s.tokens.reverse
  | c :: cs =>
    if c = '*' then
      if cs.head? = some '*' then
        have := s.doubleStar_length previous cs.tail
        let next := s.doubleStar previous cs.tail
        parseFrom next.2.1 next.1 next.2.2
      else parseFrom c (s.push .star) cs
    else if c = '?' then parseFrom c (s.push .any) cs
    else if c = '[' then
      match h : readClass cs with
      | .error e => .error e
      | .ok (t, rest) =>
        have := readClass_length h
        parseFrom ']' (s.push t) rest
    else if c = '\x7b' then parseFrom c s.openGroup cs
    else if c = '\x7d' then
      match s.closeGroup with
      | .error e => .error e
      | .ok next => parseFrom c next cs
    else if c = ',' then parseFrom c s.comma cs
    else if c = '\\' then
      match cs.head? with
      | none => .error .danglingEscape
      | some d => parseFrom d (s.push (.literal d)) cs.tail
    else parseFrom c (s.push (.literal c)) cs
  termination_by cs => cs.length
  decreasing_by all_goals simp only [List.length_cons, List.length_tail] at *; omega

/-- The pattern that a text stands for. -/
def parse (text : String) : Except Fault (List Token) :=
  parseFrom none ⟨[], []⟩ text.toList

end ScriptSetup.Glob
