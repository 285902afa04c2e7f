import ScriptSetup.Json.Number
import ScriptSetup.Text.Span

/-!
# Reading JSON of a known shape

What is read here is known before: a text, a list of texts, or such a value that may be `null`.
A reader takes the characters before it and gives a value and the characters that follow, and it
stops at the first fault. So a value of a wrong kind is found before anything after it is looked
at: see `unfitValue`.

The lemmas say that every reader leaves fewer characters than it got.
-/

set_option autoImplicit false

namespace ScriptSetup.Json

open Text

/-! ## White space -/

/-- White space between tokens. -/
def isSpace (c : Char) : Bool :=
  c == ' ' || c == '\n' || c == '\t' || c == '\r'

/-- The text from its next token on. -/
def skipSpace (cs : List Char) : List Char :=
  cs.dropWhile isSpace

theorem skipSpace_length (cs : List Char) : (skipSpace cs).length ≤ cs.length :=
  (List.dropWhile_suffix isSpace).length_le

/-! ## Texts -/

/-- The value of a hexadecimal digit. -/
def hexValue? (c : Char) : Option Nat :=
  if '0' ≤ c && c ≤ '9' then some (c.toNat - '0'.toNat)
  else if 'a' ≤ c && c ≤ 'f' then some (c.toNat - 'a'.toNat + 10)
  else if 'A' ≤ c && c ≤ 'F' then some (c.toNat - 'A'.toNat + 10)
  else none

/-- Four hexadecimal digits. They are missing when fewer than four bytes are left. -/
def hexUnit (cs : List Char) : Except Fault (Nat × List Char) :=
  if byteLength (cs.take 4) < 4 then .error .truncated
  else
    match (cs.take 4).mapM hexValue? with
    | some [a, b, c, d] => .ok (((a * 16 + b) * 16 + c) * 16 + d, cs.drop 4)
    | _ => .error .malformed

/-- The first of two units that stand for one character. -/
def isLeadUnit (n : Nat) : Bool := 0xD800 ≤ n && n ≤ 0xDBFF

/-- The second of two such units. -/
def isTrailUnit (n : Nat) : Bool := 0xDC00 ≤ n && n ≤ 0xDFFF

/-- The second unit, with the escape before it. -/
def trailUnit : List Char → Except Fault (Nat × List Char)
  | [] => .error .truncated
  | '\\' :: [] => .error .truncated
  | '\\' :: 'u' :: rest => hexUnit rest
  | _ => .error .malformed

/-- An escaped character by its number, after `\u`. -/
def unitEscape (cs : List Char) : Except Fault (Char × List Char) :=
  match hexUnit cs with
  | .error e => .error e
  | .ok (n, rest) =>
    if isTrailUnit n then .error .malformed
    else if isLeadUnit n then
      match trailUnit rest with
      | .error e => .error e
      | .ok (m, rest) =>
        if isTrailUnit m then
          .ok (Char.ofNat (0x10000 + (n - 0xD800) * 0x400 + (m - 0xDC00)), rest)
        else .error .malformed
    else .ok (Char.ofNat n, rest)

/-- The character that a letter stands for after a backslash. -/
def escapedChar? (c : Char) : Option Char :=
  match c with
  | '"' | '\\' | '/' => some c
  | 'b' => some '\x08'
  | 'f' => some '\x0c'
  | 'n' => some '\n'
  | 'r' => some '\r'
  | 't' => some '\t'
  | _ => none

/-- An escaped character, after its backslash. -/
def escape : List Char → Except Fault (Char × List Char)
  | [] => .error .truncated
  | c :: rest =>
    if c = 'u' then unitEscape rest
    else
      match escapedChar? c with
      | some d => .ok (d, rest)
      | none => .error .malformed

theorem hexUnit_length {cs rest : List Char} {n : Nat} (h : hexUnit cs = .ok (n, rest)) :
    rest.length ≤ cs.length := by
  unfold hexUnit at h
  split at h
  · cases h
  · split at h
    · cases h
      rw [List.length_drop]
      exact Nat.sub_le _ _
    · cases h

theorem trailUnit_length {cs rest : List Char} {n : Nat} (h : trailUnit cs = .ok (n, rest)) :
    rest.length ≤ cs.length := by
  unfold trailUnit at h
  split at h
  · cases h
  · cases h
  · exact Nat.le_succ_of_le (Nat.le_succ_of_le (hexUnit_length h))
  · cases h

theorem unitEscape_length {cs rest : List Char} {c : Char} (h : unitEscape cs = .ok (c, rest)) :
    rest.length ≤ cs.length := by
  unfold unitEscape at h
  split at h
  · cases h
  · rename_i hn
    have hl := hexUnit_length hn
    split at h
    · cases h
    · split at h
      · split at h
        · cases h
        · rename_i hm
          split at h
          · simp only [Except.ok.injEq, Prod.mk.injEq] at h
            exact h.2 ▸ Nat.le_trans (trailUnit_length hm) hl
          · cases h
      · cases h
        exact hl

theorem escape_length {cs rest : List Char} {c : Char} (h : escape cs = .ok (c, rest)) :
    rest.length ≤ cs.length := by
  unfold escape at h
  split at h
  · cases h
  · rename_i d tail
    have hl : tail.length ≤ (d :: tail).length := Nat.le_succ _
    split at h
    · exact Nat.le_trans (unitEscape_length h) hl
    · split at h
      · cases h
        exact hl
      · cases h

/-- A text after its opening quote. -/
def stringBody : List Char → Except Fault (List Char × List Char)
  | [] => .error .truncated
  | c :: cs =>
    if c = '"' then .ok ([], cs)
    else if c = '\\' then
      match h : escape cs with
      | .error e => .error e
      | .ok (d, rest) =>
        have := escape_length h
        (stringBody rest).map fun r => (d :: r.1, r.2)
    else if c.toNat < 0x20 then .error .malformed
    else (stringBody cs).map fun r => (c :: r.1, r.2)
  termination_by cs => cs.length
  decreasing_by
    · exact Nat.lt_succ_of_le this
    · simp

theorem stringBody_length {cs : List Char} {r : List Char × List Char}
    (h : stringBody cs = .ok r) : r.2.length < cs.length := by
  have later {c d : Char} {cs rest : List Char} {r : List Char × List Char}
      (hl : rest.length ≤ cs.length)
      (ih : ∀ {r : List Char × List Char}, stringBody rest = .ok r → r.2.length < rest.length)
      (h : (stringBody rest).map (fun r => (d :: r.1, r.2)) = .ok r) :
      r.2.length < (c :: cs).length := by
    cases hr : stringBody rest with
    | error e =>
      rw [hr] at h
      cases h
    | ok inner =>
      rw [hr] at h
      cases h
      exact Nat.lt_succ_of_le (Nat.le_trans (Nat.le_of_lt (ih (r := inner) hr)) hl)
  fun_induction stringBody cs generalizing r with
  | case1 => cases h
  | case2 =>
    cases h
    exact Nat.lt_succ_self _
  | case3 => cases h
  | case4 _ _ _ he _ _ ih => exact later (escape_length he) ih h
  | case5 => cases h
  | case6 c cs _ _ _ ih => exact later (Nat.le_refl _) ih h

/-! ## Values -/

/-- The rest of a word that has to stand here. -/
def word : List Char → List Char → Except Fault (List Char)
  | [], cs => .ok cs
  | _ :: _, [] => .error .truncated
  | w :: ws, c :: cs => if c = w then word ws cs else .error .malformed

/-- Why the value that starts here is refused where its kind may not stand. A number, a text or
a word is read to its end first; of a list or an object the first character is enough. -/
def unfitValue : List Char → Fault
  | [] => .malformed
  | c :: cs =>
    let after {α : Type} (read : Except Fault α) : Fault :=
      match read with
      | .error e => e
      | .ok _ => .unfit
    if c = 'n' then after (word "ull".toList cs)
    else if c = 't' then after (word "rue".toList cs)
    else if c = 'f' then after (word "alse".toList cs)
    else if c = '-' then after (Number.check cs)
    else if Number.isDigit c then after (Number.check (c :: cs))
    else if c = '"' then after (stringBody cs)
    else if c = '[' || c = '\x7b' then .unfit
    else .malformed

/-- A text. -/
def readString (cs : List Char) : Except Fault (String × List Char) :=
  match skipSpace cs with
  | [] => .error .truncated
  | c :: rest =>
    if c = '"' then (stringBody rest).map fun r => (String.ofList r.1, r.2)
    else .error (unfitValue (c :: rest))

theorem readString_length {cs rest : List Char} {s : String} (h : readString cs = .ok (s, rest)) :
    rest.length < cs.length := by
  have hs := skipSpace_length cs
  unfold readString at h
  split at h
  · cases h
  · rename_i c tail hc
    split at h
    · cases hb : stringBody tail with
      | error e =>
        rw [hb] at h
        cases h
      | ok r =>
        rw [hb] at h
        cases h
        have := stringBody_length hb
        rw [hc] at hs
        simp only [List.length_cons] at hs
        omega
    · cases h

/-- A value or `null`. -/
def readNullable {α : Type} (read : List Char → Except Fault (α × List Char)) (cs : List Char) :
    Except Fault (Option α × List Char) :=
  match skipSpace cs with
  | 'n' :: rest => (word "ull".toList rest).map fun r => (none, r)
  | rest => (read rest).map fun r => (some r.1, r.2)

/-! ## Lists -/

/-- Goes to the next element of a list, and gives nothing at its end. A comma has to stand before
every element but the first. -/
def nextElement (first : Bool) (cs : List Char) : Except Fault (Option (List Char)) :=
  match skipSpace cs with
  | [] => .error .truncated
  | c :: rest =>
    if c = ']' then .ok none
    else if first then .ok (some (c :: rest))
    else if c = ',' then
      match skipSpace rest with
      | [] => .error .truncated
      | d :: rest => if d = ']' then .error .malformed else .ok (some (d :: rest))
    else .error .malformed

/-- The end of a list. -/
def closeList (cs : List Char) : Except Fault (List Char) :=
  match skipSpace cs with
  | [] => .error .truncated
  | c :: rest => if c = ']' then .ok rest else .error .malformed

theorem nextElement_length {first : Bool} {cs rest : List Char}
    (h : nextElement first cs = .ok (some rest)) : rest.length ≤ cs.length := by
  have hs := skipSpace_length cs
  unfold nextElement at h
  split at h
  · cases h
  · rename_i c tail hc
    rw [hc] at hs
    split at h
    · cases h
    · split at h
      · cases h
        exact hs
      · split at h
        · have ht := skipSpace_length tail
          split at h
          · cases h
          · rename_i d tail' hd
            rw [hd] at ht
            split at h
            · cases h
            · cases h
              simp only [List.length_cons] at hs ht ⊢
              omega
        · cases h

/-- The next element of a list, if there is one. -/
def readElement {α : Type} (first : Bool) (read : List Char → Except Fault (α × List Char))
    (cs : List Char) : Except Fault (Option α × List Char) :=
  match nextElement first cs with
  | .error e => .error e
  | .ok none => .ok (none, cs)
  | .ok (some element) => (read element).map fun r => (some r.1, r.2)

/-- The texts of a list up to its end. -/
def stringElements (first : Bool) (cs : List Char) : Except Fault (List String × List Char) :=
  match hn : nextElement first cs with
  | .error e => .error e
  | .ok none => (closeList cs).map fun rest => ([], rest)
  | .ok (some element) =>
    match hs : readString element with
    | .error e => .error e
    | .ok (s, rest) =>
      have := Nat.lt_of_lt_of_le (readString_length hs) (nextElement_length hn)
      (stringElements false rest).map fun r => (s :: r.1, r.2)
  termination_by cs.length
  decreasing_by exact this

/-- A list of texts. -/
def readStrings (cs : List Char) : Except Fault (List String × List Char) :=
  match skipSpace cs with
  | [] => .error .truncated
  | c :: rest =>
    if c = '[' then stringElements true rest else .error (unfitValue (c :: rest))

/-! ## Objects -/

/-- The next key of an object, or nothing at its end, and what follows. A comma has to stand
before every key but the first. -/
def nextKey (first : Bool) (cs : List Char) : Except Fault (Option String × List Char) :=
  let key (rest : List Char) : Except Fault (Option String × List Char) :=
    (stringBody rest).map fun r => (some (String.ofList r.1), r.2)
  match skipSpace cs with
  | [] => .error .truncated
  | c :: rest =>
    if c = '\x7d' then .ok (none, rest)
    else if first then if c = '"' then key rest else .error .malformed
    else if c = ',' then
      match skipSpace rest with
      | [] => .error .truncated
      | d :: rest => if d = '"' then key rest else .error .malformed
    else .error .malformed

/-- The colon after a key. -/
def colon (cs : List Char) : Except Fault (List Char) :=
  match skipSpace cs with
  | [] => .error .truncated
  | c :: rest => if c = ':' then .ok rest else .error .malformed

/-- The end of the text. -/
def close (cs : List Char) : Except Fault Unit :=
  if (skipSpace cs).isEmpty then .ok () else .error .malformed

end ScriptSetup.Json
