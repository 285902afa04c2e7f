import ScriptSetup.Proofs.Script.Running
import ScriptSetup.Proofs.Script.Words

/-!
# Tokens in front of a text

`Starts cs t raw rest` says that the text `cs` starts with the token `t`, written as `raw`, and
goes on with `rest`. A state before such a text sees the token, and the next state stands before
`rest`, so that a text is read token by token. What a word or a string is depends on what follows
it; here it is said in front of which texts each is read as itself.
-/

set_option autoImplicit false

namespace ScriptSetup.Script

/-! ## White space -/

/-- The text starts with neither white space nor a comment. -/
def solid : List Char → Bool
  | [] => true
  | '/' :: '/' :: _ => false
  | '/' :: '*' :: _ => false
  | c :: _ => !(isLineEnd c || Text.isBlankChar c || c.toNat == 0xfeff)

theorem skipTrivia_solid {cs : List Char} (h : solid cs = true) (n : Nat) (nl : Bool) :
    skipTrivia .code n nl cs = (n, nl, some cs) := by
  unfold solid at h
  split at h
  · rfl
  · cases h
  · cases h
  · next c rest hline hblock =>
    simp only [Bool.not_eq_true', Bool.or_eq_false_iff] at h
    obtain ⟨⟨hend, hblank⟩, hmark⟩ := h
    rw [skipTrivia.eq_def]
    split <;> simp_all

/-- A space moves a text on. -/
theorem at_space {cs : List Char} (h : solid cs = true) (n m : Nat) (lineStart : Bool) :
    State.at n m lineStart (' ' :: cs) = State.at (n + 1) m lineStart cs := by
  have hstep : skipTrivia .code 0 lineStart (' ' :: cs) = skipTrivia .code 1 lineStart cs := rfl
  simp only [State.at, hstep, skipTrivia_solid h, Nat.add_zero]

/-! ## The first token -/

/-- The text starts with this token, written like this, and `rest` follows. -/
structure Starts (cs : List Char) (t : Token) (raw rest : List Char) : Prop where
  solid : solid cs = true
  scan : Token.scan cs = (t, raw, rest)
  plain : ['-', '-', '>'].isPrefixOf cs = false

/-- The state before a text that goes on from `n`. -/
def State.front (n : Nat) (cs : List Char) : State := State.at n n false cs

/-- The state sees a token at a place on its line, and this state follows. -/
structure State.Sees (s : State) (t : Token) (span : Span) (s' : State) : Prop where
  token : s.token = t
  start : s.start = span.start
  stop : s.stop = span.stop
  newline : s.newline = false
  next : s.next = s'

section

variable {cs raw rest : List Char} {t : Token} {n : Nat}

theorem Starts.at_eq (h : Starts cs t raw rest) (n m : Nat) (lineStart : Bool) :
    State.at n m lineStart cs =
      ⟨cs, t, n, n + Text.byteLength raw, lineStart, rest, m, []⟩ := by
  simp [State.at, skipTrivia_solid h.solid, h.scan, h.plain]

theorem Starts.next_at (h : Starts cs t raw rest) (n m : Nat) (lineStart : Bool) :
    (State.at n m lineStart cs).next = State.front (n + Text.byteLength raw) rest := by
  rw [h.at_eq, State.next, State.skipTo, State.front]
  simp only [State.at]
  split <;> rfl

theorem Starts.sees_at (h : Starts cs t raw rest) (n m : Nat) :
    (State.at n m false cs).Sees t ⟨n, n + Text.byteLength raw⟩
      (State.front (n + Text.byteLength raw) rest) := by
  have hat := h.at_eq n m false
  refine ⟨?_, ?_, ?_, ?_, h.next_at n m false⟩
  all_goals rw [hat]

theorem Starts.sees (h : Starts cs t raw rest) (n : Nat) :
    (State.front n cs).Sees t ⟨n, n + Text.byteLength raw⟩
      (State.front (n + Text.byteLength raw) rest) :=
  h.sees_at n n

theorem Starts.sees_space (h : Starts cs t raw rest) (n : Nat) :
    (State.front n (' ' :: cs)).Sees t ⟨n + 1, n + 1 + Text.byteLength raw⟩
      (State.front (n + 1 + Text.byteLength raw) rest) := by
  rw [State.front, at_space h.solid]
  exact h.sees_at (n + 1) n

theorem prevStop_front (n : Nat) (cs : List Char) : (State.front n cs).prevStop = n := by
  rw [State.front, State.at]
  split <;> rfl

end

/-! ## Characters of names -/

/-- Nothing that follows makes a name or number longer. -/
def endsWord : List Char → Bool
  | [] => true
  | c :: _ => !(isNamePart c || c == '\\')

/-- The blank characters above ASCII, and the byte order mark. -/
def highBlanks : List Nat :=
  [0x85, 0xa0, 0x1680, 0x2000, 0x2001, 0x2002, 0x2003, 0x2004, 0x2005, 0x2006, 0x2007, 0x2008,
    0x2009, 0x200a, 0x2028, 0x2029, 0x202f, 0x205f, 0x3000, 0xfeff]

theorem not_idStart_of_blank :
    (highBlanks.all fun n => !hasProperty idStartRuns n) = true := by
  decide +kernel

theorem isNamePart_of_isNameStart {c : Char} (h : isNameStart c = true) : isNamePart c = true := by
  unfold isNameStart at h
  unfold isNamePart
  split at h
  · next hlow =>
    rw [if_pos hlow]
    simp only [Bool.or_eq_true] at h ⊢
    rcases h with (h | h) | h
    · exact .inl (.inl (by simp [Char.isAlphanum, h]))
    · exact .inl (.inr h)
    · exact .inr h
  · next hlow =>
    rw [if_neg hlow]
    simp [h]

/-- White space is no part of a name. -/
theorem isNameStart_solid {c : Char} (h : isNameStart c = true) :
    (isLineEnd c || Text.isBlankChar c || c.toNat == 0xfeff) = false := by
  cases hblank : isLineEnd c || Text.isBlankChar c || c.toNat == 0xfeff with
  | false => rfl
  | true =>
    exfalso
    have hcases : c.toNat ∈ [9, 10, 11, 12, 13, 32] ∨ c.toNat ∈ highBlanks := by
      simp only [isLineEnd, Text.isBlankChar, Bool.or_eq_true, Bool.and_eq_true, beq_iff_eq,
        decide_eq_true_eq] at hblank
      rcases hblank with ((((rfl | rfl) | hn) | hn) | hn) | hn
      · exact .inl (by decide)
      · exact .inl (by decide)
      all_goals
        simp only [highBlanks, List.mem_cons, List.not_mem_nil, or_false]
        omega
    unfold isNameStart at h
    rcases hcases with hlow | hhigh
    · have hle : c.toNat < 0x80 := by
        simp only [List.mem_cons, List.not_mem_nil, or_false] at hlow
        omega
      rw [if_pos hle] at h
      have hc : c = Char.ofNat c.toNat := (Char.ofNat_toNat c).symm
      simp only [List.mem_cons, List.not_mem_nil, or_false] at hlow
      rcases hlow with hn | hn | hn | hn | hn | hn <;> rw [hn] at hc <;> subst hc <;>
        exact absurd h (by decide)
    · have hge : ¬ c.toNat < 0x80 := by
        simp only [highBlanks, List.mem_cons, List.not_mem_nil, or_false] at hhigh
        omega
      rw [if_neg hge] at h
      have hno := List.all_eq_true.1 not_idStart_of_blank _ hhigh
      rw [h] at hno
      cases hno

theorem solid_name {c : Char} {cs : List Char} (h : isNameStart c = true) :
    solid (c :: cs) = true := by
  have hslash : c ≠ '/' := fun hc => by rw [hc] at h; exact absurd h (by decide)
  unfold solid
  split
  · next heq => cases heq
  · next heq => exact absurd (List.cons.inj heq).1 hslash
  · next heq => exact absurd (List.cons.inj heq).1 hslash
  · next heq =>
    obtain ⟨rfl, -⟩ := List.cons.inj heq
    rw [isNameStart_solid h]
    rfl

/-- A name is read up to what cannot be part of it. -/
theorem scanName_append {cs rest : List Char} (hcs : cs.all isNamePart = true)
    (hrest : endsWord rest = true) (fuel : Nat) (hfuel : cs.length ≤ fuel) :
    scanName fuel (cs ++ rest) = some (cs, cs, false, rest) := by
  induction cs generalizing fuel with
  | nil =>
    cases fuel with
    | zero => rfl
    | succ fuel =>
      cases rest with
      | nil => rfl
      | cons c rest =>
        simp only [endsWord, Bool.not_eq_true', Bool.or_eq_false_iff, beq_eq_false_iff_ne] at hrest
        rw [List.nil_append, scanName]
        · simp [hrest.1]
        · exact hrest.2
  | cons c cs ih =>
    simp only [List.all_cons, Bool.and_eq_true] at hcs
    cases fuel with
    | zero => simp at hfuel
    | succ fuel =>
      have hslash : c ≠ '\\' := fun hc => by rw [hc] at hcs; exact absurd hcs.1 (by decide)
      rw [List.cons_append, scanName]
      · simp [hcs.1, ih hcs.2 fuel (by simpa using hfuel)]
      · exact hslash

theorem scanWord_append {c : Char} {cs rest : List Char} (hc : isNameStart c = true)
    (hcs : cs.all isNamePart = true) (hrest : endsWord rest = true) :
    scanWord (c :: cs ++ rest) = (.word (String.ofList (c :: cs)) false, c :: cs, rest) := by
  have hall : (c :: cs).all isNamePart = true := by
    simp [isNamePart_of_isNameStart hc, hcs]
  unfold scanWord
  rw [scanName_append hall hrest _ (by simp)]
  simp [hc]

theorem not_digit_of_isNameStart {c : Char} (h : isNameStart c = true) : c.isDigit = false := by
  cases hdigit : c.isDigit with
  | false => rfl
  | true =>
    exfalso
    have hrange : 48 ≤ c.toNat ∧ c.toNat ≤ 57 := by
      simp only [Char.isDigit, Bool.and_eq_true, decide_eq_true_eq, UInt32.le_iff_toNat_le,
        ge_iff_le] at hdigit
      exact hdigit
    have hcase : ∀ n : Nat, 48 ≤ n → n ≤ 57 → isNameStart (Char.ofNat n) = false := by
      intro n h₁ h₂
      have : n ∈ [48, 49, 50, 51, 52, 53, 54, 55, 56, 57] := by simp; omega
      revert this
      simp only [List.mem_cons, List.not_mem_nil, or_false]
      rintro (rfl | rfl | rfl | rfl | rfl | rfl | rfl | rfl | rfl | rfl) <;> decide
    have hno := hcase c.toNat hrange.1 hrange.2
    rw [Char.ofNat_toNat, h] at hno
    cases hno

/-- The scanner takes a text that starts like a name for one. -/
theorem scan_name {c : Char} {cs : List Char} (hc : isNameStart c = true) :
    Token.scan (c :: cs) = scanWord (c :: cs) := by
  have hne : ∀ d : Char, isNameStart d = false → c ≠ d := by
    rintro d hd rfl
    rw [hc] at hd
    cases hd
  unfold Token.scan
  split
  · next heq => cases heq
  · next heq => exact absurd (List.cons.inj heq).1 (hne _ (by decide))
  · next heq => exact absurd (List.cons.inj heq).1 (hne _ (by decide))
  · next heq => exact absurd (List.cons.inj heq).1 (hne _ (by decide))
  · next heq => exact absurd (List.cons.inj heq).1 (hne _ (by decide))
  · next heq => exact absurd (List.cons.inj heq).1 (hne _ (by decide))
  · next heq =>
    obtain ⟨rfl, rfl⟩ := List.cons.inj heq
    simp [hc, not_digit_of_isNameStart hc]

/-- A word is read as itself where it ends. -/
theorem starts_word {w : String} {rest : List Char} (hw : nameFits w = true)
    (hrest : endsWord rest = true) : Starts (w.toList ++ rest) (.word w false) w.toList rest := by
  unfold nameFits at hw
  split at hw
  · cases hw
  · next c cs hchars =>
    rw [Bool.and_eq_true] at hw
    have hofList : String.ofList (c :: cs) = w := by rw [← hchars, String.ofList_toList]
    rw [hchars]
    refine ⟨solid_name hw.1, ?_, ?_⟩
    · rw [List.cons_append, scan_name hw.1, ← List.cons_append, scanWord_append hw.1 hw.2 hrest,
        hofList]
    · have hc : c ≠ '-' := fun hc => by rw [hc] at hw; exact absurd hw.1 (by decide)
      simp [List.isPrefixOf, hc.symm]

end ScriptSetup.Script
