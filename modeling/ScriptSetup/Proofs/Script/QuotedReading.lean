import ScriptSetup.Proofs.Script.Spelling
import ScriptSetup.Text.Quoted

/-!
# Reading strings in single quotes

A text is written in single quotes with a backslash before each quote and each backslash. That is a
literal of the text exactly when the text has no line end: a line end is written as it is, and no
string goes on after one.
-/

set_option autoImplicit false

namespace ScriptSetup.Script

open Text

/-- The text can stand in quotes as it is. -/
def onOneLine (text : List Char) : Bool := text.all fun c => c != '\n' && c != '\r'

/-- The characters of a text inside single quotes. -/
def escapeQuotes : List Char → List Char
  | [] => []
  | c :: cs => if c = '\\' ∨ c = '\'' then '\\' :: c :: escapeQuotes cs else c :: escapeQuotes cs

/-- Backslashes and then quotes are escaped as both are in one pass. -/
theorem escapeChar_escapeChar (cs : List Char) :
    escapeChar '\'' (escapeChar '\\' cs) = escapeQuotes cs := by
  have hcons (c d : Char) (ds : List Char) :
      escapeChar c (d :: ds) = (if d = c then ['\\', d] else [d]) ++ escapeChar c ds :=
    List.flatMap_cons
  induction cs with
  | nil => rfl
  | cons c cs ih =>
    rw [escapeQuotes, ← ih, hcons]
    by_cases hslash : c = '\\'
    · simp [hslash, hcons]
    · by_cases hquote : c = '\''
      · simp [hquote, hcons]
      · simp [hslash, hquote, hcons]

theorem quote_toList (text : String) :
    (quote text).toList = '\'' :: (escapeQuotes text.toList ++ ['\'']) := by
  simp [quote, escapeChar_escapeChar]

/-! ## The body of a string -/

/-- An escaped quote or backslash in front of a text. -/
theorem scanString_escaped {c : Char} {cs : List Char} (hc : c = '\\' ∨ c = '\'') :
    scanString '\'' ('\\' :: c :: cs) =
      (scanString '\'' cs).map fun (body, rest) => ('\\' :: c :: body, rest) := by
  rcases hc with rfl | rfl
  · rfl
  · rfl

theorem scanString_plain {c : Char} {cs : List Char} (hc : ¬ (c = '\\' ∨ c = '\'')) :
    scanString '\'' (c :: cs) =
      if c == '\n' || c == '\r' then none
      else (scanString '\'' cs).map fun (body, rest) => (c :: body, rest) := by
  rw [not_or] at hc
  rw [scanString]
  · simp [hc.2]
  · exact fun cs' h _ => hc.1 h
  · exact fun d cs' h _ => hc.1 h

theorem scanString_escapeQuotes {text : List Char} (h : onOneLine text = true) (rest : List Char) :
    scanString '\'' (escapeQuotes text ++ '\'' :: rest) = some (escapeQuotes text, rest) := by
  induction text with
  | nil => rfl
  | cons c cs ih =>
    simp only [onOneLine, List.all_cons, Bool.and_eq_true, bne_iff_ne] at h
    have hmore := ih h.2
    rw [escapeQuotes]
    split
    · next hc => rw [List.cons_append, List.cons_append, scanString_escaped hc, hmore]; rfl
    · next hc =>
      rw [List.cons_append, scanString_plain hc, hmore]
      simp [h.1.1, h.1.2]

/-- A string does not go on after a line end. -/
theorem scanString_lines {text : List Char} (h : onOneLine text = false) (rest : List Char) :
    scanString '\'' (escapeQuotes text ++ rest) = none := by
  induction text with
  | nil => cases h
  | cons c cs ih =>
    rw [escapeQuotes]
    by_cases hline : c = '\n' ∨ c = '\r'
    · have hplain : ¬ (c = '\\' ∨ c = '\'') := by
        rcases hline with rfl | rfl <;> decide
      rw [if_neg hplain, List.cons_append, scanString_plain hplain, if_pos (by simpa using hline)]
    · have hrest : onOneLine cs = false := by
        simpa [onOneLine, not_or.1 hline] using h
      split
      · next hc => rw [List.cons_append, List.cons_append, scanString_escaped hc, ih hrest]; rfl
      · next hc => rw [List.cons_append, scanString_plain hc, ih hrest]; simp

/-! ## The value of a string -/

theorem decodeEscapes_escaped {c : Char} (hc : c = '\\' ∨ c = '\'') (n : Nat) (cs : List Char) :
    decodeEscapes (n + 1) ('\\' :: c :: cs) = (decodeEscapes n cs).map (c.toNat :: ·) := by
  rcases hc with rfl | rfl
  · rfl
  · rfl

theorem decodeEscapes_plain {c : Char} (hc : c ≠ '\\') (n : Nat) (cs : List Char) :
    decodeEscapes (n + 1) (c :: cs) = (decodeEscapes n cs).map (c.toNat :: ·) := by
  rw [decodeEscapes.eq_def]
  split <;> simp_all

theorem decodeEscapes_escapeQuotes (text : List Char) {fuel : Nat}
    (hfuel : (escapeQuotes text).length ≤ fuel) :
    decodeEscapes fuel (escapeQuotes text) = some (text.map Char.toNat) := by
  induction text generalizing fuel with
  | nil => cases fuel <;> rfl
  | cons c cs ih =>
    cases fuel with
    | zero =>
      rw [escapeQuotes] at hfuel
      split at hfuel <;> cases hfuel
    | succ fuel =>
      have hmore : decodeEscapes fuel (escapeQuotes cs) = some (cs.map Char.toNat) := by
        refine ih (Nat.le_of_succ_le_succ (Nat.le_trans ?_ hfuel))
        rw [escapeQuotes]
        split
        · exact Nat.le_succ _
        · exact Nat.le_refl _
      rw [escapeQuotes]
      split
      · next hc => rw [decodeEscapes_escaped hc, hmore]; rfl
      · next hc => rw [decodeEscapes_plain (not_or.1 hc).1, hmore]; rfl

theorem not_isSurrogate (c : Char) : isLeadSurrogate c.toNat = false ∧
    isTrailSurrogate c.toNat = false := by
  have hvalid := c.valid
  simp only [isLeadSurrogate, isTrailSurrogate, Bool.and_eq_false_iff, decide_eq_false_iff_not]
  have : c.toNat = c.val.toNat := rfl
  rcases hvalid with h | h
  · omega
  · omega

theorem textOfCodePoints_toNat (text : List Char) :
    textOfCodePoints (text.map Char.toNat) = text := by
  induction text with
  | nil => rfl
  | cons c cs ih =>
    obtain ⟨hlead, htrail⟩ := not_isSurrogate c
    cases cs with
    | nil => simp [textOfCodePoints, hlead, htrail]
    | cons d cs =>
      rw [List.map_cons] at ih
      simp [textOfCodePoints, hlead, htrail, ih]

/-! ## Strings in front of a text -/

/-- A text without line ends is read back from its quotes. -/
theorem starts_quote {text : String} (h : onOneLine text.toList = true) (rest : List Char) :
    Starts ((quote text).toList ++ rest) (.string (quote text) text) (quote text).toList rest := by
  have hscan : scanString '\'' (escapeQuotes text.toList ++ '\'' :: rest) =
    some (escapeQuotes text.toList, rest) := scanString_escapeQuotes h rest
  have hvalue := decodeEscapes_escapeQuotes text.toList (Nat.le_refl _)
  have hcs : (quote text).toList ++ rest = '\'' :: (escapeQuotes text.toList ++ '\'' :: rest) := by
    simp [quote_toList]
  refine ⟨by rw [hcs]; rfl, ?_, by rw [hcs]; rfl⟩
  rw [hcs, Token.scan, scanQuoted, hscan]
  simp [hvalue, textOfCodePoints_toNat, quote, escapeChar_escapeChar]

/-- A text with a line end is not. -/
theorem starts_unclosed {text : String} (h : onOneLine text.toList = false) (rest : List Char) :
    Starts ((quote text).toList ++ rest) (.invalid (.unclosed "string")) ['\'']
      (escapeQuotes text.toList ++ '\'' :: rest) := by
  have hcs : (quote text).toList ++ rest = '\'' :: (escapeQuotes text.toList ++ '\'' :: rest) := by
    simp [quote_toList]
  refine ⟨by rw [hcs]; rfl, ?_, by rw [hcs]; rfl⟩
  rw [hcs, Token.scan, scanQuoted, scanString_lines h]

/-! ## Literals -/

/-- The body of a string in single quotes: a quote stands in it only after a backslash, and so does
a line end. -/
inductive QuotedBody : List Char → Prop where
  | nil : QuotedBody []
  | plain {c : Char} {cs : List Char} (hc : c ∉ ['\'', '\\', '\n', '\r']) (h : QuotedBody cs) :
    QuotedBody (c :: cs)
  | escape {cs : List Char} (c : Char) (h : QuotedBody cs) : QuotedBody ('\\' :: c :: cs)

/-- A string in single quotes whose value is the text. Whatever follows, it is read as such, up to
its end. -/
structure IsLiteralOf (literal text : String) : Prop where
  quoted : ∃ body, literal.toList = '\'' :: (body ++ ['\'']) ∧ QuotedBody body
  scan : ∀ rest, Token.scan (literal.toList ++ rest) = (.string literal text, literal.toList, rest)

theorem onOneLine_iff {text : List Char} : onOneLine text = true ↔ '\n' ∉ text ∧ '\r' ∉ text := by
  simp only [onOneLine, List.all_eq_true, Bool.and_eq_true, bne_iff_ne]
  constructor
  · intro h
    exact ⟨fun hn => (h _ hn).1 rfl, fun hr => (h _ hr).2 rfl⟩
  · rintro ⟨hn, hr⟩ c hc
    exact ⟨fun heq => hn (heq ▸ hc), fun heq => hr (heq ▸ hc)⟩

theorem quotedBody_escapeQuotes {text : List Char} (h : onOneLine text = true) :
    QuotedBody (escapeQuotes text) := by
  induction text with
  | nil => exact .nil
  | cons c cs ih =>
    simp only [onOneLine, List.all_cons, Bool.and_eq_true, bne_iff_ne] at h
    obtain ⟨⟨hn, hr⟩, hcs⟩ := h
    rw [escapeQuotes]
    split
    · exact .escape c (ih hcs)
    · next hc => exact .plain (by simp [not_or.1 hc, hn, hr]) (ih hcs)

/-- A text in quotes is a literal of it exactly when it has no line end. -/
theorem quote_isLiteralOf_iff (text : String) :
    IsLiteralOf (quote text) text ↔ '\n' ∉ text.toList ∧ '\r' ∉ text.toList := by
  rw [← onOneLine_iff]
  constructor
  · intro h
    by_contra hlines
    have hscan := (starts_unclosed (Bool.eq_false_iff.2 hlines) []).scan
    cases hscan.symm.trans (h.scan [])
  · intro h
    exact ⟨⟨_, quote_toList text, quotedBody_escapeQuotes h⟩,
      fun rest => (starts_quote h rest).scan⟩

/-- A line feed ends the literal before it is closed. -/
theorem line_feed_not_literal : quote "a\nb" = "'a\nb'" ∧ ¬ IsLiteralOf (quote "a\nb") "a\nb" := by
  refine ⟨by decide, fun h => ?_⟩
  have hscan := (@starts_unclosed "a\nb" (by decide) []).scan
  cases hscan.symm.trans (h.scan [])

end ScriptSetup.Script
