import Mathlib.Data.List.TakeDrop
import ScriptSetup.Script.Token

/-!
# Words and literals

A word that was read, with or without escapes, is a text that is a name when it is written without
them. A literal starts with a digit, a point or a quote.
-/

set_option autoImplicit false

namespace ScriptSetup.Script

/-- The text of a name without escapes. -/
def nameFits (w : String) : Bool :=
  match w.toList with
  | [] => false
  | c :: cs => isNameStart c && cs.all isNamePart

/-- The text of a number or a string starts so. -/
def literalFits (raw : String) : Bool :=
  raw.toList.head?.any fun c => c.isDigit || ['.', '"', '\''].contains c

/-- A token that is a word can be written without escapes, and a literal starts as one. -/
def Token.Fits : Token → Prop
  | .word name _ => nameFits name = true
  | .number raw | .bigint raw | .string raw _ => literalFits raw = true
  | _ => True

theorem scanName_isNamePart {fuel : Nat} {cs name raw rest : List Char} {escaped : Bool}
    (h : scanName fuel cs = some (name, raw, escaped, rest)) : name.all isNamePart = true := by
  fun_induction scanName fuel cs generalizing name raw escaped with
  | case1 | case2 | case8 =>
    cases h
    rfl
  | case3 n cs v used rest' hescape hpart ih =>
    obtain ⟨⟨name', raw', escaped', rest''⟩, hname, heq⟩ := Option.map_eq_some_iff.1 h
    cases heq
    rw [List.all_cons, hpart, ih hname]
    rfl
  | case4 | case5 | case6 => cases h
  | case7 n c cs _ hpart ih =>
    obtain ⟨⟨name', raw', escaped', rest''⟩, hname, heq⟩ := Option.map_eq_some_iff.1 h
    cases heq
    rw [List.all_cons, hpart, ih hname]
    rfl

theorem fits_scanWord (cs : List Char) : (scanWord cs).1.Fits := by
  unfold scanWord
  split
  · next name raw escaped rest hname =>
    split
    · next hhead =>
      have hall := scanName_isNamePart hname
      cases name with
      | nil => cases hhead
      | cons c name =>
        rw [List.all_cons, Bool.and_eq_true] at hall
        rw [Token.Fits, nameFits, String.toList_ofList]
        simpa [hall.2] using hhead
    · trivial
  · trivial

theorem literalFits_cons {c : Char} (cs : List Char)
    (h : (c.isDigit || ['.', '"', '\''].contains c) = true := by decide) :
    literalFits (String.ofList (c :: cs)) = true := by
  simpa [literalFits] using h

theorem fits_scanQuoted {quote : Char} (cs : List Char)
    (h : (quote.isDigit || ['.', '"', '\''].contains quote) = true := by decide) :
    (scanQuoted quote cs).1.Fits := by
  unfold scanQuoted
  split
  · trivial
  · dsimp only
    split
    · trivial
    · exact literalFits_cons _ h

theorem fits_scanPunct (cs : List Char) : (scanPunct cs).1.Fits := by
  unfold scanPunct
  split
  · split <;> trivial
  · split <;> trivial

theorem fits_scanRadix (isDigit : Char → Bool) (all lead cs : List Char) :
    (scanRadix isDigit all ('0' :: lead) cs).1.Fits := by
  unfold scanRadix
  dsimp only
  split
  · trivial
  · split <;> split <;> first | trivial | exact literalFits_cons _

/-- The integer part starts with a digit, or nothing stands before the point. -/
theorem fits_scanDecimalTail {all int cs : List Char}
    (h : (∃ c ds, int = c :: ds ∧ c.isDigit = true) ∨ ∃ rest, int = [] ∧ cs = '.' :: rest) :
    (scanDecimalTail all int cs).1.Fits := by
  unfold scanDecimalTail
  split
  next frac rest hfrac =>
  split
  · trivial
  · split
    · trivial
    · dsimp only
      split
      · obtain ⟨c, ds, rfl, hc⟩ | ⟨rest, rfl, rfl⟩ := h
        · exact literalFits_cons _ (by rw [hc]; rfl)
        · cases hfrac
          exact literalFits_cons _
      · trivial

theorem fits_scanNumber {c : Char} (cs : List Char) (hc : c.isDigit = true) :
    (scanNumber (c :: cs)).1.Fits := by
  unfold scanNumber
  split
  case h_7 =>
    obtain ⟨ds, hint⟩ : ∃ ds, (digitRun Char.isDigit (c :: cs)).1 = c :: ds := by
      simp [digitRun, List.span_eq_takeWhile_dropWhile, hc]
    dsimp only
    split
    · trivial
    · split
      · split
        · rw [hint]
          exact literalFits_cons _ (by rw [hc]; rfl)
        · trivial
      · exact fits_scanDecimalTail (.inl ⟨c, ds, hint, hc⟩)
  all_goals exact fits_scanRadix _ _ _ _

/-- Every token of a text fits. -/
theorem fits_scan (cs : List Char) : (Token.scan cs).1.Fits := by
  unfold Token.scan
  split
  · trivial
  · trivial
  · exact fits_scanQuoted _
  · exact fits_scanQuoted _
  · split <;> trivial
  · split
    · exact fits_scanDecimalTail (.inr ⟨_, rfl, rfl⟩)
    · exact fits_scanPunct _
  · split
    · next hc => exact fits_scanNumber _ hc
    · split
      · exact fits_scanWord _
      · exact fits_scanPunct _

end ScriptSetup.Script
