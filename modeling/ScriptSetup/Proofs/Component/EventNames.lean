import Mathlib.Data.List.Basic
import ScriptSetup.Component.Hooks

/-!
# Default event names

The framework derives the name of an event from the name of a method: a dash before every capital
that directly follows a character of a word, and all of it in small letters. `kebabCase` puts the
dash before every capital but a first one and lowers capitals of ASCII only. The two agree on the
names in which every later capital follows a character of a word and which have no other characters
to lower.
-/

set_option autoImplicit false

namespace ScriptSetup.Component

/-- A character of a word: a letter or digit of ASCII, or an underscore. -/
def isWordChar (c : Char) : Bool :=
  c.isAlphanum || c == '_'

/-- A character of ASCII. -/
def isAscii (c : Char) : Bool :=
  c.toNat < 128

/-- A way to write a text in small letters. What becomes of a character may depend on the text
around it, as with the two small forms of sigma. -/
structure Lowering where
  /-- what a character becomes, with the text before and after it -/
  lower : (before : List Char) → Char → (after : List Char) → List Char
  ascii : ∀ before c after, isAscii c = true → lower before c after = [toSmall c]
  ne_nil : ∀ before c after, lower before c after ≠ []
  dash_free : ∀ before c after, isAscii c = false → '-' ∉ lower before c after

/-- The text in small letters, where `before` stands before it. -/
def Lowering.textFrom (l : Lowering) (before : List Char) : List Char → List Char
  | [] => []
  | c :: cs => l.lower before c cs ++ l.textFrom (before ++ [c]) cs

/-- A dash before each capital that directly follows a character of a word. `afterWord` says
whether such a character stands before the text. -/
def dashInWords (afterWord : Bool) : List Char → List Char
  | [] => []
  | c :: cs =>
    if isCapital c && afterWord then '-' :: c :: dashInWords (isWordChar c) cs
    else c :: dashInWords (isWordChar c) cs

/-- The name of the event that a method raises by default. -/
def derivedName (l : Lowering) (name : String) : String :=
  String.ofList (l.textFrom [] (dashInWords false name.toList))

/-! ## Characters -/

theorem toNat_of_isCapital {c : Char} (h : isCapital c = true) :
    65 ≤ c.toNat ∧ c.toNat ≤ 90 := by
  simp only [isCapital, Bool.and_eq_true, decide_eq_true_eq, Char.le_def,
    UInt32.le_iff_toNat_le] at h
  exact h

theorem ne_dash_of_isCapital {c : Char} (h : isCapital c = true) : c ≠ '-' := by
  rintro rfl
  cases h

theorem toSmall_of_not_isAscii {c : Char} (h : isAscii c = false) : toSmall c = c := by
  refine if_neg fun hc => ?_
  have hbounds := toNat_of_isCapital hc
  simp only [isAscii, decide_eq_false_iff_not] at h
  omega

/-- No letter becomes a dash. -/
theorem toSmall_eq_dash_iff {c : Char} : toSmall c = '-' ↔ c = '-' := by
  rw [toSmall]
  split
  · next hc =>
    obtain ⟨hlow, hhigh⟩ := toNat_of_isCapital hc
    have hletter : ∀ n ≤ 90, Char.ofNat (n + 32) = '-' → n < 65 := by decide
    constructor
    · intro h
      exact absurd (hletter c.toNat hhigh h) (Nat.not_lt.2 hlow)
    · exact fun h => absurd h (ne_dash_of_isCapital hc)
  · exact Iff.rfl

/-- Only capitals of ASCII are lowered. -/
def Lowering.ofAscii : Lowering where
  lower _ c _ := [toSmall c]
  ascii _ _ _ _ := rfl
  ne_nil _ _ _ := List.cons_ne_nil _ _
  dash_free _ c _ h hdash := by
    obtain rfl := toSmall_eq_dash_iff.1 (List.mem_singleton.1 hdash).symm
    cases h

/-! ## Small letters -/

namespace Lowering

variable (l : Lowering) (before cs : List Char)

theorem count_dash_textFrom : (l.textFrom before cs).count '-' = cs.count '-' := by
  induction cs generalizing before with
  | nil => rfl
  | cons c cs ih =>
    rw [textFrom, List.count_append, ih, List.count_cons, Nat.add_comm]
    congr 1
    cases hc : isAscii c with
    | true => simp [l.ascii before c cs hc, List.count_singleton, toSmall_eq_dash_iff]
    | false =>
      rw [List.count_eq_zero.2 (l.dash_free before c cs hc), if_neg]
      rintro hdash
      rw [beq_iff_eq] at hdash
      subst hdash
      cases hc

theorem length_le_textFrom : cs.length ≤ (l.textFrom before cs).length := by
  induction cs generalizing before with
  | nil => exact Nat.le_refl _
  | cons c cs ih =>
    have hc := List.length_pos_iff.2 (l.ne_nil before c cs)
    have hcs := ih (before ++ [c])
    rw [textFrom, List.length_append, List.length_cons]
    omega

/-- Lowering changes only capitals of ASCII exactly when it leaves all other characters alone. -/
theorem textFrom_eq_map_iff : l.textFrom before cs = cs.map toSmall ↔
    ∀ x c y, cs = x ++ c :: y → isAscii c = false → l.lower (before ++ x) c y = [c] := by
  induction cs generalizing before with
  | nil => simp [textFrom]
  | cons d cs ih =>
    have hsplit : l.textFrom before (d :: cs) = (d :: cs).map toSmall ↔
        l.lower before d cs = [toSmall d] ∧ l.textFrom (before ++ [d]) cs = cs.map toSmall := by
      constructor
      · -- what is lowered has one character for each, since it has no fewer for any
        intro h
        have hlength := congrArg List.length h
        have hd := List.length_pos_iff.2 (l.ne_nil before d cs)
        have hcs := l.length_le_textFrom (before ++ [d]) cs
        rw [textFrom, List.length_append, List.length_map, List.length_cons] at hlength
        exact List.append_inj (h : _ = [toSmall d] ++ _) (by rw [List.length_singleton]; omega)
      · rintro ⟨hd, hcs⟩
        rw [textFrom, hd, hcs]
        rfl
    rw [hsplit, ih]
    constructor
    · rintro ⟨hd, hcs⟩ x c y heq hc
      obtain ⟨rfl, heq⟩ | ⟨x, rfl, heq⟩ := List.cons_eq_append_iff.1 heq
      · obtain ⟨rfl, rfl⟩ := List.cons.inj heq
        rw [List.append_nil, hd, toSmall_of_not_isAscii hc]
      · rw [← hcs x c y (List.cons.inj heq).2 hc, List.append_assoc]
        rfl
    · intro h
      refine ⟨?_, fun x c y heq hc => ?_⟩
      · cases hd : isAscii d with
        | true => exact l.ascii before d cs hd
        | false =>
          rw [toSmall_of_not_isAscii hd]
          have hlower := h [] d cs rfl hd
          rwa [List.append_nil] at hlower
      · rw [← h (d :: x) c y (congrArg (d :: ·) heq) hc, List.append_assoc]
        rfl

end Lowering

/-! ## Dashes -/

/-- A capital follows a character of a word. -/
def CapitalInWord (c d : Char) : Prop :=
  isCapital d = true → isWordChar c = true

instance (c d : Char) : Decidable (CapitalInWord c d) :=
  inferInstanceAs (Decidable (_ → _))

/-- A dash that stands before a capital in a word stands before a capital. -/
theorem count_dashInWords_le (afterWord : Bool) (cs : List Char) :
    (dashInWords afterWord cs).count '-' ≤ (dashCapitals cs).count '-' := by
  induction cs generalizing afterWord with
  | nil => exact Nat.le_refl _
  | cons d cs ih =>
    have hcs := ih (isWordChar d)
    cases hd : isCapital d with
    | true =>
      have hne := ne_dash_of_isCapital hd
      have hsmall := mt toSmall_eq_dash_iff.1 hne
      cases afterWord <;> simp [dashInWords, dashCapitals, hd, hne, hsmall] <;> omega
    | false => simpa [dashInWords, dashCapitals, hd, List.count_cons] using hcs

theorem isChain_of_count_dashInWords {c : Char} {cs : List Char}
    (h : (dashInWords (isWordChar c) cs).count '-' = (dashCapitals cs).count '-') :
    (c :: cs).IsChain CapitalInWord := by
  induction cs generalizing c with
  | nil => exact .singleton c
  | cons d cs ih =>
    have hcs := count_dashInWords_le (isWordChar d) cs
    rw [List.isChain_cons_cons]
    cases hd : isCapital d with
    | true =>
      have hne := ne_dash_of_isCapital hd
      have hsmall := mt toSmall_eq_dash_iff.1 hne
      cases hc : isWordChar c with
      | true =>
        refine ⟨fun _ => hc, ih ?_⟩
        simpa [dashInWords, dashCapitals, hd, hc, hne, hsmall] using h
      | false =>
        -- the one dash too many is not made up for later
        simp [dashInWords, dashCapitals, hd, hc, hne, hsmall] at h
        omega
    | false =>
      refine ⟨fun hcap => absurd hcap (by simp [hd]), ih ?_⟩
      simpa [dashInWords, dashCapitals, hd, List.count_cons] using h

theorem dashCapitals_eq_map {c : Char} {cs : List Char}
    (h : (c :: cs).IsChain CapitalInWord) :
    dashCapitals cs = (dashInWords (isWordChar c) cs).map toSmall := by
  induction cs generalizing c with
  | nil => rfl
  | cons d cs ih =>
    obtain ⟨hd, hcs⟩ := List.isChain_cons_cons.1 h
    rw [dashCapitals, dashInWords, ih hcs]
    cases hcap : isCapital d with
    | true => rw [hd hcap]; rfl
    | false => simp [toSmall, hcap]

/-! ## The two names -/

/-- The name of an event agrees with the framework's on the names whose capitals, but for a first
one, directly follow a character of a word, and whose characters outside ASCII are small. -/
theorem kebabCase_eq_derivedName_iff (l : Lowering) (name : String) :
    kebabCase name = derivedName l name ↔
      name.toList.IsChain CapitalInWord ∧
        ∀ before c after, dashInWords false name.toList = before ++ c :: after →
          isAscii c = false → l.lower before c after = [c] := by
  rw [kebabCase, derivedName]
  cases name.toList with
  | nil => simp [dashInWords, Lowering.textFrom]
  | cons c cs =>
    have hcons : dashInWords false (c :: cs) = c :: dashInWords (isWordChar c) cs := by
      rw [dashInWords, Bool.and_false, if_neg Bool.false_ne_true]
    have hlower := l.textFrom_eq_map_iff [] (dashInWords false (c :: cs))
    rw [String.ofList_inj]
    constructor
    · intro h
      have hcount := congrArg (List.count '-') h
      rw [l.count_dash_textFrom, hcons, List.count_cons, List.count_cons] at hcount
      have hchain : (c :: cs).IsChain CapitalInWord :=
        isChain_of_count_dashInWords (by simpa [toSmall_eq_dash_iff] using hcount.symm)
      refine ⟨hchain, hlower.1 ?_⟩
      rw [← h, hcons, dashCapitals_eq_map hchain, List.map_cons]
    · rintro ⟨hchain, hsmall⟩
      rw [hlower.2 hsmall, hcons, dashCapitals_eq_map hchain, List.map_cons]

/-- A dollar sign is no character of a word, and the dash after it is one too many. -/
theorem dollar_capital_dashed :
    kebabCase "$Go" = "$-go" ∧ derivedName .ofAscii "$Go" = "$go" := by
  decide

end ScriptSetup.Component
