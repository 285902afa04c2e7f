import ScriptSetup.Proofs.Block.TagReading
import ScriptSetup.Proofs.Script.TypeReading

/-!
# Reading unions

What the reader of types makes of words, `any[]` and `(...args: any[]) => any` with `|` between
them. All of them are read as alternatives, in order, exactly when there is one at all, no word is
an operator of types, and the type of a function stands alone: in front of others it takes all of
them for its result, and after another it is not a type.
-/

set_option autoImplicit false

namespace ScriptSetup.Script.Parse

variable {g : Grammar} {ctx : Context} {s s' : State} {w : String} {span : Span}
  {Q : TypeText → State → Prop}

/-! ## The types that constructors stand for -/

/-- A type that can be an alternative of a union. -/
inductive Alternative where
  /-- a word -/
  | word (w : String)
  /-- `any[]` -/
  | list
  /-- `(...args: any[]) => any` -/
  | function
  deriving DecidableEq

namespace Alternative

/-- How the alternative is written. -/
def text : Alternative → String
  | word w => w
  | list => "any[]"
  | function => "(...args: any[]) => any"

/-- A word is not reserved. -/
def IsFree : Alternative → Prop
  | word w => FreeWord w
  | list | function => True

/-- The words that are operators of types. -/
def typeOperators : List String := "infer" :: prefixOperators

/-- The alternative can stand beside others. -/
def isOperand : Alternative → Bool
  | word w => !typeOperators.contains w
  | list => true
  | function => false

end Alternative

variable {rest : List Char} {text : String}

/-- A comma or bracket that ends a type. -/
def closesType : List Char → Bool
  | ',' :: _ | ')' :: _ => true
  | _ => false

/-- Alternatives after the first one. -/
def moreText : List Alternative → List Char
  | [] => []
  | a :: as => " | ".toList ++ a.text.toList ++ moreText as

theorem sees_bar (n : Nat) (cs : List Char) :
    (State.front n (" | ".toList ++ cs)).Sees (.punct "|") ⟨n + 1, n + 2⟩
      (State.front (n + 2) (' ' :: cs)) := by
  have hbar : Starts ('|' :: ' ' :: cs) (.punct "|") ['|'] (' ' :: cs) := ⟨rfl, rfl, rfl⟩
  exact hbar.sees_space n

theorem sees_close (h : closesType rest = true) (n : Nat) :
    ∃ text span s', (State.front n rest).Sees (.punct text) span s' ∧ text ∈ [",", ")"] := by
  unfold closesType at h
  split at h
  · exact ⟨_, _, _, Starts.sees ⟨rfl, rfl, rfl⟩ n, by decide⟩
  · exact ⟨_, _, _, Starts.sees ⟨rfl, rfl, rfl⟩ n, by decide⟩
  · cases h

theorem endsWord_moreText (as : List Alternative) (h : closesType rest = true) :
    endsWord (moreText as ++ rest) = true := by
  cases as with
  | cons a as => rfl
  | nil =>
    unfold closesType at h
    split at h
    · rfl
    · rfl
    · cases h

theorem next_moreText (as : List Alternative) (h : closesType rest = true) (n : Nat) :
    ∃ text, (State.front n (moreText as ++ rest)).token = .punct text ∧
      text ∈ ["|", ",", ")"] := by
  cases as with
  | cons a as =>
    refine ⟨"|", ?_, by decide⟩
    have hsees := sees_bar n (a.text.toList ++ moreText as ++ rest)
    rw [moreText]
    simpa using hsees.token
  | nil =>
    obtain ⟨text, _, _, hsees, htext⟩ := sees_close h n
    exact ⟨text, hsees.token, List.mem_cons_of_mem _ htext⟩

theorem endsType_of_closing (hs : s.token = .punct text) (htext : text ∈ ["|", ",", ")"]) :
    EndsType s := by
  refine ⟨text, hs, ?_⟩
  simp only [List.mem_cons, List.not_mem_nil, or_false] at htext
  rcases htext with rfl | rfl | rfl <;> decide

theorem not_startsType_of_closing (htext : text ∈ ["|", ",", ")"]) :
    text ∉ ["-", "\x7b", "[", "(", "`"] := by
  simp only [List.mem_cons, List.not_mem_nil, or_false] at htext
  rcases htext with rfl | rfl | rfl <;> decide

/-- A word is an operand unless it is an operator. -/
theorem runs_operatorType_word (hw : FreeWord w) (hs : s.Sees (.word w false) span s')
    (hnext : s'.token = .punct text) (htext : text ∈ ["|", ",", ")"]) :
    Runs (operatorType g) ctx s Q ↔
      (Alternative.word w).isOperand = true ∧ Q ⟨⟨span.start, s'.prevStop⟩, []⟩ s' := by
  have hend : EndsType s' := endsType_of_closing hnext htext
  have hprimary : primaryType g ctx s = .ok (⟨⟨span.start, s'.prevStop⟩, []⟩, s') :=
    eq_ok_of_runs ((runs_primaryType hw hs hend.endsName).2 ⟨rfl, rfl⟩)
  by_cases hop : w ∈ Alternative.typeOperators
  · have hoperand : (Alternative.word w).isOperand = false := by
      simp [Alternative.isOperand, hop]
    simp only [hoperand, Bool.false_eq_true, false_and, iff_false]
    rcases List.mem_cons.1 hop with rfl | hbefore
    · exact not_runs_infer hs hend
    · exact not_runs_prefixOperator hbefore hs hnext (not_startsType_of_closing htext)
  · have hoperand : (Alternative.word w).isOperand = true := by
      simp [Alternative.isOperand, hop]
    obtain ⟨hinfer, hbefore⟩ := not_or.1 (mt List.mem_cons.2 hop)
    have hfirst : wordIn prefixOperators s.token = false := by
      simpa [hs.token, wordIn] using hbefore
    have hword : s.token ≠ .word "infer" false := by simpa [hs.token] using hinfer
    rw [runs_operatorType hfirst hword, runs_of_eq (arrayType_eq hprimary hend)]
    simp [hoperand]

theorem sees_any (rest : List Char) (hrest : endsWord rest = true) (n m : Nat) :
    (State.at n m false ("any".toList ++ rest)).Sees (.word "any" false) ⟨n, n + 3⟩
      (State.front (n + 3) rest) :=
  (starts_word (by decide) hrest).sees_at n m

theorem sees_dots (rest : List Char) (n : Nat) :
    (State.front n ("...".toList ++ rest)).Sees (.punct "...") ⟨n, n + 3⟩
      (State.front (n + 3) rest) :=
  Starts.sees ⟨rfl, rfl, rfl⟩ n

/-- A function starts with a parenthesis and dots. -/
theorem sees_open_dots (rest : List Char) (n m : Nat) :
    (State.at n m false ("(...".toList ++ rest)).Sees (.punct "(") ⟨n, n + 1⟩
      (State.front (n + 1) ("...".toList ++ rest)) :=
  Starts.sees_at ⟨rfl, rfl, rfl⟩ n m

/-- `any[]` is an operand. -/
theorem operatorType_list (n m : Nat) (hend : EndsType (State.front (n + 5) rest)) :
    operatorType g ctx (State.at n m false ("any[]".toList ++ rest)) =
      .ok (⟨⟨n, n + 5⟩, []⟩, State.front (n + 5) rest) := by
  have hany := sees_any ('[' :: ']' :: rest) rfl n m
  have hopen : (State.front (n + 3) ('[' :: ']' :: rest)).Sees (.punct "[") ⟨n + 3, n + 4⟩
    (State.front (n + 4) (']' :: rest)) := Starts.sees ⟨rfl, rfl, rfl⟩ (n + 3)
  have hclose : (State.front (n + 4) (']' :: rest)).Sees (.punct "]") ⟨n + 4, n + 5⟩
    (State.front (n + 5) rest) := Starts.sees ⟨rfl, rfl, rfl⟩ (n + 4)
  have hname : EndsName (State.front (n + 3) ('[' :: ']' :: rest)) :=
    ⟨"[", hopen.token, by decide⟩
  have hfree : FreeWord "any" := ⟨by decide, by decide, by decide⟩
  have hprimary : primaryType g ctx (State.at n m false ("any[]".toList ++ rest)) =
      .ok (⟨⟨n, n + 3⟩, []⟩, State.front (n + 3) ('[' :: ']' :: rest)) := by
    refine eq_ok_of_runs ((runs_primaryType hfree hany hname).2 ⟨?_, rfl⟩)
    rw [prevStop_front]
  have harray := arrayType_brackets hprimary hopen hclose hend
  rw [prevStop_front] at harray
  refine eq_ok_of_runs ((runs_operatorType ?_ ?_).2 ((runs_of_eq harray).2 ⟨?_, rfl⟩))
  · exact congrArg (wordIn prefixOperators) hany.token
  · intro hinfer
    have := hany.token.symm.trans hinfer
    exact absurd this (by decide)
  · have hstart : (State.at n m false ("any[]".toList ++ rest)).start = n := hany.start
    rw [hstart]

/-- The type of a function is no operand: what stands in parentheses is a type. -/
theorem not_runs_operatorType_function (n m : Nat)
    (hg : ∀ ctx s Q, s.token = .punct "..." → ¬ Runs g.type ctx s Q) :
    ¬ Runs (operatorType g) ctx (State.at n m false ("(...".toList ++ rest)) Q := by
  have hopen := sees_open_dots rest n m
  have hdots := sees_dots rest (n + 1)
  rw [runs_operatorType (by rw [hopen.token]; rfl) (by rw [hopen.token]; nofun), arrayType,
    runs_bind, runs_here, runs_bind]
  unfold primaryType
  simp only [runs_bind, runs_here, runs_token, hopen.token, runs_advance, hopen.next,
    runs_inBrackets]
  exact fun h => hg _ _ _ hdots.token h.2

theorem solid_alternative {a : Alternative} (ha : a.IsFree) (as : List Alternative)
    (hrest : closesType rest = true) : solid (a.text.toList ++ (moreText as ++ rest)) = true := by
  cases a with
  | word w => exact (starts_word ha.fits (endsWord_moreText as hrest)).solid
  | list | function => rfl

theorem sees_alternative {a : Alternative} (ha : a.IsFree) (hfunction : a ≠ .function)
    (as : List Alternative) (hrest : closesType rest = true) (n m : Nat) :
    ∃ w span s', (State.at n m false (a.text.toList ++ (moreText as ++ rest))).Sees
      (.word w false) span s' ∧ w ≠ "new" ∧ ∀ v escaped, s'.token ≠ .word v escaped := by
  cases a with
  | word w =>
    have hsees := (starts_word ha.fits (endsWord_moreText as hrest)).sees_at n m
    obtain ⟨text, hnext, htext⟩ := next_moreText as hrest (n + Text.byteLength w.toList)
    refine ⟨w, _, _, hsees, ?_, (endsType_of_closing hnext htext).ne_word⟩
    rintro rfl
    exact absurd ha.reserved (by decide)
  | list =>
    have hsees := sees_any ('[' :: ']' :: (moreText as ++ rest)) rfl n m
    exact ⟨"any", _, _, hsees, by decide, nofun⟩
  | function => exact absurd rfl hfunction

/-- A type that starts with a word is neither that of a function nor that of a constructor. -/
theorem runs_typeAlternatives_word (hs : s.Sees (.word w false) span s') (hnew : w ≠ "new")
    (hnext : ∀ v escaped, s'.token ≠ .word v escaped) {Q : List TypeText → State → Prop} :
    Runs (typeAlternatives g) ctx s Q ↔
      Runs (joinedTypes "|" (typesJoinedBy "&" (operatorType g))) ctx s Q := by
  have hfunction : isFunctionType g ctx s = .ok (false, s) := by
    refine eq_ok_of_runs ?_
    simp [isFunctionType, hs.token]
  have habstract : (s'.token == .word "new" false) = false := by simpa using hnext "new" false
  simp only [typeAlternatives, runs_bind, runs_here, runs_of_eq hfunction, runs_ite, runs_isWord,
    runs_nextToken, hs.next, habstract, Bool.and_false, Bool.false_eq_true, if_false, runs_eatWord,
    hs.token, Token.word.injEq, hnew, false_and]

/-! ## Alternatives in a row -/

theorem length_le_moreText (as : List Alternative) : as.length ≤ (moreText as).length := by
  induction as with
  | nil => exact Nat.le_refl 0
  | cons a as ih =>
    have hbars : " | ".toList.length = 3 := rfl
    simp only [moreText, List.length_append, List.length_cons, hbars]
    omega

theorem length_le_here (as : List Alternative) (rest : List Char) (n : Nat) :
    as.length ≤ (State.front n (moreText as ++ rest)).here.length := by
  cases as with
  | nil => exact Nat.zero_le _
  | cons a as =>
    have hstarts : Starts ('|' :: ' ' :: (a.text.toList ++ (moreText as ++ rest))) (.punct "|")
        ['|'] (' ' :: (a.text.toList ++ (moreText as ++ rest))) := ⟨rfl, rfl, rfl⟩
    have htext : moreText (a :: as) ++ rest =
        ' ' :: '|' :: ' ' :: (a.text.toList ++ (moreText as ++ rest)) := by
      simp [moreText]
    have hmore := length_le_moreText as
    rw [htext, State.front, at_space hstarts.solid, hstarts.at_eq]
    simp only [List.length_cons, List.length_append]
    omega

section

variable (hg : ∀ ctx s Q, s.token = .punct "..." → ¬ Runs g.type ctx s Q)
include hg

theorem runs_alternative {a : Alternative} (ha : a.IsFree) (as : List Alternative)
    {rest : List Char} (hrest : closesType rest = true) (n m : Nat) :
    Runs (typesJoinedBy "&" (operatorType g)) ctx
        (State.at n m false (a.text.toList ++ (moreText as ++ rest))) Q ↔
      a.isOperand = true ∧ Q ⟨⟨n, n + Text.byteLength a.text.toList⟩, []⟩
        (State.front (n + Text.byteLength a.text.toList) (moreText as ++ rest)) := by
  obtain ⟨text, hnext, htext⟩ := next_moreText as hrest (n + Text.byteLength a.text.toList)
  have hend : EndsType _ := endsType_of_closing hnext htext
  have hand := hend.ne_punct "&" (by decide)
  cases a with
  | word w =>
    have hsees := (starts_word ha.fits (endsWord_moreText as hrest)).sees_at n m
    have hfirst : (State.at n m false (w.toList ++ (moreText as ++ rest))).token ≠ .punct "&" := by
      rw [hsees.token]
      nofun
    have hiff : ∀ Q, Runs (operatorType g) ctx _ Q ↔ _ := fun Q =>
      runs_operatorType_word ha hsees hnext htext
    rw [prevStop_front] at hiff
    cases hop : (Alternative.word w).isOperand with
    | true =>
      have heq := eq_ok_of_runs ((hiff _).2 ⟨hop, rfl, rfl⟩)
      exact (runs_of_eq (typesJoinedBy_eq hfirst heq hand)).trans (and_iff_right rfl).symm
    | false =>
      refine iff_of_false (not_runs_typesJoinedBy hfirst fun Q hruns => ?_) (fun h => nomatch h.1)
      exact Bool.false_ne_true (hop.symm.trans ((hiff Q).1 hruns).1)
  | list =>
    have hfirst :
        (State.at n m false ("any[]".toList ++ (moreText as ++ rest))).token ≠ .punct "&" := by
      have hany := sees_any ('[' :: ']' :: (moreText as ++ rest)) rfl n m
      intro hpunct
      exact absurd (hany.token.symm.trans hpunct) (by decide)
    exact (runs_of_eq (typesJoinedBy_eq hfirst (operatorType_list n m hend) hand)).trans
      (and_iff_right rfl).symm
  | function =>
    have hfirst : (State.at n m false
        ("(...args: any[]) => any".toList ++ (moreText as ++ rest))).token ≠ .punct "&" := by
      have hopen := sees_open_dots ("args: any[]) => any".toList ++ (moreText as ++ rest)) n m
      intro hpunct
      exact absurd (hopen.token.symm.trans hpunct) (by decide)
    refine iff_of_false (not_runs_typesJoinedBy hfirst fun Q => ?_) (fun h => nomatch h.1)
    exact not_runs_operatorType_function n m hg

/-- Where the alternatives after the first one stand. -/
def placed (n : Nat) : List Alternative → List TypeText
  | [] => []
  | a :: as =>
    ⟨⟨n + 3, n + 3 + Text.byteLength a.text.toList⟩, []⟩ ::
      placed (n + 3 + Text.byteLength a.text.toList) as

/-- Alternatives are read one after the other, as long as they are operands. -/
theorem runs_moreText {as : List Alternative} (has : ∀ a ∈ as, a.IsFree) {rest : List Char}
    (hrest : closesType rest = true) (n : Nat) {fuel : Nat} (hfuel : as.length < fuel)
    {Q : List TypeText → State → Prop} :
    Runs (repeatUpTo fuel do
        if ← eat "|" then return some (← typesJoinedBy "&" (operatorType g)) else return none) ctx
        (State.front n (moreText as ++ rest)) Q ↔
      (∀ a ∈ as, a.isOperand = true) ∧
        Q (placed n as) (State.front (n + Text.byteLength (moreText as)) rest) := by
  induction as generalizing n fuel Q with
  | nil =>
    obtain ⟨fuel, rfl⟩ := Nat.exists_eq_add_of_lt hfuel
    obtain ⟨text, _, _, hsees, htext⟩ := sees_close hrest n
    have hbar : (State.front n rest).token ≠ .punct "|" := by
      rw [hsees.token]
      rintro ⟨rfl⟩
      exact absurd htext (by decide)
    rw [List.length_nil, Nat.zero_add, runs_repeatUpTo_succ]
    simp [moreText, placed, hbar]
  | cons a as ih =>
    obtain ⟨fuel, rfl⟩ : ∃ k, fuel = k + 1 := ⟨fuel - 1, by omega⟩
    obtain ⟨ha, has⟩ := List.forall_mem_cons.1 has
    have hbar := sees_bar n (a.text.toList ++ (moreText as ++ rest))
    have htext : moreText (a :: as) ++ rest =
        " | ".toList ++ (a.text.toList ++ (moreText as ++ rest)) := by
      simp [moreText]
    rw [runs_repeatUpTo_succ, htext]
    simp only [runs_bind, runs_eat, hbar.token, hbar.next, if_true, runs_pure]
    rw [State.front, at_space (solid_alternative ha as hrest), runs_alternative hg ha as hrest,
      ih has _ (by simpa using hfuel), List.forall_mem_cons, and_assoc]
    have hlen : n + 2 + 1 + Text.byteLength a.text.toList + Text.byteLength (moreText as) =
        n + Text.byteLength (moreText (a :: as)) := by
      simp only [moreText, Text.byteLength_append]
      have hbars : Text.byteLength " | ".toList = 3 := by decide
      omega
    rw [hlen]
    rfl

/-- A union that starts with no function. -/
theorem runs_typeAlternatives {a : Alternative} (ha : a.IsFree) (hfirst : a ≠ .function)
    {as : List Alternative} (has : ∀ a ∈ as, a.IsFree) {rest : List Char}
    (hrest : closesType rest = true) (n m : Nat) {Q : List TypeText → State → Prop} :
    Runs (typeAlternatives g) ctx (State.at n m false (a.text.toList ++ (moreText as ++ rest))) Q ↔
      (∀ b ∈ a :: as, b.isOperand = true) ∧
        Q (⟨⟨n, n + Text.byteLength a.text.toList⟩, []⟩ ::
            placed (n + Text.byteLength a.text.toList) as)
          (State.front (n + Text.byteLength (a.text.toList ++ moreText as)) rest) := by
  obtain ⟨v, span, s', hsees, hnew, hnext⟩ := sees_alternative ha hfirst as hrest n m
  have hfuel := length_le_here as rest (n + Text.byteLength a.text.toList)
  rw [runs_typeAlternatives_word hsees hnew hnext, joinedTypes, runs_bind, runs_eat, hsees.token,
    if_neg (by rintro ⟨⟩), runs_bind, runs_alternative hg ha as hrest, collect, runs_bind,
    runs_bind, runs_get, runs_moreText hg has hrest _ (by omega), runs_pure, List.forall_mem_cons,
    and_assoc, Text.byteLength_append, Nat.add_assoc]

end

/-! ## The type of a function -/

/-- No type starts with dots. -/
theorem not_runs_plainType_dots (depth : Nat) (hs : s.token = .punct "...") :
    ¬ Runs (grammar depth).plainType ctx s Q := by
  cases depth with
  | zero =>
    change ¬ Runs (do fault (← tokenSpan) .tooDeep) ctx s Q
    simp
  | succ depth =>
    change ¬ Runs (plainType (grammar depth)) ctx s Q
    rw [plainType, runs_bind, runs_here, runs_bind]
    exact not_runs_typeAlternatives hs (by decide)

theorem not_runs_type_dots (depth : Nat) (ctx : Context) (s : State) (Q : TypeText → State → Prop)
    (hs : s.token = .punct "...") : ¬ Runs (grammar depth).type ctx s Q := by
  cases depth with
  | zero =>
    change ¬ Runs (do fault (← tokenSpan) .tooDeep) ctx s Q
    simp
  | succ depth =>
    change ¬ Runs (anyType (grammar depth)) ctx s Q
    rw [anyType, runs_bind, runs_here, runs_bind]
    exact not_runs_plainType_dots depth hs

/-- A single operand is read as a type. -/
theorem runs_type (depth : Nat) {a : Alternative} (ha : a.IsFree) (hop : a.isOperand = true)
    {rest : List Char} (hrest : closesType rest = true) (n m : Nat) :
    Runs (grammar (depth + 2)).type ctx (State.at n m false (a.text.toList ++ rest)) Q ↔
      Q ⟨⟨n, n + Text.byteLength a.text.toList⟩, []⟩
        (State.front (n + Text.byteLength a.text.toList) rest) := by
  have hfirst : a ≠ .function := by
    rintro rfl
    cases hop
  have hword : (State.front (n + Text.byteLength a.text.toList) rest).token ≠
      .word "extends" false := by
    obtain ⟨text, _, _, hsees, -⟩ := sees_close hrest (n + Text.byteLength a.text.toList)
    rw [hsees.token]
    nofun
  have hall : ∀ b ∈ [a], b.isOperand = true := by simpa using hop
  have halternatives : ∀ Q, Runs (typeAlternatives (grammar depth)) ctx
      (State.at n m false (a.text.toList ++ (moreText [] ++ rest))) Q ↔ _ := fun Q =>
    runs_typeAlternatives (not_runs_type_dots depth) ha hfirst (List.forall_mem_nil _) hrest n m
  simp only [moreText, List.nil_append, List.append_nil, and_iff_right hall] at halternatives
  change Runs (anyType (grammar (depth + 1))) ctx _ Q ↔ _
  rw [anyType, runs_bind, runs_here, runs_bind]
  change Runs (plainType (grammar depth)) ctx _ _ ↔ _
  rw [plainType, runs_bind, runs_here, runs_bind, halternatives]
  simp [placed, joinedText, hword]

/-- The type of a function starts with a parenthesis and dots. -/
theorem isFunctionType_dots {rest : List Char} (n m : Nat) :
    isFunctionType g ctx (State.at n m false ("(...".toList ++ rest)) =
      .ok (true, State.at n m false ("(...".toList ++ rest)) := by
  have hopen := sees_open_dots rest n m
  have hdots := sees_dots rest (n + 1)
  have hin :
      tokenIn [")", "..."] (State.at n m false ("(...".toList ++ rest)).next.token = true := by
    rw [hopen.next]
    exact congrArg (tokenIn [")", "..."]) hdots.token
  refine eq_ok_of_runs ?_
  simp only [isFunctionType, runs_bind, runs_isAngle, runs_ite, runs_isPunct, hopen.token]
  refine runs_lookahead ?_
  simp only [runs_bind, runs_advance, hopen.token, runs_isPunctIn, hin, runs_ite, if_true,
    runs_pure]
  trivial

/-- What follows the arrow of a function is all part of its type. -/
theorem runs_typeAlternatives_dots (rest : List Char) (n m : Nat)
    {Q : List TypeText → State → Prop} :
    Runs (typeAlternatives g) ctx (State.at n m false ("(...".toList ++ rest)) Q ↔
      Runs (functionType g n) ctx (State.at n m false ("(...".toList ++ rest)) fun t => Q [t] := by
  have hopen := sees_open_dots rest n m
  rw [typeAlternatives, runs_bind, runs_here, runs_bind, runs_of_eq (isFunctionType_dots n m),
    if_pos rfl, runs_bind, hopen.start]
  simp only [runs_pure]

/-- The type that is written for a function. -/
theorem typeAlternatives_function (depth : Nat) (htyped : ctx.typed = true) {rest : List Char}
    (hrest : closesType rest = true) (n m : Nat) :
    typeAlternatives (grammar (depth + 3)) ctx
        (State.at n m false (Alternative.function.text.toList ++ rest)) =
      .ok ([⟨⟨n, n + 23⟩, []⟩], State.front (n + 23) rest) := by
  have hopen : (State.at n m false ("(...args: any[]) => any".toList ++ rest)).Sees (.punct "(")
    ⟨n, n + 1⟩ (State.front (n + 1) ("...args: any[]) => any".toList ++ rest)) :=
    Starts.sees_at ⟨rfl, rfl, rfl⟩ n m
  have hdots : (State.front (n + 1) ("...args: any[]) => any".toList ++ rest)).Sees (.punct "...")
    ⟨n + 1, n + 4⟩ (State.front (n + 4) ("args: any[]) => any".toList ++ rest)) :=
    Starts.sees ⟨rfl, rfl, rfl⟩ (n + 1)
  have hargs : (State.front (n + 4) ("args: any[]) => any".toList ++ rest)).Sees
    (.word "args" false) ⟨n + 4, n + 8⟩ (State.front (n + 8) (": any[]) => any".toList ++ rest)) :=
    (starts_word (w := "args") (by decide) rfl).sees (n + 4)
  have hcolon : (State.front (n + 8) (": any[]) => any".toList ++ rest)).Sees (.punct ":")
    ⟨n + 8, n + 9⟩ (State.at (n + 10) (n + 9) false ("any[]) => any".toList ++ rest)) := by
    rw [← at_space rfl]
    exact Starts.sees ⟨rfl, rfl, rfl⟩ (n + 8)
  have hclose : (State.front (n + 15) (") => any".toList ++ rest)).Sees (.punct ")")
    ⟨n + 15, n + 16⟩ (State.front (n + 16) (" => any".toList ++ rest)) :=
    Starts.sees ⟨rfl, rfl, rfl⟩ (n + 15)
  have hany := starts_word (w := "any") (by decide) (endsWord_moreText [] hrest)
  rw [moreText, List.nil_append] at hany
  have harrow : (State.front (n + 16) (" => any".toList ++ rest)).Sees (.punct "=>")
    ⟨n + 17, n + 19⟩ (State.at (n + 20) (n + 19) false ("any".toList ++ rest)) := by
    rw [← at_space hany.solid]
    exact Starts.sees_space ⟨rfl, rfl, rfl⟩ (n + 16)
  have hlast := hany.sees_at (n + 20) (n + 19)
  have hparam : ∀ ctx, ctx.typed = true → ∀ Q, Runs (signatureParam (grammar (depth + 3))) ctx
      (State.front (n + 1) ("...args: any[]) => any".toList ++ rest)) Q ↔
      Q (true, []) (State.front (n + 15) (") => any".toList ++ rest)) := by
    intro ctx htyped Q
    have hbinding : (grammar (depth + 3)).binding = bindingPattern (grammar (depth + 2)) := rfl
    have htype : ∀ ctx Q, Runs (grammar (depth + 3)).type ctx
        (State.at (n + 10) (n + 9) false ("any[]) => any".toList ++ rest)) Q ↔
        Q ⟨⟨n + 10, n + 15⟩, []⟩ (State.front (n + 15) (") => any".toList ++ rest)) := fun ctx Q =>
      runs_type (depth + 1) (a := .list) trivial rfl rfl (n + 10) (n + 9)
    exact runs_signatureParam hbinding htyped hdots hargs hcolon htype hclose.token
  have hresult : ∀ ctx Q, Runs (grammar (depth + 3)).type ctx
      (State.at (n + 20) (n + 19) false ("any".toList ++ rest)) Q ↔
      Q ⟨⟨n + 20, n + 23⟩, []⟩ (State.front (n + 23) rest) := by
    intro ctx Q
    have hfree : FreeWord "any" := ⟨by decide, by decide, by decide⟩
    exact runs_type (depth + 1) (a := .word "any") hfree rfl hrest _ _
  obtain ⟨text, _, _, hend, -⟩ := sees_close hrest (n + 23)
  have hne :
      (State.front (n + 1) ("...args: any[]) => any".toList ++ rest)).token ≠ .punct ")" := by
    rw [hdots.token]
    decide
  have hasserts : (State.at (n + 20) (n + 19) false ("any".toList ++ rest)).token ≠
      .word "asserts" false := by
    rw [hlast.token]
    decide
  have his : (State.at (n + 20) (n + 19) false ("any".toList ++ rest)).next.token ≠
      .word "is" false := by
    intro his
    rw [hlast.next] at his
    exact absurd (hend.token.symm.trans his) nofun
  refine eq_ok_of_runs
    ((runs_typeAlternatives_dots ("args: any[]) => any".toList ++ rest) n m).2 ?_)
  refine (runs_functionType hopen hne hparam hclose harrow hasserts his hresult htyped).2 ⟨?_, rfl⟩
  rw [prevStop_front]

/-! ## Unions as they are written -/

/-- The text, with `rest` after it, is read as a type with these alternatives: each alternative
stands where the reader found one, in order, and nothing of the text is left. -/
def ReadsAsUnion (text rest : List Char) (alternatives : List String) : Prop :=
  ∃ ts s, typeAlternatives (grammar (8 * (text ++ rest).length + 64))
      { typed := true, tags := false } (State.at 0 0 false (text ++ rest)) = .ok (ts, s) ∧
    ts.map (fun t => t.span.slice? (text ++ rest)) = alternatives.map (fun a => some a.toList) ∧
    s.prevStop = Text.byteLength text

/-- Alternatives with bars between them. -/
def unionText (as : List Alternative) : List Char := (Text.join " | " (as.map (·.text))).toList

theorem unionText_cons (a : Alternative) (as : List Alternative) :
    unionText (a :: as) = a.text.toList ++ moreText as := by
  induction as generalizing a with
  | nil => simp [unionText, Text.join, moreText]
  | cons b as ih =>
    have hjoin :
        unionText (a :: b :: as) = a.text.toList ++ " | ".toList ++ unionText (b :: as) := by
      simp [unionText, Text.join]
    rw [hjoin, ih, moreText]
    simp only [List.append_assoc]

theorem slice_placed (as : List Alternative) (before rest : List Char) :
    (placed (Text.byteLength before) as).map
        (fun t => t.span.slice? (before ++ (moreText as ++ rest))) =
      as.map (fun a => some a.text.toList) := by
  induction as generalizing before with
  | nil => rfl
  | cons a as ih =>
    have hlen : Text.byteLength (before ++ " | ".toList ++ a.text.toList) =
        Text.byteLength before + 3 + Text.byteLength a.text.toList := by
      have hbars : Text.byteLength " | ".toList = 3 := by decide
      simp only [Text.byteLength_append, hbars]
    have hcovers : Span.Covers ⟨Text.byteLength before + 3,
        Text.byteLength before + 3 + Text.byteLength a.text.toList⟩
        (before ++ (moreText (a :: as) ++ rest)) a.text.toList :=
      ⟨before ++ " | ".toList, moreText as ++ rest, by simp [moreText], by
        simp only [Text.byteLength_append]
        rfl⟩
    have hmore := ih (before ++ " | ".toList ++ a.text.toList)
    rw [hlen] at hmore
    have htext : before ++ " | ".toList ++ a.text.toList ++ (moreText as ++ rest) =
        before ++ (moreText (a :: as) ++ rest) := by
      simp [moreText]
    rw [htext] at hmore
    rw [placed, List.map_cons, List.map_cons, hcovers.slice?, hmore]

/-- A function alone is read back, and with others after it is not: they belong to its result. -/
theorem readsAsUnion_function_iff (as : List Alternative) (after : List Char) :
    ReadsAsUnion (unionText (.function :: as)) (',' :: after)
      ((Alternative.function :: as).map (·.text)) ↔ as = [] := by
  constructor
  · rintro ⟨ts, s, hts, hslices, -⟩
    rw [unionText_cons, List.append_assoc] at hts
    obtain ⟨t, _, -, ht⟩ := (runs_typeAlternatives_dots (Q := fun ts' _ => ts = ts')
      ("args: any[]) => any".toList ++ (moreText as ++ ',' :: after)) 0 0).1 ⟨ts, s, hts, rfl⟩
    have hlen := congrArg List.length hslices
    rw [ht] at hlen
    simpa using hlen.symm
  · rintro rfl
    have hunion : unionText [.function] = Alternative.function.text.toList := by
      rw [unionText_cons, moreText, List.append_nil]
    rw [hunion]
    refine ⟨_, _, typeAlternatives_function (8 * _ + 61) rfl rfl 0 0, ?_, prevStop_front _ _⟩
    have hcovers : Span.Covers ⟨0, 23⟩ (Alternative.function.text.toList ++ ',' :: after)
      Alternative.function.text.toList := ⟨[], ',' :: after, rfl, rfl⟩
    simp [hcovers.slice?]

theorem readsAsUnion_cons_iff {a : Alternative} (ha : a.IsFree) (hfirst : a ≠ .function)
    {as : List Alternative} (has : ∀ a ∈ as, a.IsFree) (after : List Char) :
    ReadsAsUnion (unionText (a :: as)) (',' :: after) ((a :: as).map (·.text)) ↔
      ∀ b ∈ a :: as, b.isOperand = true := by
  have hclose : closesType (',' :: after) = true := rfl
  rw [ReadsAsUnion, unionText_cons, List.append_assoc]
  refine (runs_typeAlternatives (not_runs_type_dots _) ha hfirst has hclose 0 0).trans
    (and_iff_left ⟨?_, ?_⟩)
  · have hcovers : Span.Covers ⟨0, 0 + Text.byteLength a.text.toList⟩
        (a.text.toList ++ (moreText as ++ ',' :: after)) a.text.toList :=
      ⟨[], moreText as ++ ',' :: after, by rw [List.nil_append], rfl⟩
    have hmore := slice_placed as a.text.toList (',' :: after)
    rw [List.map_cons, hcovers.slice?, Nat.zero_add, hmore, List.map_cons, List.map_cons,
      List.map_map]
    rfl
  · rw [prevStop_front, Nat.zero_add]

theorem not_readsAsUnion_nil (after : List Char) : ¬ ReadsAsUnion [] (',' :: after) [] := by
  rintro ⟨ts, s, hts, -⟩
  have hcomma : Starts (',' :: after) (.punct ",") [','] after := ⟨rfl, rfl, rfl⟩
  exact not_runs_typeAlternatives (Q := fun _ _ => True) (hcomma.sees 0).token (by decide)
    ⟨ts, s, hts, trivial⟩

/-- The alternatives can all be operands. -/
theorem forall_isOperand_iff (as : List Alternative) :
    (∀ a ∈ as, a.isOperand = true) ↔
      (∀ w, .word w ∈ as → w ∉ Alternative.typeOperators) ∧ .function ∉ as := by
  constructor
  · intro h
    refine ⟨fun w hw => ?_, fun hf => nomatch h _ hf⟩
    simpa [Alternative.isOperand] using h _ hw
  · rintro ⟨hwords, hfunction⟩ a ha
    cases a with
    | word w => simpa [Alternative.isOperand] using hwords w ha
    | list => rfl
    | function => exact absurd ha hfunction

/-- Alternatives are read back exactly when there is one, no word among them is an operator, and the
type of a function has none beside it. -/
theorem readsAsUnion_iff {as : List Alternative} (has : ∀ a ∈ as, a.IsFree) (after : List Char) :
    ReadsAsUnion (unionText as) (',' :: after) (as.map (·.text)) ↔
      as ≠ [] ∧ (∀ w, .word w ∈ as → w ∉ Alternative.typeOperators) ∧
        (.function ∈ as → as.length = 1) := by
  cases as with
  | nil => exact iff_of_false (not_readsAsUnion_nil after) fun h => h.1 rfl
  | cons a as =>
    obtain ⟨ha, has⟩ := List.forall_mem_cons.1 has
    by_cases hfirst : a = .function
    · subst hfirst
      rw [readsAsUnion_function_iff]
      constructor
      · rintro rfl
        simp
      · rintro ⟨-, -, hlen⟩
        simpa using hlen List.mem_cons_self
    · rw [readsAsUnion_cons_iff ha hfirst has, forall_isOperand_iff]
      have hlen : .function ∈ a :: as → (a :: as).length ≠ 1 := by
        intro hmem hone
        obtain rfl : as = [] := by simpa using hone
        exact hfirst (List.mem_singleton.1 hmem).symm
      constructor
      · rintro ⟨hwords, hfunction⟩
        exact ⟨by simp, hwords, fun hmem => absurd hmem hfunction⟩
      · rintro ⟨-, hwords, hfunction⟩
        exact ⟨hwords, fun hmem => hlen hmem (hfunction hmem)⟩

end ScriptSetup.Script.Parse
