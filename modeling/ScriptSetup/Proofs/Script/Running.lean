import ScriptSetup.Script.Grammar.Module

/-!
# Running a reader

`Runs p ctx s Q` says that the reader `p` answers in the state `s`, and that `Q` holds of its
answer and of the state it leaves. For each primitive reader there is a lemma that says what has to
hold of the current token for this, so that a reader is run step by step, and a reader that gets
stuck is seen to do so.
-/

set_option autoImplicit false

namespace ScriptSetup.Script

/-- The token can be stepped over. -/
def Token.isValid : Token → Bool
  | .invalid _ => false
  | _ => true

namespace Parse

/-- The reader answers here, and `Q` holds of the answer and of the state after it. -/
def Runs {α : Type} (p : Parse α) (ctx : Context) (s : State) (Q : α → State → Prop) : Prop :=
  ∃ a s', p ctx s = .ok (a, s') ∧ Q a s'

variable {α β : Type} {ctx : Context} {s : State} {Q : α → State → Prop}

theorem runs_of_eq {p : Parse α} {a : α} {s' : State} (h : p ctx s = .ok (a, s')) :
    Runs p ctx s Q ↔ Q a s' := by
  simp only [Runs, h, Except.ok.injEq, Prod.mk.injEq]
  exact ⟨fun ⟨_, _, ⟨ha, hs⟩, hQ⟩ => ha ▸ hs ▸ hQ, fun hQ => ⟨a, s', ⟨rfl, rfl⟩, hQ⟩⟩

/-- What a reader does is known from what it leads to. -/
theorem eq_ok_of_runs {p : Parse α} {a : α} {s' : State}
    (h : Runs p ctx s fun b s₁ => b = a ∧ s₁ = s') : p ctx s = .ok (a, s') := by
  obtain ⟨_, _, h, rfl, rfl⟩ := h
  exact h

/-! ## Steps of a reader -/

@[simp] theorem runs_pure {a : α} : Runs (pure a) ctx s Q ↔ Q a s :=
  runs_of_eq rfl

@[simp] theorem runs_bind {p : Parse β} {f : β → Parse α} :
    Runs (p >>= f) ctx s Q ↔ Runs p ctx s fun b s' => Runs (f b) ctx s' Q := by
  have hbind : (p >>= f) ctx s = (p ctx s).bind fun r => f r.1 ctx r.2 := rfl
  simp only [Runs, hbind]
  constructor
  · rintro ⟨a, s', h, hQ⟩
    cases hp : p ctx s with
    | error e =>
      rw [hp] at h
      cases h
    | ok r =>
      rw [hp] at h
      exact ⟨r.1, r.2, rfl, a, s', h, hQ⟩
  · rintro ⟨b, s₁, hp, a, s', hf, hQ⟩
    refine ⟨a, s', ?_, hQ⟩
    rw [hp]
    exact hf

@[simp] theorem runs_map {p : Parse β} {f : β → α} :
    Runs (f <$> p) ctx s Q ↔ Runs p ctx s fun b s' => Q (f b) s' := by
  rw [← bind_pure_comp, runs_bind]
  simp only [runs_pure]

@[simp] theorem runs_ite {c : Prop} [Decidable c] {p q : Parse α} :
    Runs (if c then p else q) ctx s Q ↔ if c then Runs p ctx s Q else Runs q ctx s Q := by
  split <;> rfl

@[simp] theorem runs_get {Q : State → State → Prop} : Runs get ctx s Q ↔ Q s s :=
  runs_of_eq rfl

@[simp] theorem runs_read {Q : Context → State → Prop} : Runs read ctx s Q ↔ Q ctx s :=
  runs_of_eq rfl

@[simp] theorem runs_withReader {f : Context → Context} {p : Parse α} :
    Runs (withReader f p) ctx s Q ↔ Runs p (f ctx) s Q := Iff.rfl

@[simp] theorem runs_fault {span : Span} {cause : Cause} :
    Runs (fault span cause : Parse α) ctx s Q ↔ False := by
  refine iff_of_false ?_ id
  rintro ⟨a, s', h, -⟩
  cases h

/-! ## Looking at the current token -/

@[simp] theorem runs_token {Q : Token → State → Prop} : Runs token ctx s Q ↔ Q s.token s := by
  simp [token]

@[simp] theorem runs_here {Q : Nat → State → Prop} : Runs here ctx s Q ↔ Q s.start s := by
  simp [here]

@[simp] theorem runs_tokenSpan {Q : Span → State → Prop} :
    Runs tokenSpan ctx s Q ↔ Q ⟨s.start, s.stop⟩ s := by
  simp [tokenSpan]

@[simp] theorem runs_spanFrom {n : Nat} {Q : Span → State → Prop} :
    Runs (spanFrom n) ctx s Q ↔ Q ⟨n, s.prevStop⟩ s := by
  simp [spanFrom]

@[simp] theorem runs_newlineBefore {Q : Bool → State → Prop} :
    Runs newlineBefore ctx s Q ↔ Q s.newline s := by
  simp [newlineBefore]

@[simp] theorem runs_typed {Q : Bool → State → Prop} : Runs typed ctx s Q ↔ Q ctx.typed s := by
  simp [typed]

@[simp] theorem runs_nextToken {Q : Token → State → Prop} :
    Runs nextToken ctx s Q ↔ Q s.next.token s := by
  simp [nextToken]

@[simp] theorem runs_nextOnLine {Q : Option Token → State → Prop} :
    Runs nextOnLine ctx s Q ↔ Q (if s.next.newline then none else some s.next.token) s := by
  simp [nextOnLine]

@[simp] theorem runs_isPunct {text : String} {Q : Bool → State → Prop} :
    Runs (isPunct text) ctx s Q ↔ Q (s.token == .punct text) s := by
  simp [isPunct]

@[simp] theorem runs_isWord {word : String} {Q : Bool → State → Prop} :
    Runs (isWord word) ctx s Q ↔ Q (s.token == .word word false) s := by
  simp [isWord]

@[simp] theorem runs_isAngle {Q : Bool → State → Prop} :
    Runs isAngle ctx s Q ↔ Q (s.token == .punct "<" || s.token == .punct "<<") s := by
  simp [isAngle]

/-- The token is one of these operators or separators. -/
def tokenIn (texts : List String) : Token → Bool
  | .punct t => texts.contains t
  | _ => false

@[simp] theorem runs_isPunctIn {texts : List String} {Q : Bool → State → Prop} :
    Runs (isPunctIn texts) ctx s Q ↔ Q (tokenIn texts s.token) s := by
  unfold isPunctIn tokenIn
  simp only [runs_bind, runs_token]
  split <;> simp_all

/-- The token is one of these words. -/
def wordIn (words : List String) : Token → Bool
  | .word w false => words.contains w
  | _ => false

@[simp] theorem runs_isWordIn {words : List String} {Q : Bool → State → Prop} :
    Runs (isWordIn words) ctx s Q ↔ Q (wordIn words s.token) s := by
  unfold isWordIn wordIn
  simp only [runs_bind, runs_token]
  split <;> simp_all

/-- The token is a word that can be a name. -/
def nameToken (ctx : Context) : Token → Bool
  | .word name _ => !isReservedHere ctx name
  | _ => false

@[simp] theorem runs_isName {Q : Bool → State → Prop} :
    Runs isName ctx s Q ↔ Q (nameToken ctx s.token) s := by
  unfold isName nameToken
  simp only [runs_bind, runs_token]
  split <;> simp_all

@[simp] theorem runs_unexpected {expected : String} :
    Runs (unexpected expected : Parse α) ctx s Q ↔ False := by
  unfold unexpected
  simp only [runs_bind, runs_tokenSpan, runs_token]
  split <;> simp

@[simp] theorem runs_report {span : Span} {cause : Cause} {Q : Unit → State → Prop} :
    Runs (report span cause) ctx s Q ↔ ctx.quiet = true ∧ Q () s := by
  simp [report]

/-! ## Stepping over the current token -/

@[simp] theorem runs_advance {Q : Unit → State → Prop} :
    Runs advance ctx s Q ↔ s.token.isValid = true ∧ Q () s.next := by
  unfold advance
  simp only [runs_bind, runs_get]
  split
  · next h => simp [h, Token.isValid]
  · next h =>
    have hvalid : s.token.isValid = true := by
      unfold Token.isValid
      split
      · next cause heq => exact absurd heq (h cause)
      · rfl
    rw [hvalid]
    simp only [true_and]
    exact runs_of_eq rfl

@[simp] theorem runs_eat {text : String} {Q : Bool → State → Prop} :
    Runs (eat text) ctx s Q ↔ if s.token = .punct text then Q true s.next else Q false s := by
  unfold eat
  simp only [runs_bind, runs_isPunct, runs_ite, runs_pure, beq_iff_eq, runs_advance]
  split
  · next h => simp [h, Token.isValid]
  · rfl

@[simp] theorem runs_eatWord {word : String} {Q : Bool → State → Prop} :
    Runs (eatWord word) ctx s Q ↔
      if s.token = .word word false then Q true s.next else Q false s := by
  unfold eatWord
  simp only [runs_bind, runs_isWord, runs_ite, runs_pure, beq_iff_eq, runs_advance]
  split
  · next h => simp [h, Token.isValid]
  · rfl

@[simp] theorem runs_expect {text : String} {Q : Unit → State → Prop} :
    Runs (expect text) ctx s Q ↔ s.token = .punct text ∧ Q () s.next := by
  unfold expect
  simp only [runs_bind, runs_eat]
  split <;> simp_all

@[simp] theorem runs_expectWord {word : String} {Q : Unit → State → Prop} :
    Runs (expectWord word) ctx s Q ↔ s.token = .word word false ∧ Q () s.next := by
  unfold expectWord
  simp only [runs_bind, runs_eatWord]
  split <;> simp_all

@[simp] theorem runs_anyName {Q : Ident → State → Prop} :
    Runs anyName ctx s Q ↔
      ∃ w escaped, s.token = .word w escaped ∧ Q ⟨w, s.start, s.stop⟩ s.next := by
  unfold anyName
  simp only [runs_bind, runs_tokenSpan, runs_token]
  split
  · next w escaped h => simp [h, Token.isValid]
  · next h =>
    simp only [runs_unexpected, false_iff, not_exists, not_and]
    exact fun w escaped hw => absurd hw (h w escaped)

@[simp] theorem runs_name {Q : Ident → State → Prop} :
    Runs name ctx s Q ↔ ∃ w escaped, s.token = .word w escaped ∧ isReservedHere ctx w = false ∧
      (w = "arguments" → ctx.inField = true → ctx.quiet = true) ∧
      Q ⟨w, s.start, s.stop⟩ s.next := by
  unfold name
  simp only [runs_bind, runs_tokenSpan, runs_token]
  split
  · next w escaped h =>
    simp only [runs_bind, runs_read, runs_ite, runs_fault, runs_advance, runs_report, runs_pure, h,
      Token.isValid, Token.word.injEq]
    constructor
    · intro hruns
      exact ⟨w, escaped, ⟨rfl, rfl⟩, by grind⟩
    · rintro ⟨_, _, ⟨rfl, rfl⟩, hfree, hquiet, hQ⟩
      grind
  · next h =>
    simp only [runs_unexpected, false_iff, not_exists, not_and]
    exact fun w escaped hw => absurd hw (h w escaped)

theorem runs_boundName {Q : Ident → State → Prop} :
    Runs boundName ctx s Q ↔
      if s.token = .word "this" false ∧ ctx.typed = true then Q ⟨"this", s.start, s.stop⟩ s.next
      else Runs name ctx s fun id s' =>
        (isRestrictedName id.name = true → ctx.quiet = true) ∧ Q id s' := by
  unfold boundName
  simp only [runs_bind, runs_tokenSpan, runs_isWord, runs_typed, runs_ite, runs_token, runs_pure,
    Bool.and_eq_true, beq_iff_eq]
  split
  · next h => simp [h.1, Token.isValid]
  · split
    · next h =>
      simp only [runs_name, runs_bind, runs_ite, runs_report, runs_pure, h]
      grind
    · next h =>
      simp only [runs_unexpected, runs_name, false_iff, not_exists, not_and]
      exact fun w escaped hw => absurd hw (h w escaped)

@[simp] theorem runs_inBrackets {p : Parse α} :
    Runs (inBrackets p) ctx s Q ↔ Runs p { ctx with
      allowIn := true, inCond := false, colonFollows := false, noConditionalType := false,
      inForHead := false, arrowAt := none } s Q := Iff.rfl

/-- What is only tried leaves the state as it was. -/
theorem runs_lookahead {p : Parse Bool} {Q : Bool → State → Prop}
    (h : Runs p { ctx with quiet := true } s fun b _ => Q b s) : Runs (lookahead p) ctx s Q := by
  obtain ⟨b, s', hp, hQ⟩ := h
  refine ⟨b, s, ?_, hQ⟩
  rw [lookahead, hp]

/-! ## Repetition -/

theorem runs_repeatUpTo_succ {step : Parse (Option β)} {n : Nat} {Q : List β → State → Prop} :
    Runs (repeatUpTo (n + 1) step) ctx s Q ↔ Runs step ctx s fun b? s' =>
      match b? with
      | none => Q [] s'
      | some b => Runs (repeatUpTo n step) ctx s' fun bs => Q (b :: bs) := by
  rw [repeatUpTo, runs_bind]
  refine iff_of_eq (congrArg (Runs step ctx s) (funext fun b? => funext fun s' => propext ?_))
  cases b? <;> simp

/-- A loop that does not start. -/
theorem runs_collect_nil {step : Parse (Option β)} {Q : List β → State → Prop}
    (h : step ctx s = .ok (none, s)) : Runs (collect step) ctx s Q ↔ Q [] s := by
  rw [collect, runs_bind, runs_get, runs_repeatUpTo_succ, runs_of_eq h]

theorem runs_iterateUpTo_succ {step : α → Parse (Option α)} {n : Nat} {a : α} :
    Runs (iterateUpTo (n + 1) step a) ctx s Q ↔ Runs (step a) ctx s fun b? s' =>
      match b? with
      | none => Q a s'
      | some b => Runs (iterateUpTo n step b) ctx s' Q := by
  rw [iterateUpTo, runs_bind]
  refine iff_of_eq (congrArg (Runs (step a) ctx s) (funext fun b? => funext fun s' => propext ?_))
  cases b? <;> simp

end Parse

end ScriptSetup.Script
