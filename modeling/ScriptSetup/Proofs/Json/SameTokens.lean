import ScriptSetup.Proofs.Json.Layout

/-!
# Texts with the same tokens

Two texts that differ only in the white space between their tokens are read alike: `SameTokens`
relates them, and `SameTokens.front` says what a reader finds at their next token. The readers of
`Json.Scan` fail with the same fault on both, or give the same value and leave texts with the same
tokens.
-/

set_option autoImplicit false

namespace ScriptSetup.Json

/-! ## Outcomes -/

/-- Two readings fail with the same fault, or give results that are related. -/
inductive Agree {α : Type} (R : α → α → Prop) : Except Fault α → Except Fault α → Prop
  | error (e : Fault) : Agree R (.error e) (.error e)
  | ok {a a' : α} (h : R a a') : Agree R (.ok a) (.ok a')

namespace Agree

variable {α β : Type} {R : α → α → Prop} {S : β → β → Prop} {x x' : Except Fault α}

theorem map {f f' : α → β} (h : Agree R x x') (hf : ∀ {a a' : α}, R a a' → S (f a) (f' a')) :
    Agree S (x.map f) (x'.map f') := by
  cases h with
  | error e => exact .error e
  | ok h => exact .ok (hf h)

theorem bind {f f' : α → Except Fault β} (h : Agree R x x')
    (hf : ∀ {a a' : α}, x = .ok a → R a a' → Agree S (f a) (f' a')) :
    Agree S (x.bind f) (x'.bind f') := by
  cases h with
  | error e => exact .error e
  | ok h => exact hf rfl h

theorem eq (h : Agree (· = ·) x x') : x = x' := by
  cases h with
  | error e => rfl
  | ok h => rw [h]

end Agree

variable {cs cs' rest rest' ds : List Char}

/-! ## Tokens that are read alone -/

/-- No token but punctuation goes on here. -/
def Stops (cs : List Char) : Prop :=
  ∀ c ∈ cs.head?, isSpace c ∨ ∃ p : Punct, c = p.char

/-- No digit stands here. -/
def DigitsEnd (cs : List Char) : Prop :=
  ∀ c ∈ cs.head?, Number.isDigit c = false

/-- No number goes on here. -/
def NumberEnds (cs : List Char) : Prop :=
  DigitsEnd cs ∧ ∀ c ∈ cs.head?, c ∉ ['.', 'e', 'E']

theorem Stops.numberEnds (h : Stops cs) : NumberEnds cs := by
  have hends (c : Char) (hc : c ∈ cs.head?) :
      Number.isDigit c = false ∧ c ∉ ['.', 'e', 'E'] := by
    rcases h c hc with hspace | ⟨p, rfl⟩
    · simp only [isSpace, Bool.or_eq_true, beq_iff_eq] at hspace
      rcases hspace with ((rfl | rfl) | rfl) | rfl <;> decide
    · cases p <;> decide
  exact ⟨fun c hc => (hends c hc).1, fun c hc => (hends c hc).2⟩

theorem takeWhile_digits (hds : ∀ c ∈ ds, Number.isDigit c) (hrest : DigitsEnd rest) :
    (ds ++ rest).takeWhile Number.isDigit = ds := by
  rw [List.takeWhile_append_of_pos hds]
  cases rest with
  | nil => simp
  | cons c rest => simp [hrest c rfl]

theorem dropWhile_digits (hds : ∀ c ∈ ds, Number.isDigit c) (hrest : DigitsEnd rest) :
    (ds ++ rest).dropWhile Number.isDigit = rest := by
  rw [List.dropWhile_append_of_pos hds]
  cases rest with
  | nil => rfl
  | cons c rest => simp [hrest c rfl]

/-- Gathering digits leaves some of them, and what follows. -/
theorem gather_digits (hds : ∀ c ∈ ds, Number.isDigit c) (s : Nat) :
    ∃ s' n ds', (∀ c ∈ ds', Number.isDigit c) ∧
      ∀ rest, DigitsEnd rest → Number.gather s (ds ++ rest) = (s', n, ds' ++ rest) := by
  induction ds generalizing s with
  | nil =>
    refine ⟨s, 0, [], by simp, fun rest hrest => ?_⟩
    cases rest with
    | nil => rfl
    | cons c rest => simp [Number.gather, hrest c rfl]
  | cons d ds ih =>
    by_cases hlt : s * 10 + Number.digitValue d < Number.significandLimit
    · obtain ⟨s', n, ds', hds', h⟩ :=
        ih (fun c hc => hds c (.tail d hc)) (s * 10 + Number.digitValue d)
      refine ⟨s', n + 1, ds', hds', fun rest hrest => ?_⟩
      simp [Number.gather, hds d (.head ds), hlt, h rest hrest]
    · refine ⟨s, 0, d :: ds, hds, fun rest _ => ?_⟩
      simp [Number.gather, hlt]

theorem Digits.exists_cons (d : Digits) : ∃ c ds, d.chars = c :: ds ∧ Number.isDigit c := by
  obtain ⟨c, ds, hd⟩ := List.exists_cons_of_ne_nil d.ne_nil
  exact ⟨c, ds, hd, d.isDigit c (by rw [hd]; exact .head ds)⟩

theorem checkExponent_digits (d : Digits) {sign : List Char} (hsign : sign ∈ [[], ['+'], ['-']])
    (s : Nat) (e : Int) :
    ∃ r, ∀ rest, DigitsEnd rest → Number.checkExponent s e (sign ++ d.chars ++ rest) = r := by
  let value : Int := d.chars.foldl (fun n d => n * 10 + Number.digitValue d) 0
  refine ⟨Number.finish s (if sign = ['-'] then e - value else e + value), fun rest hrest => ?_⟩
  have htake := takeWhile_digits d.isDigit hrest
  obtain ⟨c, ds, hd, hc⟩ := d.exists_cons
  have hplus : c ≠ '+' := by rintro rfl; revert hc; decide
  have hminus : c ≠ '-' := by rintro rfl; revert hc; decide
  simp only [List.mem_cons, List.not_mem_nil, or_false] at hsign
  simp only [hd, List.cons_append] at htake
  rcases hsign with rfl | rfl | rfl <;>
    simp [Number.checkExponent, value, hd, hc, hplus, hminus, htake]

theorem checkTail_exponent (exponent : Option Exponent) (s : Nat) (e : Int) :
    ∃ r, ∀ rest, NumberEnds rest →
      Number.checkTail s e (exponent.elim [] Exponent.chars ++ rest) = r := by
  cases exponent with
  | none =>
    refine ⟨Number.finish s e, fun rest hrest => ?_⟩
    have hmark := hrest.2
    rw [Option.elim_none, List.nil_append, Number.checkTail]
    · rintro cs rfl
      exact hmark 'e' rfl (by decide)
    · rintro cs rfl
      exact hmark 'E' rfl (by decide)
  | some x =>
    obtain ⟨r, hr⟩ := checkExponent_digits x.digits x.isSign s e
    refine ⟨r, fun rest hrest => ?_⟩
    have hx := hr rest hrest.1
    rcases x.isMark with hmark | hmark <;>
      simpa [Exponent.chars, hmark, Number.checkTail] using hx

/-- An exponent does not start with a digit or a point. -/
theorem exponent_ends (exponent : Option Exponent) (h : NumberEnds rest) :
    ∀ c ∈ (exponent.elim [] Exponent.chars ++ rest).head?, Number.isDigit c = false ∧ c ≠ '.' := by
  intro c hc
  cases exponent with
  | none => exact ⟨h.1 c hc, fun hpoint => h.2 c hc (by simp [hpoint])⟩
  | some x =>
    obtain rfl : x.mark = c := Option.some.inj hc
    rcases x.isMark with hmark | hmark <;> rw [hmark] <;> decide

theorem checkRest_tail (n : Numeral) (s : Nat) (e : Int) :
    ∃ r, ∀ rest, NumberEnds rest → Number.checkRest s e (n.tail ++ rest) = r := by
  cases hf : n.fraction with
  | none =>
    obtain ⟨r, hr⟩ := checkTail_exponent n.exponent s e
    refine ⟨r, fun rest hrest => ?_⟩
    rw [Numeral.tail, hf, Option.elim_none, List.nil_append, Number.checkRest, hr rest hrest]
    intro cs hcs
    exact (exponent_ends n.exponent hrest '.' (by rw [hcs]; rfl)).2 rfl
  | some d =>
    obtain ⟨s', k, ds, hds, hgather⟩ := gather_digits d.isDigit s
    obtain ⟨r, hr⟩ := checkTail_exponent n.exponent s' (e - k)
    refine ⟨r, fun rest hrest => ?_⟩
    have hends : DigitsEnd (n.exponent.elim [] Exponent.chars ++ rest) := fun c hc =>
      (exponent_ends n.exponent hrest c hc).1
    have hgather := hgather _ hends
    obtain ⟨c, tail, hd, hc⟩ := d.exists_cons
    simp only [hd, List.cons_append] at hgather
    simp [Numeral.tail, hf, hd, Number.checkRest, Number.checkFraction, hc, hgather,
      dropWhile_digits hds hends, hr rest hrest]

/-- How a number is judged does not depend on what follows it. -/
theorem check_numeral (n : Numeral) :
    ∃ r, ∀ rest, NumberEnds rest → Number.check (n.unsigned ++ rest) = r := by
  have htail {rest : List Char} (hrest : NumberEnds rest) : DigitsEnd (n.tail ++ rest) := by
    intro c hc
    rw [Numeral.tail] at hc
    cases hf : n.fraction with
    | none =>
      rw [hf] at hc
      exact (exponent_ends n.exponent hrest c hc).1
    | some d =>
      obtain rfl : '.' = c := by simpa [hf] using hc
      rfl
  obtain ⟨c, ds, hd, hc⟩ := n.whole.exists_cons
  have hdigits := n.whole.isDigit
  have hleading := n.leading
  rw [hd] at hdigits hleading
  by_cases hzero : c = '0'
  · obtain ⟨r, hr⟩ := checkRest_tail n 0 0
    obtain rfl : ds = [] := by simpa [hzero] using hleading
    refine ⟨r, fun rest hrest => ?_⟩
    have hhead : ((n.tail ++ rest).head?.any Number.isDigit) = false := by
      cases hh : (n.tail ++ rest).head? with
      | none => rfl
      | some d => exact htail hrest d hh
    simp only [Numeral.unsigned, hd, hzero, List.cons_append, List.nil_append, Number.check,
      if_true, hhead, hr rest hrest, Bool.false_eq_true, if_false]
  · obtain ⟨s, k, ds', hds', hgather⟩ :=
      gather_digits (fun d hd => hdigits d (.tail c hd)) (Number.digitValue c)
    obtain ⟨r, hr⟩ := checkRest_tail n s ds'.length
    refine ⟨r, fun rest hrest => ?_⟩
    have hends := htail hrest
    simp only [Numeral.unsigned, hd, List.cons_append, List.append_assoc, Number.check, hzero, hc,
      if_true, if_false, hgather _ hends, takeWhile_digits hds' hends,
      dropWhile_digits hds' hends, hr rest hrest]

/-! ### Strings -/

theorem exists_hexValue {c : Char} (h : isHexDigit c) : ∃ v, hexValue? c = some v := by
  unfold hexValue?
  unfold isHexDigit at h
  split
  · exact ⟨_, rfl⟩
  · split
    · exact ⟨_, rfl⟩
    · split
      · exact ⟨_, rfl⟩
      · simp_all

theorem hexUnit_digits {digits : List Char} (hlength : digits.length = 4)
    (h : ∀ c ∈ digits, isHexDigit c) :
    ∃ v, ∀ rest, hexUnit (digits ++ rest) = .ok (v, rest) := by
  match digits, hlength with
  | [a, b, c, d], _ =>
    simp only [List.mem_cons, List.not_mem_nil, or_false, forall_eq_or_imp, forall_eq] at h
    obtain ⟨ha, hb, hc, hd⟩ := h
    obtain ⟨va, hva⟩ := exists_hexValue ha
    obtain ⟨vb, hvb⟩ := exists_hexValue hb
    obtain ⟨vc, hvc⟩ := exists_hexValue hc
    obtain ⟨vd, hvd⟩ := exists_hexValue hd
    have hbytes : 4 ≤ a.utf8Size + (b.utf8Size + (c.utf8Size + d.utf8Size)) := by
      have := a.utf8Size_pos
      have := b.utf8Size_pos
      have := c.utf8Size_pos
      have := d.utf8Size_pos
      omega
    refine ⟨((va * 16 + vb) * 16 + vc) * 16 + vd, fun rest => ?_⟩
    simp [hexUnit, hbytes, hva, hvb, hvc, hvd]

theorem stringBody_of_escape {d : Char} (h : escape cs = .ok (d, rest)) :
    stringBody ('\\' :: cs) = (stringBody rest).map fun r => (d :: r.1, r.2) := by
  rw [stringBody, if_neg (by decide), if_pos rfl]
  split
  next e he => rw [h] at he; cases he
  next d' rest' he =>
    rw [h] at he
    cases he
    rfl

theorem stringBody_of_escape_error {e : Fault} (h : escape cs = .error e) :
    stringBody ('\\' :: cs) = .error e := by
  rw [stringBody, if_neg (by decide), if_pos rfl]
  split
  next e' he => rw [h] at he; cases he; rfl
  next d' rest' he => rw [h] at he; cases he

/-- The second of two units is looked for in what stands before the quote. -/
theorem trailUnit_items (items : List StringItem) :
    (∃ digits hlength h items', items = .unit digits hlength h :: items') ∨
      ∀ rest, trailUnit (items.flatMap StringItem.chars ++ '"' :: rest) = .error .malformed := by
  cases items with
  | nil => exact .inr fun rest => rfl
  | cons item items =>
    cases item with
    | plain c _ hescape _ =>
      refine .inr fun rest => ?_
      simp [StringItem.chars, trailUnit, hescape]
    | escape c h =>
      refine .inr fun rest => ?_
      have hu : c ≠ 'u' := by rintro rfl; revert h; decide
      simp [StringItem.chars, trailUnit, hu]
    | unit digits hlength h => exact .inl ⟨digits, hlength, h, items, rfl⟩

/-- The value of a string, or the fault in it, does not depend on what follows it. -/
theorem stringBody_items (items : List StringItem) :
    ∃ r : Except Fault (List Char), ∀ rest,
      stringBody (items.flatMap StringItem.chars ++ '"' :: rest) = r.map (·, rest) := by
  match items with
  | [] => exact ⟨.ok [], fun rest => by rw [List.flatMap_nil, List.nil_append, stringBody]; rfl⟩
  | .plain c hquote hescape hcontrol :: items =>
    obtain ⟨r, hr⟩ := stringBody_items items
    refine ⟨r.map (c :: ·), fun rest => ?_⟩
    simp only [List.flatMap_cons, StringItem.chars, List.cons_append, List.nil_append]
    rw [stringBody, if_neg hquote, if_neg hescape, if_neg (Nat.not_lt.2 hcontrol), hr rest]
    cases r <;> rfl
  | .escape c h :: items =>
    obtain ⟨r, hr⟩ := stringBody_items items
    obtain ⟨d, hd⟩ : ∃ d, ∀ rest, escape (c :: rest) = .ok (d, rest) := by
      simp only [List.mem_cons, List.not_mem_nil, or_false] at h
      rcases h with rfl | rfl | rfl | rfl | rfl | rfl | rfl | rfl <;> exact ⟨_, fun _ => rfl⟩
    refine ⟨r.map (d :: ·), fun rest => ?_⟩
    simp only [List.flatMap_cons, StringItem.chars, List.cons_append, List.nil_append]
    rw [stringBody_of_escape (hd _), hr rest]
    cases r <;> rfl
  | .unit digits hlength h :: items =>
    obtain ⟨v, hv⟩ := hexUnit_digits hlength h
    simp only [List.flatMap_cons, StringItem.chars, List.cons_append, List.append_assoc]
    by_cases htrail : isTrailUnit v
    · refine ⟨.error .malformed, fun rest => stringBody_of_escape_error ?_⟩
      simp [escape, unitEscape, hv, htrail]
    · by_cases hlead : isLeadUnit v
      · rcases trailUnit_items items with ⟨digits', hlength', h', items', rfl⟩ | hbad
        · obtain ⟨w, hw⟩ := hexUnit_digits hlength' h'
          simp only [List.flatMap_cons, StringItem.chars, List.cons_append, List.append_assoc]
          by_cases hpair : isTrailUnit w
          · obtain ⟨r, hr⟩ := stringBody_items items'
            refine ⟨r.map (Char.ofNat (0x10000 + (v - 0xD800) * 0x400 + (w - 0xDC00)) :: ·),
              fun rest => ?_⟩
            have hescape : escape ('u' :: (digits ++ ('\\' :: 'u' ::
                (digits' ++ (items'.flatMap StringItem.chars ++ '"' :: rest))))) =
                .ok (Char.ofNat (0x10000 + (v - 0xD800) * 0x400 + (w - 0xDC00)),
                  items'.flatMap StringItem.chars ++ '"' :: rest) := by
              simp [escape, unitEscape, hv, htrail, hlead, trailUnit, hw, hpair]
            rw [stringBody_of_escape hescape, hr rest]
            cases r <;> rfl
          · refine ⟨.error .malformed, fun rest => stringBody_of_escape_error ?_⟩
            simp [escape, unitEscape, hv, htrail, hlead, trailUnit, hw, hpair]
        · refine ⟨.error .malformed, fun rest => stringBody_of_escape_error ?_⟩
          simp [escape, unitEscape, hv, htrail, hlead, hbad]
      · obtain ⟨r, hr⟩ := stringBody_items items
        refine ⟨r.map (Char.ofNat v :: ·), fun rest => ?_⟩
        have hescape : escape ('u' :: (digits ++ (items.flatMap StringItem.chars ++ '"' :: rest))) =
            .ok (Char.ofNat v, items.flatMap StringItem.chars ++ '"' :: rest) := by
          simp [escape, unitEscape, hv, htrail, hlead]
        rw [stringBody_of_escape hescape, hr rest]
        cases r <;> rfl

/-! ## Texts with the same tokens -/

/-- The texts have the same tokens and differ only in the white space between them. -/
inductive SameTokens : List Char → List Char → Prop
  | nil {gap gap' : List Char} (hgap : ∀ c ∈ gap, isSpace c) (hgap' : ∀ c ∈ gap', isSpace c) :
      SameTokens gap gap'
  | cons {gap gap' rest rest' : List Char} (hgap : ∀ c ∈ gap, isSpace c)
      (hgap' : ∀ c ∈ gap', isSpace c) (l : Lexeme)
      (hstops : l.isPunct ∨ (Stops rest ∧ Stops rest')) (h : SameTokens rest rest') :
      SameTokens (gap ++ (l.chars ++ rest)) (gap' ++ (l.chars ++ rest'))

theorem Stops.of_gap {gap : List Char} (hgap : ∀ c ∈ gap, isSpace c) (h : Stops rest) :
    Stops (gap ++ rest) := by
  intro c hc
  cases gap with
  | nil => exact h c hc
  | cons d gap =>
    obtain rfl : d = c := Option.some.inj hc
    exact .inl (hgap d (.head gap))

/-- Ways to write the fillers of a layout as white space make no difference to its tokens. -/
theorem Layout.sameTokens {write write' : Filler → List Char}
    (hwrite : ∀ f, ∀ c ∈ write f, isSpace c) (hwrite' : ∀ f, ∀ c ∈ write' f, isSpace c)
    {l : Layout} (h : Apart l.lexemes) : SameTokens (l.chars write) (l.chars write') := by
  have hgap {write : Filler → List Char} (hwrite : ∀ f, ∀ c ∈ write f, isSpace c)
      (fs : List Filler) : ∀ c ∈ fs.flatMap write, isSpace c := by
    intro c hc
    obtain ⟨f, -, hc⟩ := List.mem_flatMap.1 hc
    exact hwrite f c hc
  have hstops {write : Filler → List Char} (hwrite : ∀ f, ∀ c ∈ write f, isSpace c)
      {t : Lexeme} {tokens : List (List Filler × Lexeme)} {last : List Filler}
      (h : Apart (t :: tokens.map (·.2))) (ht : ¬ t.isPunct) :
      Stops (Layout.chars write ⟨tokens, last⟩) := by
    cases tokens with
    | nil =>
      have hlast : Stops (last.flatMap write ++ []) := .of_gap (hgap hwrite last) (by simp [Stops])
      simpa [Layout.chars] using hlast
    | cons t' tokens =>
      have hpunct := (List.isChain_cons.1 h).1 t'.2 rfl
      obtain ⟨fs, t'⟩ := t'
      cases t' with
      | punct p =>
        have hfront : Stops (fs.flatMap write ++ p.char :: Layout.chars write ⟨tokens, last⟩) :=
          .of_gap (hgap hwrite fs) fun c hc => .inr ⟨p, (Option.some.inj hc).symm⟩
        simpa [Layout.chars, Lexeme.chars] using hfront
      | string _ | numeral _ | word _ => exact (hpunct.elim ht Bool.false_ne_true).elim
  obtain ⟨tokens, last⟩ := l
  induction tokens with
  | nil => exact .nil (hgap hwrite last) (hgap hwrite' last)
  | cons t tokens ih =>
    have htail : Apart (tokens.map (·.2)) := (List.isChain_cons.1 h).2
    have hsep : t.2.isPunct ∨ (Stops (Layout.chars write ⟨tokens, last⟩) ∧
        Stops (Layout.chars write' ⟨tokens, last⟩)) := by
      by_cases ht : t.2.isPunct
      · exact .inl ht
      · exact .inr ⟨hstops hwrite h ht, hstops hwrite' h ht⟩
    have hcons := SameTokens.cons (hgap hwrite t.1) (hgap hwrite' t.1) t.2 hsep (ih htail)
    simpa [Layout.chars] using hcons

/-- A value with what follows it. -/
def After {α : Type} (r r' : α × List Char) : Prop :=
  r.1 = r'.1 ∧ SameTokens r.2 r'.2

theorem Agree.andThen {α β : Type} {S : β → β → Prop} {x x' : Except Fault (α × List Char)}
    {f f' : α × List Char → Except Fault β} (h : Agree After x x')
    (hf : ∀ {a : α} {rest rest' : List Char}, x = .ok (a, rest) → SameTokens rest rest' →
      Agree S (f (a, rest)) (f' (a, rest'))) : Agree S (x.bind f) (x'.bind f') := by
  refine h.bind fun {r r'} hx hr => ?_
  obtain ⟨a, rest⟩ := r
  obtain ⟨a', rest'⟩ := r'
  obtain ⟨rfl, hrest⟩ := hr
  exact hf hx hrest

/-- What two texts with the same tokens have in common at their first character. -/
structure SameFront (c : Char) (tail tail' : List Char) : Prop where
  again : SameTokens (c :: tail) (c :: tail')
  punct : ∀ p : Punct, c = p.char → SameTokens tail tail'
  string : c = '"' → Agree After (stringBody tail) (stringBody tail')
  null : c = 'n' → Agree SameTokens (word "ull".toList tail) (word "ull".toList tail')
  unfit : unfitValue (c :: tail) = unfitValue (c :: tail')

theorem SameTokens.of_lexeme (l : Lexeme) (hstops : l.isPunct ∨ (Stops rest ∧ Stops rest'))
    (h : SameTokens rest rest') : SameTokens (l.chars ++ rest) (l.chars ++ rest') :=
  @SameTokens.cons [] [] rest rest' (by simp) (by simp) l hstops h

theorem SameFront.of_punct (p : Punct) (h : SameTokens rest rest') :
    SameFront p.char rest rest' where
  again := h.of_lexeme (.punct p) (.inl rfl)
  punct := fun _ _ => h
  string := by cases p <;> simp [Punct.char]
  null := by cases p <;> simp [Punct.char]
  unfit := by cases p <;> rfl

theorem SameFront.of_string (items : List StringItem) (hstops : Stops rest ∧ Stops rest')
    (h : SameTokens rest rest') : SameFront '"' (items.flatMap StringItem.chars ++ '"' :: rest)
      (items.flatMap StringItem.chars ++ '"' :: rest') := by
  obtain ⟨r, hr⟩ := stringBody_items items
  refine ⟨?_, ?_, fun _ => ?_, nofun, ?_⟩
  · simpa [Lexeme.chars] using h.of_lexeme (.string items) (.inr hstops)
  · intro p
    cases p <;> simp [Punct.char]
  · rw [hr, hr]
    cases r with
    | error e => exact .error e
    | ok s => exact .ok ⟨rfl, h⟩
  · simp only [unfitValue, hr]
    cases r <;> rfl

/-- The first character of a number, `true` or `false`. -/
theorem SameFront.of_other {c : Char} {tail tail' : List Char}
    (hagain : SameTokens (c :: tail) (c :: tail'))
    (hc : c ∉ ['"', 'n', '[', ']', '\x7b', '\x7d', ',', ':'])
    (hunfit : unfitValue (c :: tail) = unfitValue (c :: tail')) : SameFront c tail tail' where
  again := hagain
  punct := by
    rintro p rfl
    cases p <;> exact (hc (by decide)).elim
  string := by
    rintro rfl
    exact (hc (by decide)).elim
  null := by
    rintro rfl
    exact (hc (by decide)).elim
  unfit := hunfit

theorem check_eq_of_stops (n : Numeral) (hstops : Stops rest ∧ Stops rest') :
    Number.check (n.unsigned ++ rest) = Number.check (n.unsigned ++ rest') := by
  obtain ⟨r, hr⟩ := check_numeral n
  rw [hr rest hstops.1.numberEnds, hr rest' hstops.2.numberEnds]

/-- What stands at the next token of two texts with the same tokens. -/
theorem SameTokens.lexeme_front (l : Lexeme) (hstops : l.isPunct ∨ (Stops rest ∧ Stops rest'))
    (h : SameTokens rest rest') : ∃ c tail, l.chars = c :: tail ∧ isSpace c = false ∧
      SameFront c (tail ++ rest) (tail ++ rest') := by
  have hagain := h.of_lexeme l hstops
  cases l with
  | punct p => exact ⟨p.char, [], rfl, by cases p <;> rfl, .of_punct p h⟩
  | string items =>
    have hfront := SameFront.of_string items (hstops.resolve_left nofun) h
    exact ⟨'"', _, rfl, rfl, by simpa using hfront⟩
  | numeral n =>
    have hcheck := check_eq_of_stops n (hstops.resolve_left nofun)
    rw [Lexeme.chars, Numeral.chars] at hagain ⊢
    cases hneg : n.negative with
    | true =>
      rw [hneg, if_pos rfl] at hagain
      refine ⟨'-', _, rfl, rfl, .of_other hagain (by decide) ?_⟩
      simp [unfitValue, hcheck]
    | false =>
      obtain ⟨c, ds, hd, hc⟩ := n.whole.exists_cons
      have hchars : n.unsigned = c :: (ds ++ n.tail) := by rw [Numeral.unsigned, hd]; rfl
      rw [hneg, if_neg Bool.false_ne_true, hchars] at hagain
      rw [hchars] at hcheck
      have hother : c ∉ ['"', 'n', '[', ']', '\x7b', '\x7d', ',', ':', 't', 'f', '-', ' ', '\n',
          '\t', '\r'] := by
        have hnone : ∀ d ∈ ['"', 'n', '[', ']', '\x7b', '\x7d', ',', ':', 't', 'f', '-', ' ', '\n',
          '\t', '\r'], !Number.isDigit d := List.all_eq_true.1 (by decide)
        exact fun hmem => by simpa [hc] using hnone c hmem
      simp only [List.mem_cons, not_or] at hother
      refine ⟨c, _, hchars, by simp [isSpace, hother], .of_other hagain (by simp [hother]) ?_⟩
      simp only [List.cons_append, List.append_assoc] at hcheck
      simp [unfitValue, hother, hc, hcheck]
  | word w =>
    cases w with
    | true => exact ⟨'t', _, rfl, rfl, .of_other hagain (by decide) rfl⟩
    | false => exact ⟨'f', _, rfl, rfl, .of_other hagain (by decide) rfl⟩
    | null =>
      refine ⟨'n', _, rfl, rfl, hagain, ?_, nofun, fun _ => .ok h, rfl⟩
      intro p
      cases p <;> simp [Punct.char]

/-- What stands at the next token of two texts with the same tokens: the end, or the same
character. -/
@[elab_as_elim]
theorem SameTokens.atFront {motive : List Char → List Char → Prop} (h : SameTokens cs cs')
    (nil : motive [] [])
    (cons : ∀ c tail tail', SameFront c tail tail' → motive (c :: tail) (c :: tail')) :
    motive (skipSpace cs) (skipSpace cs') := by
  have hskip {gap : List Char} (hgap : ∀ c ∈ gap, isSpace c) (rest : List Char) :
      skipSpace (gap ++ rest) = skipSpace rest := List.dropWhile_append_of_pos hgap
  cases h with
  | nil hgap hgap' =>
    have hend {gap : List Char} (hgap : ∀ c ∈ gap, isSpace c) : skipSpace gap = [] := by
      simpa [skipSpace] using hskip hgap []
    rwa [hend hgap, hend hgap']
  | cons hgap hgap' l hstops h =>
    obtain ⟨c, tail, hl, hspace, hfront⟩ := h.lexeme_front l hstops
    have hstop (rest : List Char) : skipSpace (c :: rest) = c :: rest :=
      List.dropWhile_cons_of_neg (by simp [hspace])
    rw [hskip hgap, hskip hgap', hl, List.cons_append, List.cons_append, hstop, hstop]
    exact cons _ _ _ hfront

/-! ## Readers -/

theorem readString_agree (h : SameTokens cs cs') :
    Agree After (readString cs) (readString cs') := by
  unfold readString
  refine h.atFront (.error _) fun c tail tail' hfront => ?_
  dsimp only
  split
  next hc => exact (hfront.string hc).map fun hr => ⟨by rw [hr.1], hr.2⟩
  next => rw [hfront.unfit]; exact .error _

theorem readNullable_agree {α : Type} {read : List Char → Except Fault (α × List Char)}
    (hread : ∀ {cs cs' : List Char}, SameTokens cs cs' → Agree After (read cs) (read cs'))
    (h : SameTokens cs cs') : Agree After (readNullable read cs) (readNullable read cs') := by
  unfold readNullable
  refine h.atFront ?_ fun c tail tail' hfront => ?_
  · exact (hread (.nil (by simp) (by simp))).map fun hr => ⟨by rw [hr.1], hr.2⟩
  · by_cases hc : c = 'n'
    · subst hc
      exact (hfront.null rfl).map fun hr => ⟨rfl, hr⟩
    · simp only [List.cons.injEq, hc, false_and, imp_self, implies_true]
      exact (hread hfront.again).map fun hr => ⟨by rw [hr.1], hr.2⟩

theorem nextElement_agree (first : Bool) (h : SameTokens cs cs') :
    Agree (Option.Rel SameTokens) (nextElement first cs) (nextElement first cs') := by
  unfold nextElement
  refine h.atFront (.error _) fun c tail tail' hfront => ?_
  dsimp only
  split
  next => exact .ok .none
  next =>
    split
    next => exact .ok (.some hfront.again)
    next =>
      split
      next hcomma =>
        refine (hfront.punct .comma hcomma).atFront (.error _) fun d rest rest' hfront' => ?_
        dsimp only
        split
        next => exact .error _
        next => exact .ok (.some hfront'.again)
      next => exact .error _

theorem closeList_agree (h : SameTokens cs cs') :
    Agree SameTokens (closeList cs) (closeList cs') := by
  unfold closeList
  refine h.atFront (.error _) fun c tail tail' hfront => ?_
  dsimp only
  split
  next hc => exact .ok (hfront.punct .closeList hc)
  next => exact .error _

theorem readElement_eq {α : Type} (first : Bool) (read : List Char → Except Fault (α × List Char))
    (cs : List Char) :
    readElement first read cs = (nextElement first cs).bind fun element? =>
      match element? with
      | none => .ok (none, cs)
      | some element => (read element).map fun r => (some r.1, r.2) := by
  unfold readElement
  rcases nextElement first cs with e | (_ | element) <;> rfl

theorem readElement_agree {α : Type} (first : Bool)
    {read : List Char → Except Fault (α × List Char)}
    (hread : ∀ {cs cs' : List Char}, SameTokens cs cs' → Agree After (read cs) (read cs'))
    (h : SameTokens cs cs') :
    Agree After (readElement first read cs) (readElement first read cs') := by
  rw [readElement_eq, readElement_eq]
  refine (nextElement_agree first h).bind fun _ hrel => ?_
  cases hrel with
  | none => exact .ok ⟨rfl, h⟩
  | some hnext => exact (hread hnext).map fun hr => ⟨by rw [hr.1], hr.2⟩

theorem stringElements_eq (first : Bool) (cs : List Char) :
    stringElements first cs = (nextElement first cs).bind fun element? =>
      match element? with
      | none => (closeList cs).map fun rest => ([], rest)
      | some element => (readString element).bind fun r =>
        (stringElements false r.2).map fun rs => (r.1 :: rs.1, rs.2) := by
  rw [stringElements]
  split
  next e hn => rw [hn]; rfl
  next hn => rw [hn]; rfl
  next element hn =>
    simp only [hn, Except.bind]
    split
    next e hs => rw [hs]
    next s rest hs => rw [hs]

theorem stringElements_agree (first : Bool) {cs cs' : List Char} (h : SameTokens cs cs') :
    Agree After (stringElements first cs) (stringElements first cs') := by
  rw [stringElements_eq, stringElements_eq]
  refine (nextElement_agree first h).bind fun hn hrel => ?_
  cases hrel with
  | none => exact (closeList_agree h).map fun hr => ⟨rfl, hr⟩
  | some hnext =>
    refine (readString_agree hnext).andThen fun {s rest rest'} hs hrest => ?_
    have hlt : rest.length < cs.length :=
      Nat.lt_of_lt_of_le (readString_length hs) (nextElement_length hn)
    exact (stringElements_agree false hrest).map fun hr => ⟨by rw [hr.1], hr.2⟩
  termination_by cs.length

theorem readStrings_agree (h : SameTokens cs cs') :
    Agree After (readStrings cs) (readStrings cs') := by
  unfold readStrings
  refine h.atFront (.error _) fun c tail tail' hfront => ?_
  dsimp only
  split
  next hc => exact stringElements_agree true (hfront.punct .openList hc)
  next => rw [hfront.unfit]; exact .error _

theorem nextKey_agree (first : Bool) (h : SameTokens cs cs') :
    Agree After (nextKey first cs) (nextKey first cs') := by
  have hkey {c : Char} {tail tail' : List Char} (hfront : SameFront c tail tail') :
      Agree After
        (if c = '"' then (stringBody tail).map fun r => (some (String.ofList r.1), r.2)
          else .error .malformed)
        (if c = '"' then (stringBody tail').map fun r => (some (String.ofList r.1), r.2)
          else .error .malformed) := by
    split
    next hc => exact (hfront.string hc).map fun hr => ⟨by rw [hr.1], hr.2⟩
    next => exact .error _
  unfold nextKey
  refine h.atFront (.error _) fun c tail tail' hfront => ?_
  dsimp only
  split
  next hc => exact .ok ⟨rfl, hfront.punct .closeObject hc⟩
  next =>
    split
    next => exact hkey hfront
    next =>
      split
      next hcomma =>
        exact (hfront.punct .comma hcomma).atFront (.error _) fun _ _ _ => hkey
      next => exact .error _

theorem colon_agree (h : SameTokens cs cs') : Agree SameTokens (colon cs) (colon cs') := by
  unfold colon
  refine h.atFront (.error _) fun c tail tail' hfront => ?_
  dsimp only
  split
  next hc => exact .ok (hfront.punct .colon hc)
  next => exact .error _

theorem close_agree (h : SameTokens cs cs') : close cs = close cs' := by
  unfold close
  exact h.atFront rfl fun _ _ _ _ => rfl

end ScriptSetup.Json
