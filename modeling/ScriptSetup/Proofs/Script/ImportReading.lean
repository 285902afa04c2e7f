import ScriptSetup.Proofs.Script.ImportShapes
import ScriptSetup.Proofs.Script.QuotedReading
import ScriptSetup.Setup.Synthesis

/-!
# Reading imports back

What the reader of modules makes of a written import. The text is a row of tokens, and the reader
finds in it the names, in order, and the module they are from.
-/

set_option autoImplicit false

namespace ScriptSetup.Script

/-! ## Rows of tokens -/

/-- From this state on, the tokens are these, each of a character or more. What follows a token that
is none is not said. -/
def State.Tokens : State → List Token → Prop
  | _, [] => True
  | s, t :: ts => s.token = t ∧ ts.length ≤ s.here.length ∧ (t.isValid = true → s.next.Tokens ts)

theorem State.Tokens.length_le {s : State} {ts : List Token} (h : s.Tokens ts) :
    ts.length ≤ s.here.length + 1 := by
  cases ts with
  | nil => exact Nat.zero_le _
  | cons t ts => exact Nat.succ_le_succ h.2.1

/-- A word that is written without escapes. -/
abbrev word (w : String) : Token := .word w false

/-- The token of a text in quotes. -/
def quoteToken (text : String) : Token :=
  if onOneLine text.toList then .string (Text.quote text) text else .invalid (.unclosed "string")

theorem isValid_quoteToken (text : String) :
    (quoteToken text).isValid = onOneLine text.toList := by
  rw [quoteToken]
  split
  · next h => rw [h]; rfl
  · next h => rw [Bool.not_eq_true] at h; rw [h]; rfl

namespace Parse

variable {ctx : Context} {s : State} {allType : Bool}

variable {Q : ImportSpecifier → State → Prop} {w text : String} {ts : List Token}

/-! ## Names in braces -/

theorem runs_unrenamed {isType : Bool} {id : Ident} : Runs (unrenamed isType id) ctx s Q ↔
      isReservedHere ctx id.name = false ∧ Q (.named isType none id.name) s := by
  simp only [unrenamed, runs_bind, runs_read, runs_ite, runs_fault, runs_pure]
  cases isReservedHere ctx id.name <;> simp

/-- A word that can be bound can also be written without another before it, unless it is that for
the object itself. -/
theorem CanBind.free_iff (hw : CanBind ctx w) : isReservedHere ctx w = false ↔ w ≠ "this" := by
  rcases hw with hw | ⟨rfl, -⟩
  · refine iff_of_true hw.free ?_
    rintro rfl
    cases hw.free
  · exact iff_of_false (by simp [isReservedHere]; decide) (by simp)

theorem runs_boundName_word (hw : CanBind ctx w) (hs : s.token = word w)
    {Q : Ident → State → Prop} : Runs boundName ctx s Q ↔ Q ⟨w, s.start, s.stop⟩ s.next := by
  rw [runs_boundName, runs_name, hs]
  rcases hw with hw | ⟨rfl, htyped⟩
  · have hthis : w ≠ "this" := by
      rintro rfl
      cases hw.free
    have harguments : w ≠ "arguments" := by
      rintro rfl
      cases hw.plain
    simp [hthis, harguments, hw.free, hw.plain]
  · simp [htyped]

/-- A name alone. -/
theorem runs_importSpecifier_plain (h : s.Tokens (word w :: .punct text :: ts)) :
    Runs (importSpecifier allType) ctx s Q ↔
      isReservedHere ctx w = false ∧ Q (.named false none w) s.next := by
  simp only [State.Tokens, Token.isValid, true_implies] at h
  simp [importSpecifier, h, runs_unrenamed]

/-- A type alone. -/
theorem runs_importSpecifier_type (htyped : ctx.typed = true)
    (h : s.Tokens (word "type" :: word w :: .punct text :: ts)) :
    Runs (importSpecifier false) ctx s Q ↔
      isReservedHere ctx w = false ∧ Q (.named true none w) s.next.next := by
  simp only [State.Tokens, Token.isValid, true_implies] at h
  by_cases hw : w = "as"
  · subst hw
    have hfree : isReservedHere ctx "as" = false := rfl
    simp [importSpecifier, h, typeSpecifier, htyped, hfree]
  · simp [importSpecifier, h, runs_unrenamed, typeSpecifier, htyped, hw]

/-- A name under another. -/
theorem runs_importSpecifier_renamed {u : String} (hw : CanBind ctx w)
    (h : s.Tokens (word u :: word "as" :: word w :: .punct text :: ts)) :
    Runs (importSpecifier allType) ctx s Q ↔
      Q (.named false (some (.ident u)) w) s.next.next.next := by
  simp only [State.Tokens, Token.isValid, true_implies] at h
  have hbound {Q : Ident → State → Prop} := runs_boundName_word (Q := Q) hw h.2.2.2.2.1
  by_cases hu : u = "type" ∧ ctx.typed = true
  · obtain ⟨rfl, htyped⟩ := hu
    by_cases has : w = "as"
    · subst has
      simp [importSpecifier, h, typeSpecifier, htyped, hbound]
    · simp [importSpecifier, h, typeSpecifier, htyped, hbound, has]
  · simp [importSpecifier, h, hbound, hu]

/-- A type under another name. -/
theorem runs_importSpecifier_renamedType {u : String} (htyped : ctx.typed = true)
    (hw : CanBind ctx w)
    (h : s.Tokens (word "type" :: word u :: word "as" :: word w :: .punct text :: ts)) :
    Runs (importSpecifier false) ctx s Q ↔
      Q (.named true (some (.ident u)) w) s.next.next.next.next := by
  simp only [State.Tokens, Token.isValid, true_implies] at h
  have hbound {Q : Ident → State → Prop} := runs_boundName_word (Q := Q) hw h.2.2.2.2.2.2.1
  by_cases hu : u = "as"
  · subst hu
    have has {Q : Ident → State → Prop} : Runs boundName ctx s.next.next Q ↔ _ :=
      runs_boundName_word (.inl ⟨by decide, rfl, rfl⟩) h.2.2.2.2.1
    simp [importSpecifier, h, typeSpecifier, htyped, hbound, has]
  · simp [importSpecifier, h, typeSpecifier, htyped, hbound, hu]

/-- A name that is written as a string. -/
theorem runs_importSpecifier_string {value : String} (hw : CanBind ctx w)
    (h : s.Tokens (quoteToken value :: word "as" :: word w :: .punct text :: ts)) :
    Runs (importSpecifier allType) ctx s Q ↔ onOneLine value.toList = true ∧
      Q (.named false (some (.string value)) w) s.next.next.next := by
  rw [quoteToken] at h
  cases hline : onOneLine value.toList with
  | true =>
    rw [if_pos hline] at h
    simp only [State.Tokens, Token.isValid, true_implies] at h
    have hbound {Q : Ident → State → Prop} := runs_boundName_word (Q := Q) hw h.2.2.2.2.1
    simp [importSpecifier, h, hbound, Token.isValid]
  | false =>
    rw [if_neg (by simp [hline])] at h
    simp [importSpecifier, h.1]

/-- The tokens of a name in braces. -/
def specifierTokens : ImportSpecifier → List Token
  | .named isType imported w =>
    (if isType then [word "type"] else []) ++
      match imported with
      | none => [word w]
      | some (.ident u) => if u = w then [word w] else [word u, word "as", word w]
      | some (.string value) => [quoteToken value, word "as", word w]
  | .default _ | .namespace _ => []

/-- A name in braces as it is read: one that is not renamed is written once. -/
def readForm : ImportSpecifier → ImportSpecifier
  | .named isType (some (.ident u)) w =>
    if u = w then .named isType none w else .named isType (some (.ident u)) w
  | specifier => specifier

/-- The specifier can be read back: it has no line end, and a name that is not renamed is not the
word for the object itself. -/
def ReadsBack : ImportSpecifier → Prop
  | .named _ (some (.string value)) _ => onOneLine value.toList = true
  | .named _ (some (.ident u)) w => ¬ (u = "this" ∧ w = "this")
  | _ => True

instance : DecidablePred ReadsBack
  | .named _ (some (.string value)) _ => inferInstanceAs (Decidable (onOneLine value.toList = true))
  | .named _ (some (.ident u)) w => inferInstanceAs (Decidable (¬ (u = "this" ∧ w = "this")))
  | .named _ none _ | .default _ | .namespace _ => .isTrue trivial

/-- The reader answers, with `P` of its answer, when `ok` holds, and gets stuck when it does not. -/
def Outcome {α : Type} (p : Parse α) (ctx : Context) (s : State) (ok : Prop)
    (P : α → State → Prop) : Prop :=
  (ok ∧ Runs p ctx s P) ∨ (¬ ok ∧ ∀ Q, ¬ Runs p ctx s Q)

namespace Outcome

variable {α β : Type} {p : Parse α} {ok ok' : Prop} {P : α → State → Prop}

theorem of_iff {a : α} {s' : State} (h : ∀ Q, Runs p ctx s Q ↔ ok ∧ Q a s') (hP : ok → P a s') :
    Outcome p ctx s ok P := by
  by_cases hok : ok
  · exact .inl ⟨hok, (h P).2 ⟨hok, hP hok⟩⟩
  · exact .inr ⟨hok, fun Q hruns => hok ((h Q).1 hruns).1⟩

theorem runs (h : Outcome p ctx s ok P) (hok : ok) : Runs p ctx s P :=
  h.elim And.right fun h => absurd hok h.1

theorem ok_iff (h : Outcome p ctx s ok P) (hok : ok ↔ ok') : Outcome p ctx s ok' P :=
  propext hok ▸ h

theorem bind {f : α → Parse β} {R : β → State → Prop} (hp : Outcome p ctx s ok P)
    (hf : ∀ a s', P a s' → Outcome (f a) ctx s' ok' R) :
    Outcome (p >>= f) ctx s (ok ∧ ok') R := by
  rcases hp with ⟨hok, a, s', hrun, hP⟩ | ⟨hok, hstuck⟩
  · have hbind : ∀ Q, Runs (p >>= f) ctx s Q ↔ Runs (f a) ctx s' Q := fun Q =>
      runs_bind.trans (runs_of_eq hrun)
    rcases hf a s' hP with ⟨hok', hruns⟩ | ⟨hok', hstuck⟩
    · exact .inl ⟨⟨hok, hok'⟩, (hbind R).2 hruns⟩
    · exact .inr ⟨fun h => hok' h.2, fun Q hruns => hstuck Q ((hbind Q).1 hruns)⟩
  · exact .inr ⟨fun h => hok h.1, fun Q hruns => hstuck _ (runs_bind.1 hruns)⟩

/-- What follows does not get stuck. -/
theorem last {f : α → Parse β} {R : β → State → Prop} (hp : Outcome p ctx s ok P)
    (hf : ∀ a s', P a s' → Runs (f a) ctx s' R) : Outcome (p >>= f) ctx s ok R :=
  (hp.bind fun a s' h => .inl ⟨trivial, hf a s' h⟩).ok_iff (and_iff_left trivial)

/-- A reader that goes on as another does. -/
theorem congr {q : Parse α} {ctx' : Context} {s' : State} (hq : Outcome q ctx' s' ok P)
    (h : ∀ Q, Runs p ctx s Q ↔ Runs q ctx' s' Q) : Outcome p ctx s ok P :=
  hq.imp (And.imp_right (h P).2) (And.imp_right fun hstuck Q hruns => hstuck Q ((h Q).1 hruns))

/-- The reader answers as said, or with a fault. -/
theorem run (h : Outcome p ctx s ok P) : (ok ∧ ∃ a s', p ctx s = .ok (a, s') ∧ P a s') ∨
    (¬ ok ∧ ∃ fault, p ctx s = .error fault) := by
  refine h.imp id (And.imp_right fun hstuck => ?_)
  cases hrun : p ctx s with
  | error fault => exact ⟨fault, rfl⟩
  | ok answer => exact absurd ⟨_, _, hrun, trivial⟩ (hstuck fun _ _ => True)

end Outcome

variable {ts : List Token} {spec : ImportSpecifier} {specs : List ImportSpecifier} {w : String}

/-- A name in braces is read back, or the reader gets stuck at it. -/
theorem importSpecifier_outcome (hspec : NamedFits ctx allType spec) {text : String}
    (h : s.Tokens (specifierTokens spec ++ .punct text :: ts)) :
    Outcome (importSpecifier allType) ctx s (ReadsBack spec) fun a s' =>
      a = readForm spec ∧ s'.Tokens (.punct text :: ts) := by
  have hplain (isType : Bool) {w : String}
      (hflag : isType = true → ctx.typed = true ∧ allType = false)
      (h : s.Tokens ((if isType then [word "type"] else []) ++ [word w] ++ .punct text :: ts)) :
      Outcome (importSpecifier allType) ctx s (isReservedHere ctx w = false) fun a s' =>
        a = .named isType none w ∧ s'.Tokens (.punct text :: ts) := by
    cases isType with
    | false =>
      exact .of_iff (fun Q => runs_importSpecifier_plain h) fun _ => ⟨rfl, h.2.2 rfl⟩
    | true =>
      obtain ⟨htyped, rfl⟩ := hflag rfl
      exact .of_iff (fun Q => runs_importSpecifier_type htyped h) fun _ =>
        ⟨rfl, (h.2.2 rfl).2.2 rfl⟩
  cases hspec with
  | plain hfits hfree hflag =>
    exact (hplain _ hflag h).imp (fun h => ⟨trivial, h.2⟩) fun h => absurd hfree h.1
  | @renamed isType u w hfits hw hflag =>
    by_cases huw : u = w
    · subst huw
      simp only [specifierTokens, if_true] at h
      have hok : isReservedHere ctx u = false ↔ ReadsBack (.named isType (some (.ident u)) u) := by
        rw [hw.free_iff, ReadsBack, and_self]
      simpa only [hok, readForm, if_true] using hplain isType hflag h
    · have hok : ReadsBack (.named isType (some (.ident u)) w) := by
        rintro ⟨rfl, rfl⟩
        exact huw rfl
      simp only [specifierTokens, if_neg huw] at h
      simp only [readForm, if_neg huw]
      cases isType with
      | false =>
        refine .of_iff (fun Q => (runs_importSpecifier_renamed hw h).trans (and_iff_right hok).symm)
          fun _ => ⟨rfl, ?_⟩
        exact ((h.2.2 rfl).2.2 rfl).2.2 rfl
      | true =>
        obtain ⟨htyped, rfl⟩ := hflag rfl
        refine .of_iff (fun Q => (runs_importSpecifier_renamedType htyped hw h).trans
          (and_iff_right hok).symm) fun _ => ⟨rfl, ?_⟩
        exact (((h.2.2 rfl).2.2 rfl).2.2 rfl).2.2 rfl
  | string value hw =>
    refine .of_iff (fun Q => runs_importSpecifier_string hw h) fun hline => ⟨rfl, ?_⟩
    have hvalid := (isValid_quoteToken value).trans hline
    exact ((h.2.2 hvalid).2.2 rfl).2.2 rfl

/-- A name in braces starts with a word or a string. -/
theorem specifierTokens_ne_punct (hspec : NamedFits ctx allType spec)
    (h : s.Tokens (specifierTokens spec ++ ts)) (text : String) : s.token ≠ .punct text := by
  have hquote (value : String) : quoteToken value ≠ .punct text := by
    rw [quoteToken]
    split <;> nofun
  cases hspec with
  | @plain isType w =>
    cases isType <;> exact h.1 ▸ nofun
  | @renamed isType u w =>
    rw [specifierTokens] at h
    by_cases huw : u = w
    · simp only [if_pos huw] at h
      cases isType <;> exact h.1 ▸ nofun
    · simp only [if_neg huw] at h
      cases isType <;> exact h.1 ▸ nofun
  | string value hw => exact h.1 ▸ hquote value

/-! ## Lists of names -/

/-- The tokens of names in braces after the first one. -/
def moreTokens (specs : List ImportSpecifier) : List Token :=
  specs.flatMap fun spec => .punct "," :: specifierTokens spec

theorem moreTokens_cons (spec : ImportSpecifier) (specs : List ImportSpecifier) :
    moreTokens (spec :: specs) = .punct "," :: (specifierTokens spec ++ moreTokens specs) := rfl

theorem exists_punct_moreTokens (specs : List ImportSpecifier) (ts : List Token) :
    ∃ text ts', moreTokens specs ++ .punct "\x7d" :: ts = .punct text :: ts' := by
  cases specs with
  | nil | cons spec specs => exact ⟨_, _, rfl⟩

theorem length_le_moreTokens (specs : List ImportSpecifier) :
    specs.length ≤ (moreTokens specs).length := by
  induction specs with
  | nil => exact Nat.le_refl 0
  | cons spec specs ih =>
    rw [moreTokens_cons, List.length_cons, List.length_cons, List.length_append]
    omega

/-- Goes on in braces after a name. -/
def nextSpecifier (allType : Bool) : Parse (Option (Option ImportSpecifier)) := do
  if ← isPunct "\x7d" then return none
  expect ","
  if ← isPunct "\x7d" then return some none
  return some (some (← importSpecifier allType))

/-- Names in braces are read back one after the other. -/
theorem moreSpecifiers_outcome (hspecs : ∀ spec ∈ specs, NamedFits ctx allType spec)
    (h : s.Tokens (moreTokens specs ++ .punct "\x7d" :: ts)) {fuel : Nat}
    (hfuel : specs.length < fuel) :
    Outcome (repeatUpTo fuel (nextSpecifier allType)) ctx s (∀ spec ∈ specs, ReadsBack spec)
      fun rest s' => rest.filterMap id = specs.map readForm ∧ s'.Tokens (.punct "\x7d" :: ts) := by
  induction specs generalizing s fuel with
  | nil =>
    obtain ⟨fuel, rfl⟩ : ∃ n, fuel = n + 1 := ⟨fuel - 1, by omega⟩
    have hclose : s.Tokens (.punct "\x7d" :: ts) := h
    refine .inl ⟨nofun, ?_⟩
    rw [runs_repeatUpTo_succ]
    simpa [nextSpecifier, hclose.1] using hclose
  | cons spec specs ih =>
    obtain ⟨fuel, rfl⟩ : ∃ n, fuel = n + 1 := ⟨fuel - 1, by omega⟩
    obtain ⟨hspec, hspecs⟩ := List.forall_mem_cons.1 hspecs
    rw [moreTokens_cons, List.cons_append, List.append_assoc] at h
    obtain ⟨htoken, -, h⟩ := h
    have hbrace := specifierTokens_ne_punct hspec (h rfl) "\x7d"
    have hitem : Outcome (do
        let a ← importSpecifier allType
        let rest ← repeatUpTo fuel (nextSpecifier allType)
        return some a :: rest) ctx s.next (ReadsBack spec ∧ ∀ spec ∈ specs, ReadsBack spec)
        fun rest s' => rest.filterMap id = (spec :: specs).map readForm ∧
          s'.Tokens (.punct "\x7d" :: ts) := by
      obtain ⟨text, ts', hmore⟩ := exists_punct_moreTokens specs ts
      rw [hmore] at h
      refine (importSpecifier_outcome hspec (h rfl)).bind fun a s' ⟨ha, hs'⟩ => ?_
      rw [← hmore] at hs'
      refine (ih hspecs hs' (by simpa using hfuel)).last fun rest s'' ⟨hrest, hs''⟩ =>
        runs_pure.2 ⟨?_, hs''⟩
      rw [List.filterMap_cons, id, hrest, ha, List.map_cons]
    rw [List.forall_mem_cons]
    refine hitem.congr fun Q => ?_
    rw [runs_repeatUpTo_succ]
    simp [nextSpecifier, htoken, hbrace]

/-- The tokens of a namespace or of names in braces. -/
def clauseTokens : List ImportSpecifier → List Token
  | [] => []
  | .namespace w :: _ => [.punct "*", word "as", word w]
  | spec :: specs => .punct "\x7b" :: specifierTokens spec ++ moreTokens specs ++ [.punct "\x7d"]

theorem clauseTokens_named (hspec : NamedFits ctx allType spec) (specs : List ImportSpecifier)
    (ts : List Token) : clauseTokens (spec :: specs) ++ ts =
      .punct "\x7b" :: (specifierTokens spec ++ (moreTokens specs ++ .punct "\x7d" :: ts)) := by
  cases hspec <;> simp [clauseTokens]

/-- Names in braces are read back. -/
theorem commaList_outcome (hspecs : ∀ a ∈ spec :: specs, NamedFits ctx allType a)
    (h : s.Tokens (specifierTokens spec ++ (moreTokens specs ++ .punct "\x7d" :: ts))) :
    Outcome (commaList "\x7d" (importSpecifier allType)) ctx s
      (∀ a ∈ spec :: specs, ReadsBack a) fun x s' =>
        x.1 = (spec :: specs).map readForm ∧ s'.Tokens ts := by
  obtain ⟨hspec, hspecs⟩ := List.forall_mem_cons.1 hspecs
  have hbrace := specifierTokens_ne_punct hspec h "\x7d"
  obtain ⟨text, ts', hmore⟩ := exists_punct_moreTokens specs ts
  rw [hmore] at h
  have hitem : Outcome (do
      let first ← importSpecifier allType
      let rest ← collect (nextSpecifier allType)
      expect "\x7d"
      return (first :: rest.filterMap id, rest.getLast?.any Option.isNone)) ctx s
      (ReadsBack spec ∧ ∀ a ∈ specs, ReadsBack a) fun x s' =>
        x.1 = (spec :: specs).map readForm ∧ s'.Tokens ts := by
    refine (importSpecifier_outcome hspec h).bind fun a s' hfirst => ?_
    obtain ⟨ha, hs'⟩ := hfirst
    rw [← hmore] at hs'
    have hfuel : specs.length < s'.here.length + 2 := by
      have hlength := length_le_moreTokens specs
      have hhere := hs'.length_le
      simp only [List.length_append, List.length_cons] at hhere
      omega
    have hrest : Outcome (collect (nextSpecifier allType)) ctx s' (∀ a ∈ specs, ReadsBack a)
        fun rest s' => rest.filterMap id = specs.map readForm ∧ s'.Tokens (.punct "\x7d" :: ts) :=
      (moreSpecifiers_outcome hspecs hs' hfuel).congr fun Q => by
        rw [Parse.collect, runs_bind, runs_get]
    refine hrest.last fun rest s'' hothers => ?_
    obtain ⟨hmap, hs''⟩ := hothers
    rw [runs_bind, runs_expect, runs_pure, hmap, ha, List.map_cons]
    exact ⟨hs''.1, rfl, hs''.2.2 rfl⟩
  rw [List.forall_mem_cons]
  refine hitem.congr fun Q => ?_
  rw [commaList, runs_bind, runs_eat, if_neg hbrace, if_neg Bool.false_ne_true]
  rfl

/-- A namespace or names in braces are read back. -/
theorem importClause_outcome (hspecs : ClauseFits ctx allType specs) (hne : specs ≠ [])
    (h : s.Tokens (clauseTokens specs ++ ts)) :
    Outcome (importClause allType) ctx s (∀ a ∈ specs, ReadsBack a) fun a s' =>
      a = specs.map readForm ∧ s'.Tokens ts := by
  cases hspecs with
  | @everything w hw =>
    obtain ⟨hstar, -, h⟩ := h
    obtain ⟨has, -, h⟩ := h rfl
    have hname := h rfl
    refine .of_iff (a := [.namespace w]) (fun Q => ?_) fun _ => ⟨rfl, hname.2.2 rfl⟩
    simp [importClause, hstar, has, runs_boundName_word hw hname.1, ReadsBack]
  | names hspecs =>
    cases specs with
    | nil => exact absurd rfl hne
    | cons spec specs =>
      rw [clauseTokens_named (hspecs spec List.mem_cons_self)] at h
      obtain ⟨hopen, -, h⟩ := h
      have hlist : Outcome (do
          let specifiers ← commaList "\x7d" (importSpecifier allType)
          return specifiers.1) ctx s.next (∀ a ∈ spec :: specs, ReadsBack a) fun a s' =>
            a = (spec :: specs).map readForm ∧ s'.Tokens ts :=
        (commaList_outcome hspecs (h rfl)).last fun x s' hx => runs_pure.2 hx
      refine hlist.congr fun Q => ?_
      simp [importClause, hopen]

/-! ## The module that names are from -/

/-- The end of an import. -/
def sourceTokens (source : String) : List Token := [quoteToken source, .punct ";", .eof]

theorem stringLit_outcome {source : String} (h : s.Tokens (quoteToken source :: ts)) :
    Outcome stringLit ctx s (onOneLine source.toList = true) fun lit s' =>
      lit.value = source ∧ s'.Tokens ts := by
  rw [quoteToken] at h
  cases hline : onOneLine source.toList with
  | true =>
    rw [if_pos hline] at h
    refine .inl ⟨rfl, ?_⟩
    simp only [stringLit, runs_bind, runs_tokenSpan, runs_token, h.1, runs_advance, runs_pure]
    exact ⟨rfl, trivial, h.2.2 rfl⟩
  | false =>
    rw [if_neg (by simp [hline])] at h
    refine .inr ⟨Bool.false_ne_true, fun Q => ?_⟩
    simp [stringLit, h.1]

/-- No attributes stand before a semicolon. -/
theorem runs_importAttributes {g : Grammar} (h : s.token = .punct ";")
    {Q : List Property → State → Prop} : Runs (importAttributes g) ctx s Q ↔ Q [] s := by
  cases htyped : ctx.typed <;> simp [importAttributes, h, htyped]

theorem runs_semicolon (h : s.token = .punct ";") {Q : Unit → State → Prop} :
    Runs semicolon ctx s Q ↔ Q () s.next := by
  simp [semicolon, eatSemicolon, h]

theorem fromClause_outcome {g : Grammar} {source : String}
    (h : s.Tokens (word "from" :: sourceTokens source)) :
    Outcome (fromClause g) ctx s (onOneLine source.toList = true) fun x s' =>
      x.1.value = source ∧ x.2 = [] ∧ s'.Tokens [.eof] := by
  have hend : Outcome (do
      let source ← stringLit
      let attributes ← importAttributes g
      semicolon
      return (source, attributes)) ctx s.next (onOneLine source.toList = true) fun x s' =>
        x.1.value = source ∧ x.2 = [] ∧ s'.Tokens [.eof] := by
    refine (stringLit_outcome (h.2.2 rfl)).last fun lit s' ⟨hlit, hs'⟩ => ?_
    rw [runs_bind, runs_importAttributes hs'.1, runs_bind, runs_semicolon hs'.1, runs_pure]
    exact ⟨hlit, rfl, hs'.2.2 rfl⟩
  refine hend.congr fun Q => ?_
  rw [fromClause, runs_bind, runs_expectWord]
  exact and_iff_right h.1

/-! ## Names bound by default -/

theorem quoteToken_ne (source : String) : (∀ w escaped, quoteToken source ≠ .word w escaped) ∧
    ∀ text, quoteToken source ≠ .punct text := by
  rw [quoteToken]
  split
  · exact ⟨nofun, nofun⟩
  · exact ⟨nofun, nofun⟩

/-- A name that a comma or the word before the module follows. -/
theorem runs_importDefault_name (hw : Bindable ctx w) (hs : s.token = word w)
    (hnext : s.next.token = .punct "," ∨ s.next.token = word "from" ∧
      s.next.next.token ≠ word "from" ∧ s.next.next.token ≠ .punct "=")
    {Q : Option Ident × Bool → State → Prop} :
    Runs importDefault ctx s Q ↔ Q (some ⟨w, s.start, s.stop⟩, false) s.next := by
  have hname : nameToken ctx (word w) = true := by simp [nameToken, hw.free]
  have hfrom : nameToken ctx (word "from") = true := rfl
  have hcomma : nameToken ctx (.punct ",") = false := rfl
  have hbound {Q : Ident → State → Prop} := runs_boundName_word (Q := Q) (.inl hw) hs
  rcases hnext with hnext | ⟨hnext, hfirst, hsecond⟩
  · simp [importDefault, hs, hname, hbound, hnext, tokenIn, hcomma]
  · simp [importDefault, hs, hname, hbound, hnext, tokenIn, hfrom, hfirst, hsecond]

/-- A name for types only. -/
theorem runs_importDefault_type (htyped : ctx.typed = true) (hw : Bindable ctx w)
    (hs : s.token = word "type") (hnext : s.next.token = word w)
    (hfrom : s.next.next.token = word "from") {Q : Option Ident × Bool → State → Prop} :
    Runs importDefault ctx s Q ↔ Q (some ⟨w, s.next.start, s.next.stop⟩, true) s.next.next := by
  have htype : nameToken ctx (word "type") = true := rfl
  have hname : nameToken ctx (word w) = true := by simp [nameToken, hw.free]
  have hfirst {Q : Ident → State → Prop} : Runs boundName ctx s Q ↔ _ :=
    runs_boundName_word (.inl ⟨by decide, rfl, rfl⟩) hs
  have hbound {Q : Ident → State → Prop} := runs_boundName_word (Q := Q) (.inl hw) hnext
  simp [importDefault, hs, htype, hfirst, htyped, hnext, tokenIn, hname, hbound, hfrom]

/-- Types only, without a name for all. -/
theorem runs_importDefault_clause {text : String} (htext : text = "*" ∨ text = "\x7b")
    {isType : Bool} (htyped : isType = true → ctx.typed = true)
    (h : s.Tokens ((if isType then [word "type"] else []) ++ .punct text :: ts)) :
    Outcome importDefault ctx s True fun x s' =>
      x = (none, isType) ∧ s'.Tokens (.punct text :: ts) := by
  cases isType with
  | false =>
    have htoken : s.token = .punct text := h.1
    refine .inl ⟨trivial, ?_⟩
    simpa [importDefault, htoken, nameToken] using h
  | true =>
    have htoken : s.token = word "type" := h.1
    have hnext := h.2.2 rfl
    have htype : nameToken ctx (word "type") = true := rfl
    have hfirst {Q : Ident → State → Prop} : Runs boundName ctx s Q ↔ _ :=
      runs_boundName_word (.inl ⟨by decide, rfl, rfl⟩) htoken
    have hin : tokenIn ["*", "\x7b"] (.punct text) = true := by
      rcases htext with rfl | rfl <;> rfl
    refine .inl ⟨trivial, ?_⟩
    simpa [importDefault, htoken, htype, hfirst, htyped rfl, hnext.1, hin] using hnext

/-! ## Imports -/

/-- The tokens of what an import binds. -/
def bindingTokens : List ImportSpecifier → List Token
  | [.default w] => [word w]
  | .default w :: specs => word w :: .punct "," :: clauseTokens specs
  | specs => clauseTokens specs

theorem bindingTokens_both (hne : specs ≠ []) :
    bindingTokens (.default w :: specs) = word w :: .punct "," :: clauseTokens specs := by
  cases specs with
  | nil => exact absurd rfl hne
  | cons => rfl

/-- The tokens of an import after its first word. -/
def importTokens (isType : Bool) (specs : List ImportSpecifier) (source : String) : List Token :=
  if specs = [] then sourceTokens source
  else (if isType then [word "type"] else []) ++ bindingTokens specs ++
    word "from" :: sourceTokens source

/-- The item is an import of this. -/
def IsImport (isType : Bool) (specs : List ImportSpecifier) (source : String) (item : ModuleItem) :
    Prop :=
  ∃ d, item = .importDecl d ∧ d.isType = isType ∧ d.specifiers = specs ∧ d.source.value = source ∧
    d.attributes = []

/-- The end of an import that binds something. -/
def importEnd (g : Grammar) (start : Nat) (isType : Bool) (first : Option Ident)
    (rest : List ImportSpecifier) : Parse ModuleItem := do
  let (source, attributes) ← fromClause g
  let defaults := first.toList.map fun id => ImportSpecifier.default id.name
  return .importDecl ⟨← spanFrom start, isType, defaults ++ rest, source, attributes⟩

section

variable {g : Grammar} {start : Nat} {source : String} {isType : Bool}

variable {specs : List ImportSpecifier} {first : Option Ident}

theorem importEnd_outcome {rest : List ImportSpecifier}
    (h : s.Tokens (word "from" :: sourceTokens source)) :
    Outcome (importEnd g start isType first rest) ctx s (onOneLine source.toList = true)
      fun item s' => IsImport isType
        (first.toList.map (ImportSpecifier.default ·.name) ++ rest) source item ∧
          s'.Tokens [.eof] := by
  refine (fromClause_outcome h).last fun x s' ⟨hvalue, hattributes, hs'⟩ => ?_
  rw [runs_bind, runs_spanFrom, runs_pure]
  exact ⟨⟨_, rfl, rfl, rfl, hvalue, hattributes⟩, hs'⟩

/-- What an import binds after its default. -/
def importRest (isType : Bool) : Option Ident → Parse (List ImportSpecifier)
  | none => importClause isType
  | some _ => do
    if ← eat "," then
      if isType then report (← tokenSpan) (.misplaced "More names after a type")
      importClause isType
    else pure []

/-- An import that does not start with its source. -/
theorem runs_importItem {isType : Bool} {s' : State} (himport : s.token = word "import")
    (hstring : ∀ raw value, s.next.token ≠ .string raw value)
    (hdefault : importDefault ctx s.next = .ok ((first, isType), s'))
    (hequals : s'.token ≠ .punct "=") {Q : ModuleItem → State → Prop} :
    Runs (importItem g start) ctx s Q ↔
      Runs (importRest isType first >>= importEnd g start isType first) ctx s' Q := by
  rw [importItem, runs_bind, runs_expectWord, himport, runs_bind, runs_token]
  simp only [true_and]
  rw [runs_bind, runs_of_eq hdefault]
  simp only [runs_bind, runs_typed, runs_isPunct, runs_ite, beq_eq_false_iff_ne.2 hequals,
    Bool.and_false, Bool.false_eq_true, if_false]
  cases first with
  | none => simp only [importRest, importEnd, runs_bind]
  | some id =>
    by_cases hcomma : s'.token = .punct ","
    · cases isType <;>
        simp only [importRest, importEnd, runs_bind, runs_eat, runs_ite, if_pos hcomma, if_true,
          Bool.false_eq_true, if_false]
    · simp only [importRest, importEnd, runs_bind, runs_eat, runs_ite, if_neg hcomma,
        Bool.false_eq_true, if_false, runs_pure]

/-- A source alone. -/
theorem importItem_bare (himport : s.token = word "import")
    (h : s.next.Tokens (sourceTokens source)) :
    Outcome (importItem g start) ctx s (onOneLine source.toList = true) fun item s' =>
      IsImport false [] source item ∧ s'.Tokens [.eof] := by
  cases hline : onOneLine source.toList with
  | true =>
    have htoken : s.next.token = .string (Text.quote source) source := by
      rw [h.1, quoteToken, if_pos hline]
    obtain ⟨lit, s', hlit, hvalue, hs'⟩ : Runs stringLit ctx s.next _ :=
      (stringLit_outcome h).runs hline
    refine .inl ⟨rfl, ?_⟩
    rw [importItem, runs_bind, runs_expectWord, himport, runs_bind, runs_token, htoken]
    simp only [true_and]
    rw [runs_bind, runs_of_eq hlit, runs_bind, runs_importAttributes hs'.1, runs_bind,
      runs_semicolon hs'.1, runs_bind, runs_spanFrom, runs_pure]
    exact ⟨⟨_, rfl, rfl, rfl, hvalue, rfl⟩, hs'.2.2 rfl⟩
  | false =>
    have htoken : s.next.token = .invalid (.unclosed "string") := by
      rw [h.1, quoteToken, if_neg (by simp [hline])]
    have hdefault : importDefault ctx s.next = .ok ((none, false), s.next) := by
      refine eq_ok_of_runs ?_
      simp [importDefault, htoken, nameToken]
    refine .inr ⟨nofun, fun Q hruns => ?_⟩
    rw [runs_importItem himport (by simp [htoken]) hdefault (by simp [htoken])] at hruns
    simp [importRest, importClause, htoken] at hruns

theorem clauseTokens_punct (hspecs : ClauseFits ctx isType specs) (hne : specs ≠ []) :
    bindingTokens specs = clauseTokens specs ∧ ∃ text ts, (text = "*" ∨ text = "\x7b") ∧
      clauseTokens specs = .punct text :: ts := by
  cases hspecs with
  | everything hw => exact ⟨rfl, "*", _, .inl rfl, rfl⟩
  | names hspecs =>
    cases specs with
    | nil => exact absurd rfl hne
    | cons spec specs =>
      cases hspecs spec List.mem_cons_self
      all_goals exact ⟨rfl, "\x7b", _, .inr rfl, rfl⟩

/-- A clause and what follows it. -/
theorem importClause_end_outcome (hspecs : ClauseFits ctx isType specs) (hne : specs ≠ [])
    (h : s.Tokens (clauseTokens specs ++ word "from" :: sourceTokens source)) :
    Outcome (importClause isType >>= importEnd g start isType first) ctx s
      ((∀ a ∈ specs, ReadsBack a) ∧ onOneLine source.toList = true) fun item s' =>
        IsImport isType (first.toList.map (ImportSpecifier.default ·.name) ++ specs.map readForm)
          source item ∧ s'.Tokens [.eof] :=
  (importClause_outcome hspecs hne h).bind fun _ _ ⟨hrest, hs'⟩ => hrest ▸ importEnd_outcome hs'

/-- A name bound by default alone. -/
theorem importItem_default {w : String} (htyped : isType = true → ctx.typed = true)
    (hw : Bindable ctx w) (himport : s.token = word "import")
    (h : s.next.Tokens ((if isType then [word "type"] else []) ++
      word w :: word "from" :: sourceTokens source)) :
    Outcome (importItem g start) ctx s (onOneLine source.toList = true) fun item s' =>
      IsImport isType [.default w] source item ∧ s'.Tokens [.eof] := by
  obtain ⟨hword, hpunct⟩ := quoteToken_ne source
  have hrest {s' : State} {id : Ident} (hid : id.name = w)
      (hs' : s'.Tokens (word "from" :: sourceTokens source)) :
      Outcome (importRest isType (some id) >>= importEnd g start isType (some id)) ctx s'
        (onOneLine source.toList = true) fun item s' =>
        IsImport isType [.default w] source item ∧ s'.Tokens [.eof] := by
    have hend : Outcome (importEnd g start isType (some id) []) ctx s' _ _ := importEnd_outcome hs'
    rw [Option.toList_some, List.map_singleton, hid, List.append_nil] at hend
    refine hend.congr fun Q => ?_
    simp [importRest, hs'.1]
  cases isType with
  | false =>
    have hname : s.next.token = word w := h.1
    have hfrom := h.2.2 rfl
    have hsource := hfrom.2.2 rfl
    have hdefault := eq_ok_of_runs ((runs_importDefault_name hw hname (.inr ⟨hfrom.1,
      hsource.1 ▸ hword _ _, hsource.1 ▸ hpunct _⟩)).2 ⟨rfl, rfl⟩)
    refine (hrest rfl hfrom).congr fun Q => runs_importItem himport ?_ hdefault ?_
    · simp [hname]
    · simp [hfrom.1]
  | true =>
    have hname := h.2.2 rfl
    have hfrom := hname.2.2 rfl
    have hdefault := eq_ok_of_runs ((runs_importDefault_type (htyped rfl) hw h.1 hname.1
      hfrom.1).2 ⟨rfl, rfl⟩)
    refine (hrest rfl hfrom).congr fun Q => runs_importItem himport ?_ hdefault ?_
    · simp [h.1]
    · simp [hfrom.1]

/-- A namespace or names in braces alone. -/
theorem importItem_clause (htyped : isType = true → ctx.typed = true)
    (hspecs : ClauseFits ctx isType specs) (hne : specs ≠ []) (himport : s.token = word "import")
    (h : s.next.Tokens ((if isType then [word "type"] else []) ++
      (clauseTokens specs ++ word "from" :: sourceTokens source))) :
    Outcome (importItem g start) ctx s
      ((∀ a ∈ specs, ReadsBack a) ∧ onOneLine source.toList = true) fun item s' =>
        IsImport isType (specs.map readForm) source item ∧ s'.Tokens [.eof] := by
  obtain ⟨-, text, ts, htext, hclause⟩ := clauseTokens_punct hspecs hne
  rw [hclause, List.cons_append] at h
  obtain ⟨_, s', hdefault, rfl, hs'⟩ := (runs_importDefault_clause htext htyped h).runs trivial
  have hstring : ∀ raw value, s.next.token ≠ .string raw value := by
    cases isType <;> exact fun _ _ => h.1 ▸ nofun
  have hequals : s'.token ≠ .punct "=" := by
    rw [hs'.1]
    rcases htext with rfl | rfl <;> decide
  rw [← List.cons_append, ← hclause] at hs'
  have hend : Outcome (importClause isType >>= importEnd g start isType none) ctx s' _ _ :=
    importClause_end_outcome hspecs hne hs'
  exact hend.congr fun Q => runs_importItem himport hstring hdefault hequals

/-- A name bound by default before others. -/
theorem importItem_both {w : String} (hw : Bindable ctx w) (hspecs : ClauseFits ctx false specs)
    (hne : specs ≠ []) (himport : s.token = word "import")
    (h : s.next.Tokens (word w :: .punct "," ::
      (clauseTokens specs ++ word "from" :: sourceTokens source))) :
    Outcome (importItem g start) ctx s
      ((∀ a ∈ specs, ReadsBack a) ∧ onOneLine source.toList = true) fun item s' =>
        IsImport false (.default w :: specs.map readForm) source item ∧ s'.Tokens [.eof] := by
  have hname : s.next.token = word w := h.1
  have hcomma := h.2.2 rfl
  have hdefault := eq_ok_of_runs ((runs_importDefault_name hw hname (.inl hcomma.1)).2 ⟨rfl, rfl⟩)
  have hend : Outcome (importClause false >>= importEnd g start false
      (some ⟨w, s.next.start, s.next.stop⟩)) ctx s.next.next.next _ _ :=
    importClause_end_outcome hspecs hne (hcomma.2.2 rfl)
  refine hend.congr fun Q => (runs_importItem himport ?_ hdefault ?_).trans ?_
  · simp [hname]
  · simp [hcomma.1]
  · simp [importRest, hcomma.1]

/-- An import that was written is read back, or the reader gets stuck in it. -/
theorem importItem_outcome (hspecs : ImportFits ctx isType specs)
    (himport : s.token = word "import") (h : s.next.Tokens (importTokens isType specs source)) :
    Outcome (importItem g start) ctx s
      ((∀ a ∈ specs, ReadsBack a) ∧ onOneLine source.toList = true) fun item s' =>
        IsImport (isType && !specs.isEmpty) (specs.map readForm) source item ∧
          s'.Tokens [.eof] := by
  have hdefault {isType : Bool} {w : String} (htyped : isType = true → ctx.typed = true)
      (hw : Bindable ctx w) (h : s.next.Tokens (importTokens isType [.default w] source)) :
      Outcome (importItem g start) ctx s
        ((∀ a ∈ [.default w], ReadsBack a) ∧ onOneLine source.toList = true) fun item s' =>
          IsImport (isType && true) [.default w] source item ∧ s'.Tokens [.eof] := by
    rw [importTokens, if_neg (by simp), List.append_assoc] at h
    rw [Bool.and_true]
    exact (importItem_default htyped hw himport h).ok_iff (by simp [ReadsBack])
  cases hspecs with
  | default htyped hw => exact hdefault htyped hw h
  | clause htyped hspecs =>
    by_cases hne : specs = []
    · subst hne
      rw [importTokens, if_pos rfl] at h
      simpa using importItem_bare himport h
    · rw [importTokens, if_neg hne, (clauseTokens_punct hspecs hne).1, List.append_assoc] at h
      have hempty : specs.isEmpty = false := by simpa using hne
      rw [hempty, Bool.not_false, Bool.and_true]
      exact importItem_clause htyped hspecs hne himport h
  | @both w specs hw hspecs =>
    by_cases hne : specs = []
    · subst hne
      exact hdefault nofun hw h
    · rw [importTokens, if_neg (by simp), bindingTokens_both hne] at h
      exact (importItem_both hw hspecs hne himport h).ok_iff (by simp [ReadsBack])

/-- What an import starts with after its first word is not what a call starts with. -/
theorem importTokens_ne_punct (hspecs : ImportFits ctx isType specs)
    (h : s.Tokens (importTokens isType specs source)) {text : String}
    (htext : text ≠ "*" ∧ text ≠ "\x7b") : s.token ≠ .punct text := by
  have hquote := (quoteToken_ne source).2 text
  rw [importTokens] at h
  cases hspecs with
  | default htyped hw => cases isType <;> exact h.1 ▸ nofun
  | clause htyped hspecs =>
    by_cases hne : specs = []
    · rw [if_pos hne] at h
      exact h.1 ▸ hquote
    · obtain ⟨hbinding, text', ts, htext', hclause⟩ := clauseTokens_punct hspecs hne
      rw [if_neg hne, hbinding, hclause] at h
      cases isType with
      | true => exact h.1 ▸ nofun
      | false =>
        rw [h.1]
        rintro ⟨rfl⟩
        exact htext'.elim htext.1 htext.2
  | @both w specs hw hspecs => cases specs <;> exact h.1 ▸ nofun

/-- A module that is one import. -/
theorem importItems_outcome (hspecs : ImportFits ctx isType specs)
    (himport : s.token = word "import") (h : s.next.Tokens (importTokens isType specs source)) :
    Outcome (moduleItems g) ctx s
      ((∀ a ∈ specs, ReadsBack a) ∧ onOneLine source.toList = true) fun items _ =>
        ∃ item, items = [item] ∧
          IsImport (isType && !specs.isEmpty) (specs.map readForm) source item := by
  have hitem : ∀ Q, Runs (moduleItem g) ctx s Q ↔ Runs (importItem g s.start) ctx s Q := by
    intro Q
    have hpunct {text : String} (htext : text ≠ "*" ∧ text ≠ "\x7b") :
        s.next.token ≠ .punct text := importTokens_ne_punct hspecs h htext
    rw [moduleItem, runs_bind, runs_here, runs_bind, runs_token, himport]
    simp only [runs_bind, runs_nextToken]
    split
    · next heq => exact absurd heq (hpunct (by decide))
    · next heq => exact absurd heq (hpunct (by decide))
    · rfl
  have hend (item : ModuleItem) (s' : State) (hs' : IsImport (isType && !specs.isEmpty)
      (specs.map readForm) source item ∧ s'.Tokens [.eof]) :
      Runs (do
        let items ← repeatUpTo (s.here.length + 1) do
          if (← token) == .eof then return none else return some (← moduleItem g)
        return item :: items) ctx s' fun items _ => ∃ item, items = [item] ∧
          IsImport (isType && !specs.isEmpty) (specs.map readForm) source item := by
    rw [runs_bind, runs_repeatUpTo_succ]
    simpa [hs'.2.1] using hs'.1
  have hone := ((importItem_outcome hspecs himport h).congr hitem).last hend
  refine hone.congr fun Q => ?_
  rw [moduleItems, collect, runs_bind, runs_get, runs_repeatUpTo_succ]
  simp [himport]

end

end Parse

end ScriptSetup.Script
