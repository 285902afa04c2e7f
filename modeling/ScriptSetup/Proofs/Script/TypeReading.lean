import ScriptSetup.Proofs.Script.Nodes
import ScriptSetup.Proofs.Script.Spelling

/-!
# Running the reader of types

What the readers of types do in front of the simplest types: a word is a type where it ends,
brackets after one make another, operators and bars take operands, and a function has parameters and
a result. A reader that finds none of these gets stuck.
-/

set_option autoImplicit false

namespace ScriptSetup.Script.Parse

variable {g : Grammar} {ctx : Context} {s s' : State} {w : String} {span : Span}
  {Q : TypeText → State → Prop}

variable {s₁ s₂ : State} {op text : String} {p : Parse TypeText} {span₁ span₂ : Span}
  {texts : List String}

/-! ## What follows -/

/-- An operator or separator other than these is next. -/
def NextIsNot (texts : List String) (s : State) : Prop :=
  ∃ text, s.token = .punct text ∧ text ∉ texts

theorem NextIsNot.ne_punct (h : NextIsNot texts s) (text : String) (htext : text ∈ texts) :
    s.token ≠ .punct text := by
  obtain ⟨other, hother, hmem⟩ := h
  rw [hother]
  intro heq
  cases heq
  exact hmem htext

theorem NextIsNot.ne_word (h : NextIsNot texts s) (word : String) (escaped : Bool) :
    s.token ≠ .word word escaped := by
  obtain ⟨other, hother, -⟩ := h
  rw [hother]
  nofun

/-- The name of a type ends here. -/
abbrev EndsName : State → Prop := NextIsNot [".", "<", "<<"]

/-- A type that is not an operand of `&` ends here. -/
abbrev EndsType : State → Prop := NextIsNot [".", "<", "<<", "[", "&"]

theorem EndsType.endsName (h : EndsType s) : EndsName s := by
  obtain ⟨text, htoken, htext⟩ := h
  exact ⟨text, htoken, fun hmem => htext (List.mem_append_left ["[", "&"] hmem)⟩

/-! ## Names -/

theorem runs_typeFrom {n : Nat} {names : List Ident} :
    Runs (typeFrom n names) ctx s Q ↔ Q ⟨⟨n, s.prevStop⟩, names⟩ s := by
  simp [typeFrom]

/-- A name without dots. -/
theorem runs_dottedName {Q : Unit → State → Prop} (hs : s.Sees (.word w false) span s')
    (hend : EndsName s') : Runs dottedName ctx s Q ↔ Q () s' := by
  have hdot := hend.ne_punct "." (by decide)
  have hstop : collect (do
      if ← eat "." then
        let _ ← anyName
        return some ()
      else return none) ctx s' = .ok ([], s') := by
    refine eq_ok_of_runs ((runs_collect_nil (eq_ok_of_runs ?_)).2 ⟨rfl, rfl⟩)
    simp [hdot]
  simp only [dottedName, runs_bind, runs_anyName, hs.token, hs.next, runs_of_eq hstop, runs_pure]
  simp

theorem runs_typeArgsOnLine {Q : List Ident → State → Prop} (hend : EndsName s) :
    Runs (typeArgsOnLine g) ctx s Q ↔ Q [] s := by
  have hangle := hend.ne_punct "<" (by decide)
  have hangles := hend.ne_punct "<<" (by decide)
  simp [typeArgsOnLine, hangle, hangles]

/-- A word is a type. -/
theorem runs_primaryType (hw : FreeWord w) (hs : s.Sees (.word w false) span s')
    (hend : EndsName s') :
    Runs (primaryType g) ctx s Q ↔ Q ⟨⟨span.start, s'.prevStop⟩, []⟩ s' := by
  have hname : Runs (do
      dottedName
      let names ← typeArgsOnLine g
      typeFrom span.start names) ctx s Q ↔ Q ⟨⟨span.start, s'.prevStop⟩, []⟩ s' := by
    simp only [runs_bind, runs_dottedName hs hend, runs_typeArgsOnLine hend, runs_typeFrom]
  have hreserved {v : String} (h : w = v) (hv : reservedWords.contains v = true) : False := by
    rw [← h, hw.reserved] at hv
    cases hv
  unfold primaryType
  simp only [runs_bind, runs_here, runs_token, hs.token, hs.start]
  split
  case h_9 heq | h_10 heq | h_11 heq | h_12 heq | h_13 heq =>
    exact (hreserved (Token.word.inj heq).1 (by decide)).elim
  case h_14 =>
    have hthis : (s'.token == .word "this" false) = false := by
      simpa using hend.ne_word "this" false
    rw [runs_bind, runs_nextToken, hs.next, hthis]
    exact hname
  case h_15 heq =>
    obtain ⟨rfl, -⟩ := Token.word.inj heq
    have hnever : isNeverType w = false := by
      simp only [isNeverType, hw.reserved, Bool.false_and, Bool.or_false, beq_eq_false_iff_ne]
      rintro rfl
      exact absurd hw.strict (by decide)
    have hdot : (s'.token != .punct ".") = true := by
      simpa using hend.ne_punct "." (by decide)
    rw [runs_bind, runs_nextToken, hs.next, hdot, Bool.and_true, hnever]
    cases builtinTypes.contains w with
    | true => simp [hs.token, hs.next, runs_typeFrom, Token.isValid]
    | false => exact hname
  case h_17 hword _ => exact (hword w rfl).elim
  all_goals
    rename_i heq
    cases heq

/-- No type starts with `|`, a comma or dots. -/
theorem not_runs_primaryType (hs : s.token = .punct text)
    (htext : text ∉ ["-", "\x7b", "[", "(", "`"]) : ¬ Runs (primaryType g) ctx s Q := by
  unfold primaryType
  simp only [runs_bind, runs_here, runs_token, hs]
  split
  case h_4 heq | h_5 heq | h_6 heq | h_7 heq | h_8 heq =>
    cases heq
    exact absurd htext (by decide)
  case h_17 => simp
  all_goals
    rename_i heq
    cases heq

/-! ## Operators after and before a type -/

theorem arrayType_eq {t : TypeText} (hfirst : primaryType g ctx s = .ok (t, s'))
    (hend : EndsType s') : arrayType g ctx s = .ok (t, s') := by
  have hbracket := hend.ne_punct "[" (by decide)
  refine eq_ok_of_runs ?_
  rw [arrayType, runs_bind, runs_here, runs_bind, runs_of_eq hfirst, iterate, runs_bind, runs_get,
    runs_iterateUpTo_succ]
  simp [hbracket]

/-- A type with brackets after it. -/
theorem arrayType_brackets {names : List Ident}
    (hfirst : primaryType g ctx s = .ok (⟨span, names⟩, s₁)) (hopen : s₁.Sees (.punct "[") span₁ s₂)
    (hclose : s₂.Sees (.punct "]") span₂ s') (hend : EndsType s') :
    arrayType g ctx s = .ok (⟨⟨s.start, s'.prevStop⟩, names⟩, s') := by
  have hbracket := hend.ne_punct "[" (by decide)
  refine eq_ok_of_runs ?_
  rw [arrayType, runs_bind, runs_here, runs_bind, runs_of_eq hfirst, iterate, runs_bind, runs_get,
    runs_iterateUpTo_succ]
  simp only [runs_bind, runs_isPunct, runs_newlineBefore, runs_ite, hopen.token, hopen.newline,
    hopen.next, runs_advance, runs_eat, hclose.token, hclose.next, runs_typeFrom, runs_pure]
  rw [runs_iterateUpTo_succ]
  simp [hbracket, Token.isValid]

/-- The operators of types that an operand follows. -/
def prefixOperators : List String := ["keyof", "unique", "readonly"]

theorem runs_operatorType (hbefore : wordIn prefixOperators s.token = false)
    (hinfer : s.token ≠ .word "infer" false) :
    Runs (operatorType g) ctx s Q ↔ Runs (arrayType g) ctx s Q := by
  have hnone : collect (do
      if ← isWordIn ["keyof", "unique", "readonly"] then
        advance
        return some ()
      else return none) ctx s = .ok ([], s) := by
    refine eq_ok_of_runs ((runs_collect_nil (eq_ok_of_runs ?_)).2 ⟨rfl, rfl⟩)
    rw [prefixOperators] at hbefore
    simp [hbefore]
  simp only [operatorType, runs_bind, runs_here, runs_of_eq hnone, runs_isWord]
  simp [hinfer]

/-- An operator without an operand. -/
theorem not_runs_prefixOperator (hw : w ∈ prefixOperators) (hs : s.Sees (.word w false) span s')
    (hnext : s'.token = .punct text) (htext : text ∉ ["-", "\x7b", "[", "(", "`"]) :
    ¬ Runs (operatorType g) ctx s Q := by
  have hfirst : wordIn ["keyof", "unique", "readonly"] (.word w false) = true :=
    List.contains_iff_mem.2 hw
  simp only [operatorType, collect, runs_bind, runs_here, runs_get]
  rw [runs_repeatUpTo_succ]
  simp only [runs_bind, runs_isWordIn, hs.token, hfirst, if_true, runs_ite, runs_advance, hs.next,
    runs_pure]
  rw [runs_repeatUpTo_succ]
  simp only [runs_bind, runs_isWordIn, hnext, wordIn, Bool.false_eq_true, if_false, runs_ite,
    runs_pure, runs_isWord, arrayType]
  simp [not_runs_primaryType hnext htext]

theorem not_runs_infer (hs : s.Sees (.word "infer" false) span s') (hnext : NextIsNot texts s') :
    ¬ Runs (operatorType g) ctx s Q := by
  have hnone : collect (do
      if ← isWordIn ["keyof", "unique", "readonly"] then
        advance
        return some ()
      else return none) ctx s = .ok ([], s) := by
    refine eq_ok_of_runs ((runs_collect_nil (eq_ok_of_runs ?_)).2 ⟨rfl, rfl⟩)
    simp [hs.token, wordIn]
  simp only [operatorType, runs_bind, runs_here, runs_of_eq hnone, runs_isWord, runs_ite, hs.token,
    inferType, runs_expectWord, hs.next, runs_anyName]
  simp [hnext.ne_word]

/-! ## Operators between types -/

/-- One type without an operator. -/
theorem typesJoinedBy_eq {t : TypeText} (hs : s.token ≠ .punct op) (hp : p ctx s = .ok (t, s'))
    (hs' : s'.token ≠ .punct op) : typesJoinedBy op p ctx s = .ok (t, s') := by
  have hnone : collect (do
      if ← eat op then return some (← p) else return none) ctx s' = .ok ([], s') := by
    refine eq_ok_of_runs ((runs_collect_nil (eq_ok_of_runs ?_)).2 ⟨rfl, rfl⟩)
    simp [hs']
  refine eq_ok_of_runs ?_
  simp only [typesJoinedBy, joinedTypes, runs_bind, runs_here, runs_eat, if_neg hs, runs_of_eq hp,
    runs_of_eq hnone, runs_pure, joinedText]
  trivial

theorem not_runs_joinedTypes {Q : List TypeText → State → Prop} (hs : s.token ≠ .punct op)
    (hp : ∀ Q, ¬ Runs p ctx s Q) : ¬ Runs (joinedTypes op p) ctx s Q := by
  simp only [joinedTypes, runs_bind, runs_eat, if_neg hs]
  exact hp _

theorem not_runs_typesJoinedBy (hs : s.token ≠ .punct op) (hp : ∀ Q, ¬ Runs p ctx s Q) :
    ¬ Runs (typesJoinedBy op p) ctx s Q := by
  simp only [typesJoinedBy, runs_bind, runs_here]
  exact not_runs_joinedTypes hs hp

/-- Where no type starts. -/
theorem not_runs_typeAlternatives {Q : List TypeText → State → Prop} (hs : s.token = .punct text)
    (htext : text ∉ ["-", "\x7b", "[", "(", "`", "<", "<<", "|", "&"]) :
    ¬ Runs (typeAlternatives g) ctx s Q := by
  have hne {other : String} (hother : other ∈ ["-", "\x7b", "[", "(", "`", "<", "<<", "|", "&"]) :
      text ≠ other := fun heq => htext (heq ▸ hother)
  have hprimary : text ∉ ["-", "\x7b", "[", "(", "`"] := fun hmem =>
    htext (List.mem_append_left ["<", "<<", "|", "&"] hmem)
  have hfunction : isFunctionType g ctx s = .ok (false, s) := by
    refine eq_ok_of_runs ?_
    simp [isFunctionType, hs, hne]
  have hoperator : ∀ Q, ¬ Runs (operatorType g) ctx s Q := by
    intro Q
    rw [runs_operatorType (by rw [hs]; rfl) (by rw [hs]; nofun), arrayType, runs_bind, runs_here,
      runs_bind]
    exact not_runs_primaryType hs hprimary
  simp only [typeAlternatives, runs_bind, runs_here, runs_of_eq hfunction, runs_isWord, runs_ite,
    hs, runs_nextToken, runs_eatWord]
  have hbar : s.token ≠ .punct "|" := by simp [hs, hne]
  have hand : s.token ≠ .punct "&" := by simp [hs, hne]
  simpa using not_runs_joinedTypes hbar fun Q => not_runs_typesJoinedBy hand hoperator

/-! ## Functions -/

/-- Dots, a name and a type are a parameter. -/
theorem runs_signatureParam {g' : Grammar} {s₃ : State} {span₃ : Span}
    (hbinding : g.binding = bindingPattern g') (htyped : ctx.typed = true)
    (hdots : s.Sees (.punct "...") span₁ s₁) (hname : s₁.Sees (.word "args" false) span₂ s₂)
    (hcolon : s₂.Sees (.punct ":") span₃ s₃)
    (htype : ∀ ctx Q, Runs g.type ctx s₃ Q ↔ Q ⟨span, []⟩ s') (hclose : s'.token = .punct ")")
    {Q : Bool × List Ident → State → Prop} : Runs (signatureParam g) ctx s Q ↔ Q (true, []) s' := by
  have hpattern : ∀ Q, Runs g.binding ctx s₁ Q ↔
      Q (.ident ⟨"args", s₁.start, s₁.stop⟩ false none) s₂ := by
    intro Q
    rw [hbinding, bindingPattern]
    have hreserved : isReservedHere ctx "args" = false := rfl
    simp only [runs_bind, runs_here, runs_token, hname.token, runs_boundName, runs_name, hname.next,
      runs_pure]
    simp [hreserved, isRestrictedName]
  simp only [signatureParam, runs_bind, runs_eat, hdots.token, hdots.next, if_true,
    eatParamModifier, runs_typed, htyped, runs_ite, runs_isWordIn, hname.token, wordIn, runs_pure,
    hpattern, hcolon.token, typeAnn?, hcolon.next, runs_inBrackets, htype, runs_isPunct, hclose]
  simp [TypeText.selfNamesOf, Pat.selfNames]

/-- A list of one item. -/
theorem runs_commaList_one {α : Type} {close : String} {item : Parse α} {a : α}
    (hs : s.token ≠ .punct close) (hitem : ∀ Q, Runs item ctx s Q ↔ Q a s₁)
    (hclose : s₁.Sees (.punct close) span s') {Q : List α × Bool → State → Prop} :
    Runs (commaList close item) ctx s Q ↔ Q ([a], false) s' := by
  have hnone : collect (do
      if ← isPunct close then return none
      expect ","
      if ← isPunct close then return some none
      return some (some (← item))) ctx s₁ = .ok ([], s₁) := by
    refine eq_ok_of_runs ((runs_collect_nil (eq_ok_of_runs ?_)).2 ⟨rfl, rfl⟩)
    simp [hclose.token]
  simp only [commaList, runs_bind, runs_eat, if_neg hs, hitem, runs_of_eq hnone, runs_expect,
    hclose.token, hclose.next, runs_pure, true_and, Bool.false_eq_true, if_false,
    List.filterMap_nil]
  rfl

/-- A type that follows a mark, without a word before it. -/
theorem runs_returnTypeAfter {mark : String} (hmark : s.Sees (.punct mark) span s₁)
    (hasserts : s₁.token ≠ .word "asserts" false) (his : s₁.next.token ≠ .word "is" false) :
    Runs (returnTypeAfter g mark) ctx s Q ↔ Runs g.type ctx s₁ Q := by
  have hnext : ((if s₁.next.newline then none else some s₁.next.token) ==
      some (.word "is" false)) = false := by
    split
    · rfl
    · simpa using his
  simp only [returnTypeAfter, runs_bind, runs_expect, hmark.token, hmark.next, runs_here,
    runs_isWord, runs_ite, beq_iff_eq, hasserts, if_false, runs_pure, runs_isName,
    runs_nextOnLine, hnext, true_and]
  simp

/-- A parameter with dots, and a type after an arrow. -/
theorem runs_functionType {s₃ s₄ : State} {span₃ : Span} {start : Nat}
    (hopen : s.Sees (.punct "(") span₁ s₁) (hne : s₁.token ≠ .punct ")")
    (hparam : ∀ ctx, ctx.typed = true → ∀ Q, Runs (signatureParam g) ctx s₁ Q ↔ Q (true, []) s₂)
    (hclose : s₂.Sees (.punct ")") span₂ s₃) (harrow : s₃.Sees (.punct "=>") span₃ s₄)
    (hasserts : s₄.token ≠ .word "asserts" false) (his : s₄.next.token ≠ .word "is" false)
    (htype : ∀ ctx Q, Runs g.type ctx s₄ Q ↔ Q ⟨span, []⟩ s') (htyped : ctx.typed = true) :
    Runs (functionType g start) ctx s Q ↔ Q ⟨⟨start, s'.prevStop⟩, []⟩ s' := by
  have hlist : ∀ Q, Runs (inBrackets (commaList ")" (signatureParam g))) ctx s₁ Q ↔
      Q ([(true, [])], false) s₃ := by
    intro Q
    rw [runs_inBrackets]
    refine runs_commaList_one hne (hparam _ ?_) hclose
    exact htyped
  simp only [functionType, typeParams?, runs_bind, runs_typed, runs_isAngle, hopen.token, runs_ite,
    signatureParams, runs_expect, hopen.next, runs_here, hlist,
    runs_returnTypeAfter harrow hasserts his, htype, runs_typeFrom, runs_pure]
  simp [TypeText.selfNamesOf]

end ScriptSetup.Script.Parse
