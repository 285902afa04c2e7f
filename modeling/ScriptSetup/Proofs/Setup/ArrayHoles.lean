import ScriptSetup.Proofs.Component.TableNodes
import ScriptSetup.Proofs.Script.ImportSpelling
import ScriptSetup.Setup.Convert

/-!
# Arrays of strings and holes

The elements of an array are written with a comma between them, and the reader takes a comma for the
end of the hole before it. A hole at the end has no comma of its own, so the reader finds the
elements up to that hole. An array of strings and holes is read back exactly when it does not end
with a hole.
-/

set_option autoImplicit false

namespace ScriptSetup.Setup

open Script Script.Parse Component Written Text

variable {ctx : Context} {s : State} {g : Grammar}

/-! ## Strings as elements -/

/-- A comma, or the end of an array. -/
def endsElement (t : Token) : Prop := t = .punct "," ∨ t = .punct "]"

/-- The reader reads a string up to the comma or bracket after it. -/
def ReadsStrings (p : Parse Expr) : Prop :=
  ∀ {ctx s raw value}, s.token = .string raw value → endsElement s.next.token →
    p ctx s = .ok (.string ⟨⟨s.start, s.stop⟩, value, raw⟩, s.next)

@[simp]
theorem isArrow_string (lit : StringLit) : (Expr.string lit).isArrow = false := rfl

@[simp]
theorem isOperation_string (lit : StringLit) : isOperation (.string lit) = false := rfl

theorem readsStrings_leftHand : ReadsStrings (leftHand g) := by
  intro ctx s raw value h hend
  have hlink (e) : link? g false false s.start e ctx s.next = .ok (none, s.next) :=
    eq_ok_of_runs (by rcases hend with hend | hend <;> simp [link?, hend])
  exact eq_ok_of_runs (by simp [leftHand, primary, h, Token.isValid, links, iterate,
    runs_iterateUpTo_succ, runs_of_eq (hlink _)])

theorem readsStrings_unaryExpr : ReadsStrings (unaryExpr g) := by
  intro ctx s raw value h hend
  have hrun : leftHand g ctx s = _ := readsStrings_leftHand h hend
  refine eq_ok_of_runs ?_
  rcases hend with hend | hend <;> simp [unaryExpr, h, hend, runs_of_eq hrun, updateOp?, unaryOp?]

theorem readsStrings_binaryExpr (hg : ReadsStrings g.unary) : ReadsStrings (binaryExpr g) := by
  intro ctx s raw value h hend
  have hrun : g.unary ctx s = _ := hg h hend
  have hcomma : BinaryOp.ofText? "," = none ∧ BinaryOp.ofText? "]" = none := by decide
  refine eq_ok_of_runs ?_
  rw [binaryExpr, runs_bind, runs_here, runs_bind, runs_of_eq hrun]
  simp only [binaryRest, binaryOp?]
  rcases hend with hend | hend <;> simp [hend, wordIn, hcomma]

theorem readsStrings_assignExpr (hg : ReadsStrings g.binary) : ReadsStrings (assignExpr g) := by
  intro ctx s raw value h hend
  have hrun : g.binary { ctx with arrowAt := none } s = _ := hg h hend
  have hcomma : AssignOp.ofText? "," = none ∧ AssignOp.ofText? "]" = none := by decide
  refine eq_ok_of_runs ?_
  rw [assignExpr, plainAssignExpr, condExpr]
  rcases hend with hend | hend <;> simp [h, hend, runs_of_eq hrun, assignmentRest, hcomma]

/-- The grammar of modules reads strings. -/
theorem readsStrings_grammar (depth : Nat) : ReadsStrings (grammar (depth + 3)).assign :=
  readsStrings_assignExpr (g := grammar (depth + 2))
    (readsStrings_binaryExpr (g := grammar (depth + 1))
      (readsStrings_unaryExpr (g := grammar depth)))

/-! ## The text of an array -/

/-- An element of an array: a string, or a hole. -/
def element : Option StringLit → Expr
  | none => .hole
  | some lit => .string lit

/-- The elements of an array of strings and holes. -/
abbrev Elements := List (Option StringLit)

/-- The text of an element. -/
def elementText (e : Option StringLit) : String := e.elim "" (·.raw)

/-- What an element says, wherever it stands. -/
def said (e : Option StringLit) : Option (String × String) := e.map fun lit => (lit.raw, lit.value)

/-- The strings are scanned as themselves. -/
def AllScanned (es : Elements) : Prop :=
  ∀ lit, some lit ∈ es → ∀ rest,
    Starts (lit.raw.toList ++ rest) (.string lit.raw lit.value) lit.raw.toList rest

/-- The elements without a hole at the end. -/
def withoutLastHole : Elements → Elements
  | [] | [none] => []
  | e :: es => e :: withoutLastHole es

/-- The tokens of elements and of the bracket after them. -/
def elementTokens : Elements → List Token
  | [] => [.punct "]"]
  | e :: es => (e.map fun lit => .string lit.raw lit.value).toList ++
    ((if es.isEmpty then [] else [.punct ","]) ++ elementTokens es)

section

variable {es : Elements}

theorem exprTexts_elements (s : Scope) (level : Nat) (es : Elements) :
    exprTexts s level (es.map element) = of (es.map elementText) := by
  induction es with
  | nil => rfl
  | cons e es ih =>
    rw [List.map_cons, exprTexts, ih]
    cases e <;> rfl

/-- Elements and the bracket after them, on their own or after a space. -/
theorem spells_elements (rest : List Char) (h : AllScanned es) :
    let cs := (join ", " (es.map elementText)).toList ++ ']' :: rest
    Spells cs (elementTokens es) ∧ Spells (' ' :: cs) (elementTokens es) := by
  have hbracket : Spells (']' :: rest) [.punct "]"] ∧ Spells (' ' :: ']' :: rest) [.punct "]"] :=
    (spells_nil rest).mark ⟨rfl, rfl, rfl⟩
  induction es with
  | nil => exact hbracket
  | cons e es ih =>
    have hfront {after : List Char} {ts : List Token}
        (hafter : Spells after ts ∧ Spells (' ' :: after) ts) :
        let cs := (elementText e).toList ++ after
        let tokens := (e.map fun lit => Token.string lit.raw lit.value).toList ++ ts
        Spells cs tokens ∧ Spells (' ' :: cs) tokens := by
      cases e with
      | none => exact hafter
      | some lit =>
        have hraw : lit.raw.toList ≠ [] := fun hnil => by
          have hscan := (h lit List.mem_cons_self [',']).scan
          rw [hnil] at hscan
          cases hscan
        have hpos := List.length_pos_iff.2 hraw
        have hlength : ts.length ≤ (lit.raw.toList ++ after).length := by
          have := hafter.1.length
          rw [List.length_append]
          omega
        exact (h lit List.mem_cons_self after).spells hlength fun _ => hafter.1
    cases es with
    | nil => exact hfront hbracket
    | cons e' es =>
      have htail := ih fun lit hlit => h lit (List.mem_cons_of_mem _ hlit)
      have htext : (join ", " ((e :: e' :: es).map elementText)).toList ++ ']' :: rest =
          (elementText e).toList ++ ',' :: ' ' ::
            ((join ", " ((e' :: es).map elementText)).toList ++ ']' :: rest) := by
        simp [join]
      rw [htext]
      exact hfront (htail.2.mark ⟨rfl, rfl, rfl⟩)

/-! ## Reading -/

/-- The reader reads an element that is not a last hole. -/
theorem arrayElement_eq_some {e : Option StringLit}
    (hg : (∃ lit, some lit ∈ e :: es) → ReadsStrings g.assign) (hlast : e = none → es ≠ [])
    (h : s.Tokens (elementTokens (e :: es))) :
    ∃ e' comma s', arrayElement g ctx s = .ok (some (element e', comma), s') ∧
      said e' = said e ∧ s'.Tokens (elementTokens es) := by
  cases e with
  | none =>
    cases es with
    | nil => exact absurd rfl (hlast rfl)
    | cons e es =>
      have hcomma : s.token = .punct "," := h.1
      refine ⟨none, false, s.next, eq_ok_of_runs ?_, rfl, h.2.2 rfl⟩
      simp [arrayElement, hcomma, element]
  | some lit =>
    obtain ⟨hstring, -, hnext⟩ := h
    have hnext := hnext rfl
    let lit' : StringLit := ⟨⟨s.start, s.stop⟩, lit.value, lit.raw⟩
    have hread hend : g.assign ctx s = .ok (element (some lit'), s.next) :=
      hg ⟨lit, List.mem_cons_self⟩ hstring hend
    cases es with
    | nil =>
      have hbracket : s.next.token = .punct "]" := hnext.1
      refine ⟨some lit', false, s.next, eq_ok_of_runs ?_, rfl, hnext⟩
      simp [arrayElement, spreadable, hstring, hbracket, runs_of_eq (hread (.inr hbracket))]
    | cons e es =>
      have hcomma : s.next.token = .punct "," := hnext.1
      refine ⟨some lit', true, s.next.next, eq_ok_of_runs ?_, rfl, hnext.2.2 rfl⟩
      simp [arrayElement, spreadable, hstring, hcomma, runs_of_eq (hread (.inl hcomma))]

/-- The reader finds the elements up to a last hole. -/
theorem runs_elements (hg : (∃ lit, some lit ∈ es) → ReadsStrings g.assign) {fuel : Nat}
    (hfuel : es.length < fuel) (h : s.Tokens (elementTokens es)) :
    Runs (repeatUpTo fuel (arrayElement g)) ctx s fun elems s' => s'.token = .punct "]" ∧
      ∃ es' : Elements, elems.map (·.1) = es'.map element ∧
        es'.map said = (withoutLastHole es).map said := by
  induction es generalizing s fuel with
  | nil =>
    obtain ⟨fuel, rfl⟩ := Nat.exists_eq_add_of_lt hfuel
    have hbracket : s.token = .punct "]" := h.1
    rw [runs_repeatUpTo_succ]
    simp [arrayElement, hbracket, withoutLastHole]
  | cons e es ih =>
    obtain ⟨fuel, rfl⟩ := Nat.exists_eq_add_one.2 (Nat.zero_lt_of_lt hfuel)
    rw [runs_repeatUpTo_succ]
    by_cases hlast : e = none ∧ es = []
    · obtain ⟨rfl, rfl⟩ := hlast
      have hbracket : s.token = .punct "]" := h.1
      simp [arrayElement, hbracket, withoutLastHole]
    · have hlast (he : e = none) (hes : es = []) : False := hlast ⟨he, hes⟩
      obtain ⟨e', comma, s₁, hstep, hsaid, htokens⟩ := arrayElement_eq_some hg hlast h
      obtain ⟨elems, s', hrun, hs', es', helems, hrest⟩ :=
        ih (fun ⟨lit, hlit⟩ => hg ⟨lit, List.mem_cons_of_mem _ hlit⟩)
          (Nat.lt_of_succ_lt_succ hfuel) htokens
      rw [runs_of_eq hstep]
      refine (runs_of_eq hrun).2 ⟨hs', e' :: es', ?_, ?_⟩
      · simp [helems]
      · rw [withoutLastHole.eq_3 e es hlast, List.map_cons, hsaid, hrest, List.map_cons]

theorem length_le_elementTokens (es : Elements) :
    es.length ≤ (elementTokens es).length := by
  induction es with
  | nil => exact Nat.zero_le _
  | cons e es ih => cases es <;> grind [elementTokens]

theorem runs_arrayLit (hg : (∃ lit, some lit ∈ es) → ReadsStrings g.assign)
    (h : s.Tokens (.punct "[" :: elementTokens es)) :
    Runs (arrayLit g) ctx s fun e _ => ∃ span, ∃ es' : Elements,
      e = .array span (es'.map element) ∧ es'.map said = (withoutLastHole es).map said := by
  obtain ⟨hopen, -, hnext⟩ := h
  have htokens := hnext rfl
  have hfuel : es.length < s.next.here.length + 2 :=
    Nat.lt_succ_of_le (Nat.le_trans (length_le_elementTokens es) htokens.length_le)
  rw [arrayLit]
  simp only [runs_bind, runs_here, runs_expect, hopen, true_and, runs_inBrackets, collect, runs_get]
  obtain ⟨elems, s', hrun, hclose, es', helems, hsaid⟩ := runs_elements hg hfuel htokens
  rw [runs_of_eq hrun, runs_ite]
  refine ⟨hclose, ?_⟩
  split <;> exact (runs_of_eq rfl).2 ⟨_, es', congrArg _ helems, hsaid⟩

/-- A last hole is left out, and nothing else. -/
theorem withoutLastHole_cases (es : Elements) :
    es.getLast? = some none ∧ es = withoutLastHole es ++ [none] ∨
      es.getLast? ≠ some none ∧ es = withoutLastHole es := by
  fun_induction withoutLastHole es with
  | case1 => exact .inr ⟨nofun, rfl⟩
  | case2 => exact .inl ⟨rfl, rfl⟩
  | case3 e es hne ih =>
    cases es with
    | nil => exact .inr ⟨fun h => hne (Option.some.inj h) rfl, rfl⟩
    | cons e' es =>
      rw [List.getLast?_cons_cons]
      exact ih.imp (fun h => ⟨h.1, congrArg (e :: ·) h.2⟩) fun h => ⟨h.1, congrArg (e :: ·) h.2⟩

/-- An array of strings and holes is written as the text of an array without a hole at its end. So
it is read back exactly when it does not end with a hole. -/
theorem array_read_back_iff (s : Scope) (level : Nat) (span : Span) (hes : AllScanned es) :
    (∀ depth, ReadsStrings (grammar (depth + 3)).assign) ∧
    ∃ text, exprText s level (.array span (es.map element)) = of text ∧
      ∀ g, ((∃ lit, some lit ∈ es) → ReadsStrings g.assign) →
        ∀ (ctx : Context) (start : Nat) (rest : List Char),
          Runs (arrayLit g) ctx (State.front start (text.toList ++ rest)) fun e _ =>
            ∃ span', ∃ es' : Elements, e = .array span' (es'.map element) ∧
              es'.map said = (withoutLastHole es).map said ∧
              (es'.map said = es.map said ↔ es.getLast? ≠ some none) := by
  refine ⟨readsStrings_grammar, "[" ++ join ", " (es.map elementText) ++ "]", ?_,
    fun g hg ctx start rest => ?_⟩
  · rw [exprText, exprTexts_elements]
    rfl
  · have htext : ("[" ++ join ", " (es.map elementText) ++ "]").toList ++ rest =
        '[' :: ((join ", " (es.map elementText)).toList ++ ']' :: rest) := by simp
    have hspells : Spells ('[' :: _) (.punct "[" :: elementTokens es) :=
      ((spells_elements rest hes).1.mark ⟨rfl, rfl, rfl⟩).1
    have htokens := hspells.tokens start start false
    rw [htext]
    obtain ⟨e, s', hrun, span', es', rfl, hsaid⟩ : Runs (arrayLit g) ctx _ _ :=
      runs_arrayLit hg htokens
    refine (runs_of_eq hrun).2 ⟨span', es', rfl, hsaid, ?_⟩
    rw [hsaid]
    rcases withoutLastHole_cases es with ⟨hhole, hlost⟩ | ⟨hkept, heq⟩
    · refine iff_of_false (fun h => ?_) fun h => h hhole
      have hlength := congrArg List.length hlost
      have hsame := congrArg List.length h
      simp only [List.length_map, List.length_append, List.length_singleton] at hsame hlength
      omega
    · exact iff_of_true (congrArg _ heq.symm) hkept

/-- A hole in front of a string. -/
theorem hole_before_string_read_back :
    AllScanned [none, some ⟨⟨0, 0⟩, "a", quote "a"⟩] ∧
      Runs (arrayLit (grammar 4)) Lang.typeScript.context (State.front 0 "[, 'a']".toList)
        fun e _ => ∃ span, ∃ es' : Elements, e = .array span (es'.map element) ∧
          es'.map said = [none, some (quote "a", "a")] := by
  have hes : AllScanned [none, some ⟨⟨0, 0⟩, "a", quote "a"⟩] := by
    intro lit hlit rest
    cases hlit with
    | tail _ hlit =>
      cases List.mem_singleton.1 hlit
      exact starts_quote (by decide) rest
  refine ⟨hes, ?_⟩
  obtain ⟨hreads, text, htext, hread⟩ := array_read_back_iff ⟨[], []⟩ 0 ⟨0, 0⟩ hes
  cases htext
  obtain ⟨e, s', hrun, span, es', he, hsaid, -⟩ :=
    hread (grammar 4) (fun _ => hreads 1) Lang.typeScript.context 0 []
  exact ⟨e, s', hrun, span, es', he, hsaid⟩

end

/-- The number of holes in the arrays of a module. -/
def holeCount (items : List ModuleItem) : Nat :=
  (moduleNodes items).countP fun
    | .expr .hole => true
    | _ => false

/-- Of two holes one is lost, and nothing is reported. -/
theorem second_hole_lost :
    convertScript "const v = [, , ];" .javaScript {} = .ok ⟨"const v = [, ];", []⟩ ∧
      (parseModule .javaScript "const v = [, , ];").toOption.map holeCount = some 2 ∧
      (parseModule .javaScript "const v = [, ];").toOption.map holeCount = some 1 := by
  refine ⟨eq_ok_of_toOption (by decide +kernel), ?_, ?_⟩
  · decide +kernel
  · decide +kernel

end ScriptSetup.Setup
