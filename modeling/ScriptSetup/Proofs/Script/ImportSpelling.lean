import ScriptSetup.Proofs.Script.ImportReading

/-!
# Imports as they are written

The text of an import is the row of its tokens, each but a comma and a semicolon with a space before
it. So the reader finds in the text of an import what the import says, and reads a module that is
this text as this import, or as none.
-/

set_option autoImplicit false

namespace ScriptSetup.Script

open Parse Setup Text

/-! ## Texts of tokens -/

/-- The text, wherever it stands, is a row of these tokens. -/
structure Spells (cs : List Char) (ts : List Token) : Prop where
  length : ts.length ≤ cs.length + 1
  tokens : ∀ n m lineStart, (State.at n m lineStart cs).Tokens ts

section

variable {cs raw rest : List Char} {t : Token} {ts : List Token} {w text : String}

/-- A token in front of others, on its own or after a space. -/
theorem Starts.spells (h : Starts cs t raw rest) (hlength : ts.length ≤ cs.length)
    (hrest : t.isValid = true → Spells rest ts) :
    Spells cs (t :: ts) ∧ Spells (' ' :: cs) (t :: ts) := by
  have htokens : ∀ n m lineStart, (State.at n m lineStart cs).Tokens (t :: ts) := by
    intro n m lineStart
    have hat := h.at_eq n m lineStart
    refine ⟨by rw [hat], by rw [hat]; exact hlength, fun hvalid => ?_⟩
    rw [h.next_at]
    exact (hrest hvalid).tokens _ _ _
  refine ⟨⟨Nat.succ_le_succ hlength, htokens⟩, ⟨?_, fun n m lineStart => ?_⟩⟩
  · exact Nat.le_succ_of_le (Nat.succ_le_succ hlength)
  · rw [at_space h.solid]
    exact htokens _ _ _

/-- Any text goes on after the tokens that matter. -/
theorem spells_nil (cs : List Char) : Spells cs [] := ⟨Nat.zero_le _, fun _ _ _ => trivial⟩

theorem spells_end : Spells [] [.eof] := by
  refine ⟨Nat.le_refl 1, fun n m lineStart => ⟨?_, Nat.zero_le _, fun _ => trivial⟩⟩
  cases lineStart <;> rfl

namespace Spells

theorem word (hw : nameFits w = true) (hrest : endsWord rest = true) (h : Spells rest ts) :
    Spells (' ' :: (w.toList ++ rest)) (word w :: ts) := by
  have hpos : 0 < w.toList.length := by
    unfold nameFits at hw
    split at hw
    · cases hw
    · next heq => rw [heq]; exact Nat.succ_pos _
  refine ((starts_word hw hrest).spells ?_ fun _ => h).2
  have := h.length
  rw [List.length_append]
  omega

theorem quote (text : String) (h : Spells rest ts) :
    Spells (' ' :: ((quote text).toList ++ rest)) (quoteToken text :: ts) := by
  have hlength : ts.length ≤ ((Text.quote text).toList ++ rest).length := by
    have := h.length
    rw [List.length_append, quote_toList, List.length_cons]
    omega
  rw [quoteToken]
  split
  · next hline => exact ((starts_quote hline rest).spells hlength fun _ => h).2
  · next hline =>
    have hline : onOneLine text.toList = false := Bool.eq_false_iff.2 hline
    exact ((starts_unclosed hline rest).spells hlength (by rintro ⟨⟩)).2

theorem mark {c : Char} (hstart : Starts (c :: rest) (.punct text) [c] rest) (h : Spells rest ts) :
    Spells (c :: rest) (.punct text :: ts) ∧ Spells (' ' :: c :: rest) (.punct text :: ts) :=
  hstart.spells h.length fun _ => h

theorem comma (h : Spells rest ts) : Spells (',' :: rest) (.punct "," :: ts) :=
  (h.mark ⟨rfl, rfl, rfl⟩).1

theorem semicolon (h : Spells rest ts) : Spells (';' :: rest) (.punct ";" :: ts) :=
  (h.mark ⟨rfl, rfl, rfl⟩).1

theorem star (h : Spells (' ' :: rest) ts) :
    Spells (' ' :: '*' :: ' ' :: rest) (.punct "*" :: ts) :=
  (h.mark ⟨rfl, rfl, rfl⟩).2

theorem brace (h : Spells rest ts) : Spells (' ' :: '\x7b' :: rest) (.punct "\x7b" :: ts) :=
  (h.mark ⟨rfl, rfl, rfl⟩).2

theorem closingBrace (h : Spells rest ts) : Spells (' ' :: '\x7d' :: rest) (.punct "\x7d" :: ts) :=
  (h.mark ⟨rfl, rfl, rfl⟩).2

theorem typeWord (h : Spells (' ' :: rest) ts) :
    Spells (' ' :: ("type".toList ++ ' ' :: rest)) (Script.word "type" :: ts) :=
  h.word (w := "type") (by decide) rfl

theorem asWord (h : Spells (' ' :: rest) ts) :
    Spells (' ' :: ("as".toList ++ ' ' :: rest)) (Script.word "as" :: ts) :=
  h.word (w := "as") (by decide) rfl

theorem fromWord (h : Spells (' ' :: rest) ts) :
    Spells (' ' :: ("from".toList ++ ' ' :: rest)) (Script.word "from" :: ts) :=
  h.word (w := "from") (by decide) rfl

end Spells

end

/-! ## Names in braces -/

section

variable {ctx : Context} {isType : Bool} {rest : List Char} {ts : List Token}

/-- A string is not written as a name is. -/
theorem quote_ne_name {w : String} (hw : nameFits w = true) (text : String) : quote text ≠ w := by
  rintro rfl
  rw [nameFits, quote_toList, Bool.and_eq_true] at hw
  exact absurd hw.1 (by decide)

/-- A name in braces is written as its tokens. -/
theorem specifier_spells {spec : ImportSpecifier} (hspec : NamedFits ctx isType spec)
    (hends : endsWord rest = true) (h : Spells rest ts) :
    ∃ text, importName? spec = some text ∧
      Spells (' ' :: (text.toList ++ rest)) (specifierTokens spec ++ ts) := by
  have hone (isType : Bool) {w : String} (hw : nameFits w = true) :
      Spells (' ' :: (((if isType then "type " else "") ++ w).toList ++ rest))
        (((if isType then [word "type"] else []) ++ [word w]) ++ ts) := by
    have hname := h.word hw hends
    cases isType with
    | false => simpa using hname
    | true => simpa using hname.typeWord
  cases hspec with
  | @plain isType w hfits => exact ⟨_, rfl, hone isType hfits⟩
  | @renamed isType u w hfits hw =>
    refine ⟨_, rfl, ?_⟩
    by_cases huw : u = w
    · simpa [namedImportText, exportNameText, specifierTokens, huw] using hone isType hw.fits
    · have hnames := (h.word hw.fits hends).asWord.word hfits rfl
      cases isType with
      | false => simpa [namedImportText, exportNameText, specifierTokens, huw] using hnames
      | true => simpa [namedImportText, exportNameText, specifierTokens, huw] using hnames.typeWord
  | @string w value hw =>
    refine ⟨_, rfl, ?_⟩
    have hne := quote_ne_name hw.fits value
    simpa [namedImportText, exportNameText, specifierTokens, hne] using
      (h.word hw.fits hends).asWord.quote value

/-- What stands in braces after the first name. -/
def moreText (specs : List ImportSpecifier) : List Char :=
  (specs.filterMap importName?).flatMap fun text => ',' :: ' ' :: text.toList

theorem endsWord_moreText (specs : List ImportSpecifier) (h : endsWord rest = true) :
    endsWord (moreText specs ++ rest) = true := by
  rw [moreText]
  cases specs.filterMap importName? with
  | nil => exact h
  | cons => rfl

theorem moreText_spells {specs : List ImportSpecifier}
    (hspecs : ∀ a ∈ specs, NamedFits ctx isType a) (hends : endsWord rest = true)
    (h : Spells rest ts) : Spells (moreText specs ++ rest) (moreTokens specs ++ ts) := by
  induction specs with
  | nil => exact h
  | cons spec specs ih =>
    rw [List.forall_mem_cons] at hspecs
    obtain ⟨text, htext, hspec⟩ :=
      specifier_spells hspecs.1 (endsWord_moreText specs hends) (ih hspecs.2)
    rw [moreTokens_cons]
    simpa [moreText, htext] using hspec.comma

theorem join_toList (text : String) (texts : List String) :
    (join ", " (text :: texts)).toList =
      text.toList ++ texts.flatMap fun text => ',' :: ' ' :: text.toList := by
  induction texts generalizing text with
  | nil => simp [join]
  | cons next texts ih => simp [join, ih]

/-! ## Imports -/

/-- The parts of what an import of these binds, as they are written. -/
def bindingTexts (specs : List ImportSpecifier) : List String :=
  let named := specs.filterMap importName?
  specs.filterMap importClause? ++
    if named.isEmpty then [] else ["\x7b " ++ join ", " named ++ " \x7d"]

/-- A namespace or names in braces are written as their tokens. -/
theorem clause_spells {specs : List ImportSpecifier} (hspecs : ClauseFits ctx isType specs)
    (hne : specs ≠ []) (h : Spells (' ' :: rest) ts) :
    ∃ text, bindingTexts specs = [text] ∧
      Spells (' ' :: (text.toList ++ ' ' :: rest)) (clauseTokens specs ++ ts) := by
  cases hspecs with
  | everything hw =>
    refine ⟨_, rfl, ?_⟩
    simpa [clauseTokens] using (h.word hw.fits rfl).asWord.star
  | names hspecs =>
    have hclauses : specs.filterMap importClause? = [] :=
      List.filterMap_eq_nil_iff.2 fun spec hspec => by cases hspecs spec hspec <;> rfl
    cases specs with
    | nil => exact absurd rfl hne
    | cons spec specs =>
      rw [List.forall_mem_cons] at hspecs
      have hmore := moreText_spells hspecs.2 rfl h.closingBrace
      obtain ⟨text, htext, hspec⟩ := specifier_spells hspecs.1 (endsWord_moreText specs rfl) hmore
      refine ⟨"\x7b " ++ join ", " (text :: specs.filterMap importName?) ++ " \x7d", ?_, ?_⟩
      · rw [bindingTexts, hclauses, List.filterMap_cons_some htext]
        rfl
      · rw [clauseTokens_named hspecs.1]
        simpa [join_toList, moreText] using hspec.brace

/-- What an import binds is written as its tokens. -/
theorem binding_spells {specs : List ImportSpecifier} (hspecs : ImportFits ctx isType specs)
    (hne : specs ≠ []) (h : Spells (' ' :: rest) ts) :
    Spells (' ' :: ((join ", " (bindingTexts specs)).toList ++ ' ' :: rest))
      (bindingTokens specs ++ ts) := by
  cases hspecs with
  | default htyped hw => exact h.word hw.fits rfl
  | clause htyped hspecs =>
    obtain ⟨text, htext, hclause⟩ := clause_spells hspecs hne h
    rw [htext, (clauseTokens_punct hspecs hne).1]
    exact hclause
  | @both w specs hw hspecs =>
    by_cases hempty : specs = []
    · subst hempty
      exact h.word hw.fits rfl
    · obtain ⟨text, htext, hclause⟩ := clause_spells hspecs hempty h
      have htexts : bindingTexts (.default w :: specs) = w :: bindingTexts specs := rfl
      rw [htexts, htext, bindingTokens_both hempty]
      simpa [join] using hclause.comma.word hw.fits rfl

/-- An import is written as its tokens. -/
theorem importText_spells {d : ImportDecl} (hd : ImportFits ctx d.isType d.specifiers) :
    ∃ rest, (importText d).toList = "import".toList ++ ' ' :: rest ∧
      Spells (' ' :: rest) (importTokens d.isType d.specifiers d.source.value) := by
  have hsource : Spells _ (sourceTokens d.source.value) := spells_end.semicolon.quote d.source.value
  rw [importText, importTokens]
  by_cases hne : d.specifiers = []
  · rw [if_pos hne, if_pos (by simp [hne])]
    exact ⟨_, by simp, hsource⟩
  · rw [if_neg hne, if_neg (by simp [hne])]
    have hbinding := binding_spells hd hne hsource.fromWord
    cases d.isType with
    | false => exact ⟨_, by simp [bindingTexts], hbinding⟩
    | true =>
      refine ⟨_, ?_, by simpa using hbinding.typeWord⟩
      simp [bindingTexts]

end

/-! ## Modules of one import -/

section

variable {lang : Lang} {d : ImportDecl}

/-- A text without a byte order mark and a line `#!` is read from its first character on. -/
theorem parseModule_eq {text : String} {cs : List Char} (htext : text.toList = cs)
    (hplain : skipHashbang (withoutMark cs) = (0, cs)) :
    parseModule lang text = (moduleItems (grammar (8 * cs.length + 64)) lang.context
      (State.at 0 0 true cs)).map (·.1) := by
  rw [parseModule, parseChars, htext, hplain]
  rfl

/-- The text of an import is read from its first word on. -/
theorem parseModule_importText (hd : ImportFits lang.context d.isType d.specifiers) :
    ∃ g s, parseModule lang (importText d) = (moduleItems g lang.context s).map (·.1) ∧
      s.token = word "import" ∧
      s.next.Tokens (importTokens d.isType d.specifiers d.source.value) := by
  obtain ⟨rest, htext, hrest⟩ := importText_spells hd
  have hstart : Starts ("import".toList ++ ' ' :: rest) (word "import") "import".toList
    (' ' :: rest) := starts_word (by decide) rfl
  refine ⟨_, _, parseModule_eq htext rfl, ?_, ?_⟩
  · rw [hstart.at_eq]
  · rw [hstart.next_at]
    exact hrest.tokens _ _ _

/-- The two imports say the same: they are of the same names from the same module. -/
structure SameImport (d d' : ImportDecl) : Prop where
  source : d.source.value = d'.source.value
  isType : d.isType = d'.isType
  specifiers : d.specifiers.map readForm = d'.specifiers.map readForm
  attributes : d.attributes = d'.attributes

theorem readForm_readForm (a : ImportSpecifier) : readForm (readForm a) = readForm a := by
  cases a with
  | default w | «namespace» w => rfl
  | named isType imported w =>
    rcases imported with _ | u | value
    · rfl
    · by_cases huw : u = w <;> simp [readForm, huw]
    · rfl

/-- The import is read back from its text. An empty import of types is not written as one, what
stands after `with` is not written at all, and a string ends where its line does. -/
structure Faithful (d : ImportDecl) : Prop where
  source : onOneLine d.source.value.toList = true
  isType : d.isType = true → d.specifiers ≠ []
  specifiers : ∀ a ∈ d.specifiers, ReadsBack a
  attributes : d.attributes = []

instance (d : ImportDecl) : Decidable (Faithful d) :=
  decidable_of_iff (onOneLine d.source.value.toList = true ∧
      (d.isType = true → d.specifiers.isEmpty = false) ∧ (∀ a ∈ d.specifiers, ReadsBack a) ∧
      d.attributes.isEmpty = true)
    ⟨fun h => ⟨h.1, fun htype => by simpa using h.2.1 htype, h.2.2.1, by simpa using h.2.2.2⟩,
      fun h => ⟨h.source, fun htype => by simpa using h.isType htype, h.specifiers,
        by simpa using h.attributes⟩⟩

/-- The text of an import, read as a module, is this import exactly when nothing is lost in it. -/
theorem importText_faithful_iff (hd : ImportFits lang.context d.isType d.specifiers) :
    (∃ d', parseModule lang (importText d) = .ok [.importDecl d'] ∧ SameImport d' d) ↔
      Faithful d := by
  obtain ⟨g, s, hparse, himport, htokens⟩ := parseModule_importText hd
  rw [hparse]
  rcases (importItems_outcome (g := g) hd himport htokens).run with
    ⟨⟨hspecifiers, hsource⟩, _, _, hrun, item, rfl, d', rfl, hisType, hnames, hvalue, hattributes⟩ |
    ⟨hstuck, fault, hrun⟩
  · rw [hrun]
    constructor
    · rintro ⟨_, ⟨rfl⟩, hsame⟩
      refine ⟨hsource, fun htype hempty => ?_, hspecifiers, hsame.attributes.symm.trans hattributes⟩
      have := hisType.symm.trans hsame.isType
      simp [htype, hempty] at this
    · intro h
      refine ⟨d', rfl, hvalue, ?_, ?_, hattributes.trans h.attributes.symm⟩
      · rw [hisType]
        cases htype : d.isType with
        | false => rfl
        | true => simpa using h.isType htype
      · rw [hnames, List.map_map]
        exact List.map_congr_left fun a _ => readForm_readForm a
  · rw [hrun]
    exact iff_of_false nofun fun h => hstuck ⟨h.specifiers, h.source⟩

end

end ScriptSetup.Script
