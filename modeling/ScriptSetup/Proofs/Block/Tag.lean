import ScriptSetup.Block.Header

/-!
# Opening tags that are written again

An attribute that was read can be written: its name is a name token, and its value fits between
quotes of one kind. Reading what was written gives the same names and values, whatever the places
are. The statements are about any text after the tag, so they compose along a file.
-/

set_option autoImplicit false

namespace ScriptSetup.Block

open Text

/-! ## Characters of names -/

/-- The next character does not continue a name. -/
def EndsName (cs : List Char) : Prop :=
  ∀ c ∈ cs.head?, isTagNameChar c = false

theorem endsName_cons {c : Char} {cs : List Char} (h : isTagNameChar c = false) :
    EndsName (c :: cs) := by
  intro d hd
  have hdc : c = d := by simpa using hd
  rw [← hdc]
  exact h

theorem endsName_dropWhile (cs : List Char) : EndsName (cs.dropWhile isTagNameChar) := by
  intro c hc
  have hhead := List.head?_dropWhile_not isTagNameChar cs
  rw [Option.mem_def.1 hc] at hhead
  simpa using hhead

/-- A name that is followed by something else is read whole. -/
theorem takeWhile_name {name rest : List Char} (hname : ∀ c ∈ name, isTagNameChar c = true)
    (hrest : EndsName rest) : (name ++ rest).takeWhile isTagNameChar = name := by
  rw [List.takeWhile_append_of_pos hname]
  cases rest with
  | nil => simp
  | cons c rest => simp [hrest c rfl]

theorem dropWhile_name {name rest : List Char} (hname : ∀ c ∈ name, isTagNameChar c = true)
    (hrest : EndsName rest) : (name ++ rest).dropWhile isTagNameChar = rest := by
  rw [List.dropWhile_append_of_pos hname]
  cases rest with
  | nil => simp
  | cons c rest => simp [hrest c rfl]

/-- A character of a name opens no other token and is not blank. -/
theorem isTagNameChar_eq_true {c : Char} (h : isTagNameChar c = true) :
    isTagBlank c = false ∧ c ≠ '"' ∧ c ≠ '\'' ∧ c ≠ '<' ∧ c ≠ '>' ∧ c ≠ '=' ∧ c ≠ '/' := by
  simpa [isTagNameChar, and_assoc] using h

/-! ## One token -/

namespace TagToken

/-- What the kind of a token says about its characters. -/
def WellFormed (t : TagToken) : Prop :=
  match t.kind with
  | .name => t.text ≠ [] ∧ ∀ c ∈ t.text, isTagNameChar c = true
  | .doubleQuoted => ∃ body, t.text = '"' :: body ++ ['"'] ∧ '"' ∉ body
  | .singleQuoted => ∃ body, t.text = '\'' :: body ++ ['\''] ∧ '\'' ∉ body
  | _ => True

/-- The quote around the values of a kind. -/
inductive Quotes : TagTokenKind → Char → Prop where
  | double : Quotes .doubleQuoted '"'
  | single : Quotes .singleQuoted '\''

/-- A token at the front of a text, and what follows it. -/
inductive Stands : TagTokenKind → List Char → List Char → Prop where
  | close (rest : List Char) : Stands .close ['>'] rest
  | selfClose (rest : List Char) : Stands .selfClose ['/', '>'] rest
  | equals (rest : List Char) : Stands .equals ['='] rest
  | slash {rest : List Char} : rest.head? ≠ some '>' → Stands .slash ['/'] rest
  | quoted {kind : TagTokenKind} {quote : Char} {body : List Char} (rest : List Char) :
      Quotes kind quote → quote ∉ body → Stands kind (quote :: body ++ [quote]) rest
  | name {text rest : List Char} : text ≠ [] → (∀ c ∈ text, isTagNameChar c = true) →
      EndsName rest → Stands .name text rest
  | stray (rest : List Char) : Stands .invalid ['<'] rest
  | unclosed {kind : TagTokenKind} {quote : Char} {body : List Char} :
      Quotes kind quote → quote ∉ body → Stands .invalid (quote :: body) []

/-- A closed quotation is read up to its second quote. -/
theorem scanQuoted_append (kind : TagTokenKind) {quote : Char} {body : List Char}
    (hbody : quote ∉ body) (rest : List Char) :
    scanQuoted kind quote (body ++ quote :: rest) = (kind, quote :: body ++ [quote], rest) := by
  have hne : ∀ c ∈ body, (c != quote) = true := by
    intro c hc
    have hcq : c ≠ quote := fun heq => hbody (heq ▸ hc)
    simpa using hcq
  simp [scanQuoted, List.takeWhile_append_of_pos hne, List.dropWhile_append_of_pos hne]

/-- A token that starts with a character of a name is a name. -/
theorem scan_name {c : Char} (hc : isTagNameChar c = true) (cs : List Char) :
    scan c cs = (.name, c :: cs.takeWhile isTagNameChar, cs.dropWhile isTagNameChar) := by
  obtain ⟨-, hdouble, hsingle, hopen, hclose, hequals, hslash⟩ := isTagNameChar_eq_true hc
  simp [scan, hdouble, hsingle, hopen, hclose, hequals, hslash]

theorem Quotes.scan_eq {kind : TagTokenKind} {quote : Char} (h : Quotes kind quote)
    (cs : List Char) : scan quote cs = scanQuoted kind quote cs := by
  cases h <;> rfl

theorem Quotes.exists_stands {kind : TagTokenKind} {quote : Char} (h : Quotes kind quote)
    (cs : List Char) : ∃ kind text rest, quote :: cs = text ++ rest ∧ Stands kind text rest := by
  by_cases hmem : quote ∈ cs
  · obtain ⟨body, rest, rfl, hbody⟩ := List.eq_append_cons_of_mem hmem
    exact ⟨kind, _, rest, by simp, .quoted rest h hbody⟩
  · exact ⟨.invalid, _, [], (List.append_nil _).symm, .unclosed h hmem⟩

/-- A token stands wherever no blank does. -/
theorem exists_stands {c : Char} (hc : isTagBlank c = false) (cs : List Char) :
    ∃ kind text rest, c :: cs = text ++ rest ∧ Stands kind text rest := by
  cases hname : isTagNameChar c with
  | true =>
    refine ⟨.name, c :: cs.takeWhile isTagNameChar, cs.dropWhile isTagNameChar,
      by rw [List.cons_append, List.takeWhile_append_dropWhile],
      .name (List.cons_ne_nil _ _) ?_ ?_⟩
    · exact List.forall_mem_cons.2 ⟨hname, List.all_eq_true.1 List.all_takeWhile⟩
    · exact endsName_dropWhile cs
  | false =>
    -- what is left are the characters with a token of their own
    have hopens : c = '"' ∨ c = '\'' ∨ c = '<' ∨ c = '>' ∨ c = '=' ∨ c = '/' := by
      simpa only [isTagNameChar, hc, Bool.false_or, Bool.not_eq_false', Bool.or_eq_true,
        beq_iff_eq, or_assoc] using hname
    rcases hopens with rfl | rfl | rfl | rfl | rfl | rfl
    · exact Quotes.double.exists_stands cs
    · exact Quotes.single.exists_stands cs
    · exact ⟨_, _, cs, rfl, .stray cs⟩
    · exact ⟨_, _, cs, rfl, .close cs⟩
    · exact ⟨_, _, cs, rfl, .equals cs⟩
    · by_cases hclose : cs.head? = some '>'
      · obtain ⟨rest, rfl⟩ := List.head?_eq_some_iff.1 hclose
        exact ⟨_, _, rest, rfl, .selfClose rest⟩
      · exact ⟨_, _, cs, rfl, .slash hclose⟩

namespace Stands

variable {kind : TagTokenKind} {text rest : List Char}

/-- The token that stands at the front is the one that is read. -/
theorem scan_eq (h : Stands kind text rest) {c : Char} {cs : List Char}
    (hcs : c :: cs = text ++ rest) : scan c cs = (kind, text, rest) := by
  cases h with
  | quoted rest hquote hbody =>
    obtain ⟨rfl, rfl⟩ := List.cons.inj (hcs.trans (List.append_assoc _ _ _))
    rw [hquote.scan_eq]
    exact scanQuoted_append _ hbody rest
  | unclosed hquote hbody =>
    obtain ⟨rfl, rfl⟩ := List.cons.inj (hcs.trans (List.append_nil _))
    have hne : ∀ d ∈ cs, (d != c) = true := by
      intro d hd
      simpa using fun heq : d = c => hbody (heq ▸ hd)
    rw [hquote.scan_eq, ← List.append_nil cs, scanQuoted, List.takeWhile_append_of_pos hne,
      List.dropWhile_append_of_pos hne]
    rfl
  | @name text rest hne hchars hrest =>
    cases text with
    | nil => exact absurd rfl hne
    | cons d text =>
      obtain ⟨rfl, rfl⟩ : c = d ∧ cs = text ++ rest := List.cons.inj hcs
      obtain ⟨hc, htext⟩ := List.forall_mem_cons.1 hchars
      rw [scan_name hc, takeWhile_name htext hrest, dropWhile_name htext hrest]
  | slash hrest =>
    obtain ⟨rfl, rfl⟩ := List.cons.inj hcs
    cases cs with
    | nil => rfl
    | cons d cs =>
      have hd : d ≠ '>' := by simpa using hrest
      simp [scan, hd]
  | _ =>
    obtain ⟨rfl, rfl⟩ := List.cons.inj hcs
    rfl

theorem ne_nil (h : Stands kind text rest) : text ≠ [] := by
  cases h with
  | name hne => exact hne
  | _ => simp

theorem ne_eof (h : Stands kind text rest) : kind ≠ .eof := by
  rcases h with _ | _ | _ | _ | ⟨_, _ | _, _⟩ <;> simp

/-- The tokens that close a tag are written in one way. -/
theorem text_of_closing (h : Stands kind text rest) {selfClosing : Bool}
    (hkind : kind = .close ∧ selfClosing = false ∨ kind = .selfClose ∧ selfClosing = true) :
    text = if selfClosing then ['/', '>'] else ['>'] := by
  obtain ⟨rfl, rfl⟩ | ⟨rfl, rfl⟩ := hkind
  · obtain _ | _ | _ | _ | ⟨_, ⟨⟩, _⟩ := h
    rfl
  · obtain _ | _ | _ | _ | ⟨_, ⟨⟩, _⟩ := h
    rfl

theorem wellFormed (h : Stands kind text rest) (span : Span) : WellFormed ⟨kind, span, text⟩ := by
  rcases h with _ | _ | _ | _ | ⟨_, _ | _, hbody⟩ | ⟨hne, hchars, -⟩
  case quoted.double => exact ⟨_, rfl, hbody⟩
  case quoted.single => exact ⟨_, rfl, hbody⟩
  case name => exact ⟨hne, hchars⟩
  all_goals trivial

theorem not_isTagBlank (h : Stands kind text rest) : ∀ c ∈ text.head?, isTagBlank c = false := by
  rcases h with _ | _ | _ | _ | ⟨_, _ | _, _⟩ | @⟨text, _, _, hchars, _⟩ | _ | ⟨_ | _, _⟩
  case name =>
    exact fun c hc => (isTagNameChar_eq_true (hchars c (List.mem_of_mem_head? hc))).1
  all_goals
    rintro c ⟨⟩
    rfl

end Stands

/-! ## Tokens in a row -/

/-- The tokens of a text that starts at an offset, each with what follows it. -/
inductive Lexes : Nat → List Char → List (TagToken × List Char) → Prop where
  | eof (offset : Nat) : Lexes offset [] [(⟨.eof, .ofOffsets offset offset, []⟩, [])]
  | blank {offset : Nat} {c : Char} {cs : List Char} {ps : List (TagToken × List Char)} :
      isTagBlank c = true → Lexes (offset + c.utf8Size) cs ps → Lexes offset (c :: cs) ps
  | token {offset : Nat} {kind : TagTokenKind} {text rest : List Char}
      {ps : List (TagToken × List Char)} : Stands kind text rest →
      Lexes (offset + byteLength text) rest ps →
      Lexes offset (text ++ rest)
        ((⟨kind, .ofOffsets offset (offset + byteLength text), text⟩, rest) :: ps)

theorem lex_blank {c : Char} (hc : isTagBlank c = true) (offset : Nat) (cs : List Char) :
    lex offset (c :: cs) = lex (offset + c.utf8Size) cs := by
  rw [lex]
  simp [hc]

theorem exists_lexes (offset : Nat) (cs : List Char) :
    ∃ ps, Lexes offset cs ps ∧ lex offset cs = ps.map (·.1) := by
  fun_induction lex offset cs with
  | case1 offset => exact ⟨_, .eof offset, rfl⟩
  | case2 offset c cs hblank ih =>
    obtain ⟨ps, hlexes, hlex⟩ := ih
    exact ⟨ps, .blank hblank hlexes, hlex⟩
  | case3 offset c cs hblank next stop ih =>
    obtain ⟨kind, text, rest, hcs, hstands⟩ := exists_stands (Bool.eq_false_iff.2 hblank) cs
    have hnext : next = (kind, text, rest) := hstands.scan_eq hcs
    rw [hcs]
    simp only [stop, hnext] at ih ⊢
    obtain ⟨ps, hlexes, hlex⟩ := ih
    exact ⟨_, .token hstands hlexes, by rw [List.map_cons, hlex]⟩

/-- The token that stands at the front is the first. -/
theorem Stands.lex_eq {kind : TagTokenKind} {text rest : List Char}
    (h : Stands kind text rest) (offset : Nat) :
    lex offset (text ++ rest) =
      ⟨kind, .ofOffsets offset (offset + byteLength text), text⟩ ::
        lex (offset + byteLength text) rest := by
  obtain ⟨c, cs, rfl⟩ := List.exists_cons_of_ne_nil h.ne_nil
  rw [List.cons_append, lex, h.not_isTagBlank c rfl, h.scan_eq (List.cons_append).symm]
  rfl

theorem lex_equals (offset : Nat) (cs : List Char) :
    lex offset ('=' :: cs) =
      ⟨.equals, .ofOffsets offset (offset + 1), ['=']⟩ :: lex (offset + 1) cs :=
  (Stands.equals cs).lex_eq offset

theorem lex_close (offset : Nat) (cs : List Char) :
    lex offset ('>' :: cs) =
      ⟨.close, .ofOffsets offset (offset + 1), ['>']⟩ :: lex (offset + 1) cs :=
  (Stands.close cs).lex_eq offset

theorem lex_wellFormed (offset : Nat) (cs : List Char) : ∀ t ∈ lex offset cs, t.WellFormed := by
  obtain ⟨ps, hlexes, hlex⟩ := exists_lexes offset cs
  rw [hlex]
  clear hlex
  induction hlexes with
  | eof offset => simp [WellFormed]
  | blank _ _ ih => exact ih
  | token h _ ih => exact List.forall_mem_cons.2 ⟨h.wellFormed _, ih⟩

end TagToken

/-! ## Attributes that were read -/

namespace Attribute

/-- The attribute can be written: its name is a name, and one kind of quote is free for its
value. -/
structure Writable (a : Attribute) : Prop where
  name_ne : a.name.toList ≠ []
  name_chars : ∀ c ∈ a.name.toList, isTagNameChar c = true
  quote_free : ∀ value, a.value = .text value → '"' ∉ value.toList ∨ '\'' ∉ value.toList

/-- The attribute without its place. -/
def pair (a : Attribute) : String × AttributeValue := (a.name, a.value)

end Attribute

/-- The value of a token that may stand after `=` leaves one kind of quote free. -/
theorem TagToken.value_quote_free {t : TagToken} (ht : t.WellFormed)
    (hkind : t.kind = .name ∨ t.kind = .doubleQuoted ∨ t.kind = .singleQuoted) :
    '"' ∉ t.value.toList ∨ '\'' ∉ t.value.toList := by
  obtain ⟨kind, span, text⟩ := t
  rcases hkind with rfl | rfl | rfl
  · obtain ⟨-, hchars⟩ := ht
    refine Or.inl fun hmem => ?_
    have hname := hchars '"' (by simpa [value, TagTokenKind.isQuoted] using hmem)
    simp [isTagNameChar] at hname
  · obtain ⟨body, rfl, hbody⟩ := ht
    exact Or.inl (by simpa [value, TagTokenKind.isQuoted, List.dropLast_concat] using hbody)
  · obtain ⟨body, rfl, hbody⟩ := ht
    exact Or.inr (by simpa [value, TagTokenKind.isQuoted, List.dropLast_concat] using hbody)

theorem writable_of_name {t : TagToken} (ht : t.WellFormed) (hkind : t.kind = .name) :
    Attribute.Writable ⟨String.ofList t.text, .bare, t.span⟩ := by
  obtain ⟨kind, span, text⟩ := t
  cases hkind
  obtain ⟨hne, hchars⟩ := ht
  exact ⟨by simpa using hne, by simpa using hchars, by simp⟩

theorem writable_giveValue {t : TagToken} {attributes : List Attribute} (ht : t.WellFormed)
    (hkind : t.kind = .name ∨ t.kind = .doubleQuoted ∨ t.kind = .singleQuoted)
    (hattributes : ∀ a ∈ attributes, a.Writable) :
    ∀ a ∈ giveValue t attributes, a.Writable := by
  cases attributes with
  | nil => simp [giveValue]
  | cons last earlier =>
    intro a ha
    rcases List.mem_cons.1 ha with rfl | ha
    · have hlast := hattributes last List.mem_cons_self
      refine ⟨hlast.name_ne, hlast.name_chars, ?_⟩
      intro value hvalue
      have hvalue' : t.value = value := by simpa using hvalue
      rw [← hvalue']
      exact TagToken.value_quote_free ht hkind
    · exact hattributes a (List.mem_cons_of_mem last ha)

namespace Header

theorem readFrom_writable {start : Nat} {name : String} {attributes : List Attribute}
    {pending : Bool} {tokens : List TagToken} {h : Header}
    (htokens : ∀ t ∈ tokens, t.WellFormed) (hattributes : ∀ a ∈ attributes, a.Writable)
    (hr : readFrom start name attributes pending tokens = .ok h) :
    ∀ a ∈ h.attributes, a.Writable := by
  fun_induction readFrom start name attributes pending tokens with
  | case1 | case2 => cases hr
  | case3 | case4 => cases hr; simpa using hattributes
  | case5 attributes t more hkind ih =>
    obtain ⟨ht, hmore⟩ := List.forall_mem_cons.1 htokens
    exact ih hmore (List.forall_mem_cons.2 ⟨writable_of_name ht hkind, hattributes⟩) hr
  | case6 => simp_all
  | case7 attributes t more hkind _ ih =>
    exact ih (List.forall_mem_cons.1 htokens).2 hattributes hr
  | case8 attributes t more hkind ih =>
    obtain ⟨ht, hmore⟩ := List.forall_mem_cons.1 htokens
    exact ih hmore (writable_giveValue ht (Or.inl hkind) hattributes) hr
  | case9 attributes t more hkind ih =>
    obtain ⟨ht, hmore⟩ := List.forall_mem_cons.1 htokens
    exact ih hmore (writable_giveValue ht (Or.inr (Or.inl hkind)) hattributes) hr
  | case10 attributes t more hkind ih =>
    obtain ⟨ht, hmore⟩ := List.forall_mem_cons.1 htokens
    exact ih hmore (writable_giveValue ht (Or.inr (Or.inr hkind)) hattributes) hr
  | case11 => simp_all

/-- Every attribute that is read can be written. -/
theorem read_writable {start offset : Nat} {name : String} {cs : List Char} {h : Header}
    (hr : read start name offset cs = .ok h) : ∀ a ∈ h.attributes, a.Writable :=
  readFrom_writable (TagToken.lex_wellFormed offset cs) (by simp) hr

end Header

/-! ## Attributes that are written -/

/-- The characters of an attribute with a space before it. -/
theorem Attribute.render_toList (a : Attribute) :
    a.render.toList = ' ' :: a.name.toList ++
      match a.value with
      | .bare => []
      | .text value =>
        let quote := if '"' ∈ value.toList then '\'' else '"'
        '=' :: quote :: value.toList ++ [quote] := by
  unfold Attribute.render
  cases a.value with
  | bare => simp
  | text value =>
    by_cases hquote : '"' ∈ value.toList
    · simp [hasChar, hquote]
    · simp [hasChar, hquote]

/-- Texts without a separator are written one after the other. -/
theorem join_empty_toList (texts : List String) :
    (join "" texts).toList = (texts.map String.toList).flatten := by
  induction texts with
  | nil => rfl
  | cons text texts ih =>
    cases texts with
    | nil => simp [join]
    | cons next texts => simp [join, ih]

theorem renderAttributes_nil : (renderAttributes []).toList = [] := rfl

theorem renderAttributes_cons (a : Attribute) (attributes : List Attribute) :
    (renderAttributes (a :: attributes)).toList =
      a.render.toList ++ (renderAttributes attributes).toList := by
  simp [renderAttributes, join_empty_toList]

/-- Attributes in front of a closing bracket do not continue a name. -/
theorem endsName_renderAttributes (attributes : List Attribute) (rest : List Char) :
    EndsName ((renderAttributes attributes).toList ++ '>' :: rest) := by
  cases attributes with
  | nil => exact endsName_cons (by decide)
  | cons a attributes =>
    rw [renderAttributes_cons, Attribute.render_toList]
    exact endsName_cons (by decide)

namespace Header

/-- Reading a written value gives the attribute before it this value. -/
theorem readFrom_quoted (start : Nat) (name : String) (a : Attribute)
    (attributes : List Attribute) (offset : Nat) (rest : List Char) {value : List Char}
    {quote : Char} (hquote : quote = '"' ∨ quote = '\'') (hvalue : quote ∉ value) :
    ∃ a', a'.pair = (a.name, .text (String.ofList value)) ∧
      readFrom start name (a :: attributes) true
          (TagToken.lex offset (quote :: value ++ quote :: rest)) =
        readFrom start name (a' :: attributes) false
          (TagToken.lex (offset + byteLength (quote :: value ++ [quote])) rest) := by
  rw [List.append_cons]
  rcases hquote with rfl | rfl
  · rw [(TagToken.Stands.quoted rest .double hvalue).lex_eq]
    refine ⟨_, ?_, rfl⟩
    simp [Attribute.pair, TagToken.value, TagTokenKind.isQuoted]
  · rw [(TagToken.Stands.quoted rest .single hvalue).lex_eq]
    refine ⟨_, ?_, rfl⟩
    simp [Attribute.pair, TagToken.value, TagTokenKind.isQuoted]

/-- Reading on at a written attribute adds it to those read so far. -/
theorem readFrom_attribute (start : Nat) (name : String) (attributes : List Attribute)
    (offset : Nat) {a : Attribute} {rest : List Char} (ha : a.Writable)
    (hrest : EndsName rest) :
    ∃ a', a'.pair = a.pair ∧
      readFrom start name attributes false
          (TagToken.lex offset (a.render.toList ++ rest)) =
        readFrom start name (a' :: attributes) false
          (TagToken.lex (offset + byteLength a.render.toList) rest) := by
  obtain ⟨hne, hchars, hfree⟩ := ha
  rw [Attribute.render_toList, List.cons_append, List.cons_append,
    TagToken.lex_blank (by decide)]
  obtain ⟨aname, avalue, aspan⟩ := a
  cases avalue with
  | bare =>
    rw [List.append_nil, (TagToken.Stands.name hne hchars hrest).lex_eq, Nat.add_assoc]
    exact ⟨⟨String.ofList aname.toList, .bare, _⟩, by simp [Attribute.pair], rfl⟩
  | text value =>
    let quote := if '"' ∈ value.toList then '\'' else '"'
    have hequals : EndsName ('=' :: quote :: value.toList ++ [quote] ++ rest) :=
      endsName_cons (by decide)
    have hquote : quote = '"' ∨ quote = '\'' := by
      by_cases hdouble : '"' ∈ value.toList
      · exact Or.inr (if_pos hdouble)
      · exact Or.inl (if_neg hdouble)
    have hvalue : quote ∉ value.toList := by
      by_cases hdouble : '"' ∈ value.toList
      · rw [show quote = '\'' from if_pos hdouble]
        exact (hfree value rfl).resolve_left fun hnot => hnot hdouble
      · rwa [show quote = '"' from if_neg hdouble]
    obtain ⟨a', hpair, hread⟩ := readFrom_quoted start name
      ⟨String.ofList aname.toList, .bare, _⟩ attributes
      (offset + ' '.utf8Size + byteLength aname.toList + 1) rest hquote hvalue
    refine ⟨a', by simpa [Attribute.pair] using hpair, ?_⟩
    have hstop : offset + ' '.utf8Size + byteLength aname.toList + 1 +
        byteLength (quote :: value.toList ++ [quote]) =
          offset + byteLength
            (' ' :: (aname.toList ++ ('=' :: quote :: value.toList ++ [quote]))) := by
      simp only [List.cons_append, byteLength_cons, byteLength_append,
        show '='.utf8Size = 1 from rfl]
      omega
    rw [hstop] at hread
    show readFrom start name attributes false (TagToken.lex (offset + ' '.utf8Size)
      ((aname.toList ++ ('=' :: quote :: value.toList ++ [quote])) ++ rest)) = _
    rw [List.append_assoc, (TagToken.Stands.name hne hchars hequals).lex_eq]
    simp only [List.cons_append, List.append_assoc, TagToken.lex_equals] at hread ⊢
    exact hread

/-- Reading on at written attributes and a closing bracket ends the tag. -/
theorem readFrom_attributes (start : Nat) (name : String) (rest : List Char)
    {written : List Attribute} (hwritten : ∀ a ∈ written, a.Writable) :
    ∀ (attributes : List Attribute) (offset : Nat), ∃ h : Header,
      readFrom start name attributes false
          (TagToken.lex offset ((renderAttributes written).toList ++ '>' :: rest)) =
        .ok h ∧
      h.attributes.map Attribute.pair =
        attributes.reverse.map Attribute.pair ++ written.map Attribute.pair ∧
      h.selfClosing = false ∧
      h.stop = (offset + byteLength (renderAttributes written).toList + 1) % Span.limit := by
  induction written with
  | nil =>
    intro attributes offset
    rw [renderAttributes_nil, List.nil_append, TagToken.lex_close]
    exact ⟨_, rfl, by simp, rfl, rfl⟩
  | cons a written ih =>
    intro attributes offset
    obtain ⟨ha, hwritten⟩ := List.forall_mem_cons.1 hwritten
    obtain ⟨a', hpair, hread⟩ := readFrom_attribute start name attributes offset ha
      (endsName_renderAttributes written rest)
    obtain ⟨h, hh, hattributes, hself, hstop⟩ := ih hwritten (a' :: attributes)
      (offset + byteLength a.render.toList)
    refine ⟨h, ?_, ?_, hself, ?_⟩
    · rw [renderAttributes_cons, List.append_assoc, hread, hh]
    · simp [hattributes, hpair]
    · rw [hstop, renderAttributes_cons, byteLength_append, Nat.add_assoc offset]

/-- A written tag is read with the attributes that were written, up to places. -/
theorem read_renderAttributes (start : Nat) (name : String) (offset : Nat)
    {attributes : List Attribute} (hattributes : ∀ a ∈ attributes, a.Writable)
    (rest : List Char) :
    ∃ h : Header,
      read start name offset ((renderAttributes attributes).toList ++ '>' :: rest) = .ok h ∧
      h.attributes.map Attribute.pair = attributes.map Attribute.pair ∧
      h.selfClosing = false ∧
      h.stop = (offset + byteLength (renderAttributes attributes).toList + 1) % Span.limit := by
  simpa [read] using readFrom_attributes start name rest hattributes [] offset

end Header

end ScriptSetup.Block
