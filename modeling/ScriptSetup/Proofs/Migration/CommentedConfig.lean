import ScriptSetup.Migration.Config
import ScriptSetup.Proofs.Json.SameTokens

/-!
# Comments in a configuration

A configuration is read without its comments. Texts with the same tokens hold the same
configuration, and a JSON text with comments put between its tokens has, once they are taken out,
the tokens that it had before.
-/

set_option autoImplicit false

namespace ScriptSetup.Migration.Config

open Json

/-! ## Reading -/

theorem readField_agree (c : Config) (f : Field) {cs cs' : List Char} (h : SameTokens cs cs') :
    Agree After (readField c cs f) (readField c cs' f) := by
  have hstrings := readNullable_agree readStrings_agree h
  have hstring := readNullable_agree readString_agree h
  cases f with
  | extensions | ignore =>
    exact (readStrings_agree h).map fun hr => ⟨by rw [hr.1], hr.2⟩
  | denied => exact hstrings.map fun hr => ⟨by rw [hr.1], hr.2⟩
  | framework | suffix => exact hstring.map fun hr => ⟨by rw [hr.1], hr.2⟩

theorem readMembers_eq (first : Bool) (missing : List Field) (c : Config) (cs : List Char) :
    readMembers first missing c cs = (nextKey first cs).bind fun (key?, rest) =>
      match key? with
      | none => .ok (c, rest)
      | some key =>
        match (Field.ofKey? key).filter (· ∈ missing) with
        | none => .error .unfit
        | some f => ((colon rest).bind (readField c · f)).bind fun r =>
          readMembers false (missing.erase f) r.1 r.2 := by
  rw [readMembers]
  rcases nextKey first cs with e | ⟨_ | key, rest⟩
  · rfl
  · rfl
  · simp only [Except.bind.eq_2]
    cases Field.ofKey? key with
    | none => rfl
    | some f =>
      by_cases hmem : f ∈ missing
      · simp only [hmem, dite_true, Option.filter_some, decide_true, if_true]
        rcases (colon rest).bind (readField c · f) with e | r <;> rfl
      · simp only [hmem, dite_false, Option.filter_some, decide_false, Bool.false_eq_true,
          if_false]

theorem readMembers_agree (first : Bool) (missing : List Field) (c : Config) {cs cs' : List Char}
    (h : SameTokens cs cs') :
    Agree After (readMembers first missing c cs) (readMembers first missing c cs') := by
  rw [readMembers_eq, readMembers_eq]
  refine (nextKey_agree first h).andThen fun {key? rest rest'} _ hrest => ?_
  cases key? with
  | none => exact .ok ⟨rfl, hrest⟩
  | some key =>
    cases hf : (Field.ofKey? key).filter (· ∈ missing) with
    | none =>
      simp only [hf]
      exact .error _
    | some f =>
      have hmem : f ∈ missing := by
        obtain ⟨-, hmem⟩ := Option.filter_eq_some_iff.1 hf
        simpa using hmem
      have hlt := length_erase_lt hmem
      simp only [hf]
      have hvalue : Agree After ((colon rest).bind (readField c · f))
          ((colon rest').bind (readField c · f)) :=
        (colon_agree hrest).bind fun _ hcolon => readField_agree c f hcolon
      exact hvalue.andThen fun _ hr => readMembers_agree false (missing.erase f) _ hr
  termination_by missing.length

theorem readValues_agree {cs cs' : List Char} (h : SameTokens cs cs') :
    Agree After (readValues cs) (readValues cs') := by
  unfold readValues
  refine (readElement_agree true readStrings_agree h).andThen fun {extensions _ _} _ h => ?_
  refine (readElement_agree false readStrings_agree h).andThen fun {ignore _ _} _ h => ?_
  refine (readElement_agree false (readNullable_agree readStrings_agree) h).andThen
    fun {denied _ _} _ h => ?_
  cases denied with
  | none => exact .error _
  | some denied =>
    refine (readElement_agree false (readNullable_agree readString_agree) h).andThen
      fun {framework _ _} _ h => ?_
    cases framework with
    | none => exact .error _
    | some framework =>
      refine (readElement_agree false (readNullable_agree readString_agree) h).andThen
        fun {suffix _ _} _ h => ?_
      cases suffix with
      | none => exact .error _
      | some suffix => exact (closeList_agree h).bind fun _ h => .ok ⟨rfl, h⟩

theorem read_agree {cs cs' : List Char} (h : SameTokens cs cs') :
    Agree After (read cs) (read cs') := by
  unfold read
  refine h.atFront (.error _) fun c tail tail' hfront => ?_
  dsimp only
  split
  next hc => exact readValues_agree (hfront.punct .openList hc)
  next =>
    split
    next hc => exact readMembers_agree true Field.all {} (hfront.punct .openObject hc)
    next => rw [hfront.unfit]; exact .error _

/-- The configuration of two texts that have the same tokens without comments. -/
theorem parse_eq_of_sameTokens {text text' : String}
    (h : SameTokens (withoutComments text).toList (withoutComments text').toList) :
    parse text = parse text' := by
  refine Agree.eq ?_
  rw [parse, parse]
  refine (read_agree h).andThen fun {c rest rest'} _ hrest => ?_
  simp only [close_agree hrest]
  rcases close rest' with e | _
  · exact .error e
  · exact .ok rfl

/-! ## Comments between tokens -/

theorem isSpace_bare (f : Filler) : ∀ c ∈ f.bare, isSpace c := by
  cases f with
  | space c h => simpa [Filler.bare] using h
  | line _ _ | block _ _ => simp [Filler.bare]

theorem isSpace_left (f : Filler) : ∀ c ∈ f.left, isSpace c := by
  cases f with
  | space c h => simpa [Filler.left] using h
  | line _ _ => simp [Filler.left, isSpace]
  | block _ _ => simp [Filler.left]

/-- Comments between the tokens of a JSON text do not change the configuration it holds, nor the
kind of fault it is refused for. Where the fault lies is not recorded. -/
theorem parse_commented {l : Layout} (h : Derives .value l.lexemes) :
    parse (l.text Filler.commented) = parse (l.text Filler.bare) := by
  apply parse_eq_of_sameTokens
  rw [l.withoutComments_commented, withoutComments_of_isJson ⟨l, h, rfl⟩, Layout.text, Layout.text,
    String.toList_ofList, String.toList_ofList]
  exact Layout.sameTokens isSpace_left isSpace_bare h.apart

/-- Taking out comments is exact. A text comes apart in one way into strings, comments and other
characters, and what is left are the pieces that are no comments. So nothing is taken out of JSON,
a second time changes nothing, and a JSON text holds the same configuration when comments are put
between its tokens. -/
theorem comments_removed_exactly (text : String) :
    (∃! ps, Splits text.toList ps) ∧
      (∀ ps, Splits text.toList ps → withoutComments text = String.ofList (keptChars ps)) ∧
      (IsJson text → withoutComments text = text) ∧
      withoutComments (withoutComments text) = withoutComments text ∧
      ∀ l : Layout, Derives .value l.lexemes → l.text Filler.bare = text →
        parse (l.text Filler.commented) = parse text := by
  refine ⟨?_, ?_, withoutComments_of_isJson, ?_, ?_⟩
  · obtain ⟨ps, hps⟩ := exists_splits text.toList
    exact ⟨ps, hps, fun qs hqs => hqs.unique hps⟩
  · intro ps hps
    rw [withoutComments, hps.dropComments_eq]
  · rw [withoutComments, withoutComments, String.toList_ofList, dropComments_idem]
  · rintro l h rfl
    exact parse_commented h

/-- A comment that holds a quote, one that ends a line and holds a bracket, and a string with two
slashes. -/
theorem comments_removed_exactly_settings :
    parse "[/*\"*/[\"//\"],[] //]\n,null,null,null]" = parse "[[\"//\"],[] ,null,null,null]" ∧
      parse "[[\"//\"],[] ,null,null,null]" = .ok ⟨["//"], [], none, none, none⟩ := by
  let slash : StringItem := .plain '/' (by decide) (by decide) (by decide)
  let null : Lexeme := .word .null
  let l : Layout :=
    ⟨[([], .punct .openList), ([.block ['"'] (by decide)], .punct .openList),
      ([], .string [slash, slash]), ([], .punct .closeList), ([], .punct .comma),
      ([], .punct .openList), ([], .punct .closeList),
      ([.space ' ' (by decide), .line [']'] (by decide)], .punct .comma), ([], null),
      ([], .punct .comma), ([], null), ([], .punct .comma), ([], null), ([], .punct .closeList)],
      []⟩
  have hnulls : Derives .elements [null, .punct .comma, null, .punct .comma, null] :=
    .elements (.word .null) (.elements (.word .null) (.element (.word .null)))
  have hvalue : Derives .value l.lexemes :=
    .list (.elements (.list (.element (.string [slash, slash]))) (.elements .emptyList hnulls))
  exact ⟨(comments_removed_exactly _).2.2.2.2 l hvalue rfl, by decide +kernel⟩

end ScriptSetup.Migration.Config
