import ScriptSetup.Proofs.Block.Places
import ScriptSetup.Proofs.Result

/-!
# Splitting is local

Nothing that splitting looks at lies behind the end of a block or comment that it has found. So a
text whose last block or comment is followed by plain characters only can be split by itself: the
blocks of a longer text that it starts are its own blocks, and then those of the rest.

There are two parts to this. More text behind a tag, a closing tag or a comment does not change
where they end, and shifting a text shifts the places of all that is read from it.
-/

set_option autoImplicit false

namespace ScriptSetup

open Text

/-! ## Shifted places -/

theorem Span.shift_ofOffsets (start stop n : Nat) :
    (ofOffsets start stop).shift n = ofOffsets (start + n) (stop + n) := by
  simp [shift, ofOffsets]

namespace Block

/-- The token with its place changed. -/
def TagToken.place (f : Span → Span) (t : TagToken) : TagToken :=
  { t with span := f t.span }

/-- The attribute with its place changed. -/
def Attribute.place (f : Span → Span) (a : Attribute) : Attribute :=
  { a with span := f a.span }

/-- The block with its places changed. -/
def place (f : Span → Span) (b : Block) : Block :=
  { b with
    span := f b.span
    contentSpan := f b.contentSpan
    attributes := b.attributes.map (Attribute.place f) }

end Block

/-- The fault in another place. -/
def BlockError.place (f : Span → Span) (e : BlockError) : BlockError :=
  { e with span := f e.span }

/-- The blocks and the faults with their places changed. -/
def Split.place (f : Span → Span) (s : Split) : Split :=
  ⟨s.blocks.map (Block.place f), s.errors.map (BlockError.place f)⟩

namespace Block

variable {cs rest : List Char} {name : String} {offset start : Nat} {attributes : List Attribute}
  {h : Header} {pending : Bool}

/-- The tag with its places shifted. -/
def Header.shift (h : Header) (n : Nat) : Header :=
  { h with
    attributes := h.attributes.map (Attribute.place (·.shift n))
    stop := (h.stop + n) % Span.limit }

theorem TagToken.lex_shift (offset n : Nat) (cs : List Char) :
    lex (offset + n) cs = (lex offset cs).map (place (·.shift n)) := by
  obtain ⟨ps, hlexes, -⟩ := exists_lexes offset cs
  induction hlexes with
  | eof offset =>
    rw [lex, lex, List.map_singleton, place, Span.shift_ofOffsets]
  | blank hblank _ ih => rw [lex_blank hblank, lex_blank hblank, ← ih, Nat.add_right_comm]
  | token hstands _ ih =>
    rw [hstands.lex_eq, hstands.lex_eq, List.map_cons, ← ih, place, Span.shift_ofOffsets,
      Nat.add_right_comm]

theorem tagStep_shift (t : TagToken) (attributes : List Attribute) (pending : Bool) (n : Nat) :
    tagStep (t.place (·.shift n)) (attributes.map (Attribute.place (·.shift n))) pending =
      (tagStep t attributes pending).map fun r =>
        (r.1.map (Attribute.place (·.shift n)), r.2) := by
  have hgive : giveValue (t.place (·.shift n)) (attributes.map (Attribute.place (·.shift n))) =
      (giveValue t attributes).map (Attribute.place (·.shift n)) := by
    cases attributes <;> rfl
  obtain ⟨kind, span, text⟩ := t
  cases pending with
  | true =>
    cases kind with
    | name | doubleQuoted | singleQuoted => exact congrArg (fun as => some (as, false)) hgive
    | _ => rfl
  | false =>
    cases kind with
    | equals => cases attributes <;> rfl
    | _ => rfl

theorem tagEnd_shift (start : Nat) (name : String) (attributes : List Attribute) (pending : Bool)
    (t : TagToken) (n : Nat) :
    tagEnd (start + n) name (attributes.map (Attribute.place (·.shift n))) pending
        (t.place (·.shift n)) =
      ((tagEnd start name attributes pending t).map (·.shift n)).mapError
        (BlockError.place (·.shift n)) := by
  obtain ⟨kind, span, text⟩ := t
  have heof : Span.ofOffsets (start + n) (span.shift n).stop =
      (Span.ofOffsets start span.stop).shift n := by
    simp [Span.shift, Span.ofOffsets]
  cases kind with
  | eof => simp [tagEnd, TagToken.place, heof, Except.map, BlockError.place]
  | close | selfClose =>
    cases pending with
    | true => rfl
    | false =>
      simp [tagEnd, Except.map, Header.shift, TagToken.place, List.map_reverse,
        Span.shift, Span.ofOffsets]
  | _ => cases pending <;> rfl

theorem Header.readFrom_shift (start n : Nat) (name : String) (attributes : List Attribute)
    (pending : Bool) (tokens : List TagToken) :
    readFrom (start + n) name (attributes.map (Attribute.place (·.shift n))) pending
        (tokens.map (TagToken.place (·.shift n))) =
      ((readFrom start name attributes pending tokens).map (·.shift n)).mapError
        (BlockError.place (·.shift n)) := by
  induction tokens generalizing attributes pending with
  | nil => simp [readFrom, Except.map, BlockError.place, Span.shift_ofOffsets]
  | cons t tokens ih =>
    rw [List.map_cons, readFrom_cons, readFrom_cons, tagStep_shift]
    cases tagStep t attributes pending with
    | none => exact tagEnd_shift start name attributes pending t n
    | some r => exact ih r.1 r.2

/-- A block that is read from a longer text is the same block, shifted. -/
theorem read_shift (earlier before cs : List Char)
    (hsize : byteLength (earlier ++ (before ++ '<' :: cs)) < Span.limit) :
    read (earlier ++ (before ++ '<' :: cs)) (byteLength before + byteLength earlier) cs =
      ((read (before ++ '<' :: cs) (byteLength before) cs).map
        (place (·.shift (byteLength earlier)))).mapError
          (BlockError.place (·.shift (byteLength earlier))) := by
  have hheader : Header.read (byteLength before + byteLength earlier)
      (String.ofList (cs.takeWhile isTagNameChar))
      (byteLength before + byteLength earlier + 1 + byteLength (cs.takeWhile isTagNameChar))
      (cs.dropWhile isTagNameChar) =
        ((Header.read (byteLength before) (String.ofList (cs.takeWhile isTagNameChar))
          (byteLength before + 1 + byteLength (cs.takeWhile isTagNameChar))
          (cs.dropWhile isTagNameChar)).map (·.shift (byteLength earlier))).mapError
            (BlockError.place (·.shift (byteLength earlier))) := by
    rw [Header.read, Header.read, Nat.add_right_comm _ _ 1, Nat.add_right_comm _ _ (byteLength _),
      TagToken.lex_shift]
    exact Header.readFrom_shift _ _ _ [] false _
  unfold read
  simp only [hheader]
  cases hread : Header.read (byteLength before) (String.ofList (cs.takeWhile isTagNameChar))
      (byteLength before + 1 + byteLength (cs.takeWhile isTagNameChar))
      (cs.dropWhile isTagNameChar) with
  | error e => rfl
  | ok header =>
    rw [byteLength_append] at hsize
    obtain ⟨opening, rest, hopens⟩ :=
      Header.exists_opens (Nat.lt_of_le_of_lt (Nat.le_add_left _ _) hsize) hread
    have hstop : (header.stop + byteLength earlier) % Span.limit =
        byteLength (earlier ++ (before ++ opening)) := by
      rw [hopens.text_eq, ← List.append_assoc, byteLength_append (before ++ opening),
        ← hopens.stop] at hsize
      rw [byteLength_append, ← hopens.stop, Nat.add_comm, Nat.mod_eq_of_lt (by omega)]
    have hresume : resume (earlier ++ (before ++ '<' :: cs))
        ((header.stop + byteLength earlier) % Span.limit) =
          resume (before ++ '<' :: cs) header.stop := by
      rw [hstop, hopens.resume_eq, hopens.text_eq, ← List.append_assoc before,
        ← List.append_assoc earlier, resume_append]
    obtain ⟨attributes, stop, selfClosing⟩ := header
    simp only [Except.map, mapError_ok, Header.shift]
    cases selfClosing with
    | true => simp [place, Span.shift, Span.ofOffsets]
    | false =>
      simp only [hresume, Bool.false_eq_true, if_false]
      cases findClose (cs.takeWhile isTagNameChar) (cs.takeWhile isTagNameChar == nestingTag)
          ⟨0, none⟩ (resume (before ++ '<' :: cs) stop) with
      | none => simp [BlockError.place, Span.shift, Span.ofOffsets]
      | some closed =>
        simp [place, Span.shift, Span.ofOffsets, Nat.add_assoc,
          Nat.add_comm (byteLength earlier)]

/-! ## More text behind -/

/-- A run of characters that ends inside a text is the same when more text follows. -/
theorem takeWhile_append_of_dropWhile_ne_nil {p : Char → Bool} (cs : List Char)
    (h : cs.dropWhile p ≠ []) (more : List Char) :
    (cs ++ more).takeWhile p = cs.takeWhile p ∧
      (cs ++ more).dropWhile p = cs.dropWhile p ++ more := by
  induction cs with
  | nil => exact absurd rfl h
  | cons c cs ih =>
    cases hc : p c with
    | true =>
      rw [List.dropWhile_cons_of_pos hc] at h
      simp [hc, ih h]
    | false => simp [hc]

/-- A token with something behind it, or one that closes the tag, does not change. -/
theorem TagToken.Stands.append {kind : TagTokenKind} {text : List Char} (h : Stands kind text rest)
    (hrest : rest ≠ [] ∨ kind = .close ∨ kind = .selfClose) (more : List Char) :
    Stands kind text (rest ++ more) := by
  have hhead (hne : rest ≠ []) : (rest ++ more).head? = rest.head? := by
    obtain ⟨c, cs, rfl⟩ := List.exists_cons_of_ne_nil hne
    rfl
  cases h with
  | close => exact .close _
  | selfClose => exact .selfClose _
  | equals => exact .equals _
  | stray => exact .stray _
  | quoted _ hquote hbody => exact .quoted _ hquote hbody
  | slash hslash =>
    have hne := hrest.resolve_right (by simp)
    exact .slash (hhead hne ▸ hslash)
  | name hne hchars hends =>
    have hne' := hrest.resolve_right (by simp)
    refine .name hne hchars ?_
    rw [EndsName, hhead hne']
    exact hends
  | unclosed => exact absurd rfl (hrest.resolve_right (by simp))

theorem Header.readFrom_nil_ne_ok :
    readFrom start name attributes pending (TagToken.lex offset []) ≠ .ok h := by
  rw [TagToken.lex, readFrom_cons]
  cases pending <;> simp [tagStep, tagEnd]

theorem Header.readFrom_append
    (hr : readFrom start name attributes pending (TagToken.lex offset cs) = .ok h)
    (more : List Char) :
    readFrom start name attributes pending (TagToken.lex offset (cs ++ more)) = .ok h := by
  obtain ⟨ps, hlexes, -⟩ := TagToken.exists_lexes offset cs
  induction hlexes generalizing attributes pending with
  | eof => exact absurd hr readFrom_nil_ne_ok
  | blank hblank _ ih =>
    rw [TagToken.lex_blank hblank] at hr
    rw [List.cons_append, TagToken.lex_blank hblank]
    exact ih hr
  | @token offset kind text rest ps hstands _ ih =>
    rw [hstands.lex_eq, readFrom_cons] at hr
    have hmore : TagToken.Stands kind text (rest ++ more) := by
      refine hstands.append ?_ more
      split at hr
      · -- reading goes on, so the text does not end here
        refine Or.inl fun hnil => ?_
        rw [hnil] at hr
        exact readFrom_nil_ne_ok hr
      · obtain ⟨-, -, -, ⟨hkind, -⟩ | ⟨hkind, -⟩⟩ := tagEnd_eq_ok hr
        · exact Or.inr (Or.inl hkind)
        · exact Or.inr (Or.inr hkind)
    rw [List.append_assoc, hmore.lex_eq, readFrom_cons]
    split at hr
    · exact ih hr
    · exact hr

theorem closeHere_append {r : Closed} (h : closeHere cs = some r) (more : List Char) :
    closeHere (cs ++ more) = some { r with rest := r.rest ++ more } := by
  cases hdrop : cs.dropWhile (· != '>') with
  | nil => simp [closeHere, hdrop] at h
  | cons c rest =>
    obtain ⟨htake, hdrop'⟩ := takeWhile_append_of_dropWhile_ne_nil (p := (· != '>'))
      cs (by simp [hdrop]) more
    simp only [closeHere, hdrop, Option.some.injEq] at h
    subst h
    simp [closeHere, htake, hdrop', hdrop]

theorem endsTagName_append (h : endsTagName cs = true) (more : List Char) :
    endsTagName (cs ++ more) = true := by
  cases cs with
  | nil => cases h
  | cons c cs => exact h

theorem atTag_append {opening : List Char} (h : atTag opening cs = true) (more : List Char) :
    atTag opening (cs ++ more) = true := by
  obtain ⟨after, rfl, hends⟩ := atTag_iff.1 h
  exact atTag_iff.2 ⟨after ++ more, by simp, endsTagName_append hends more⟩

/-- The search for a closing tag ends where it ended. -/
theorem findClose_append {name : List Char} (hlt : '<' ∉ name) {nested : Bool} {state : CloseSearch}
    {r : Closed} (h : findClose name nested state cs = some r) (more : List Char) :
    findClose name nested state (cs ++ more) = some { r with rest := r.rest ++ more } := by
  induction cs generalizing state r with
  | nil => simp [findClose] at h
  | cons c cs ih =>
    rw [List.cons_append, findClose_cons]
    rcases findClose_cons_eq_some h with ⟨next, inner, hstep, hinner, rfl⟩ | ⟨rfl, htag, h⟩
    · obtain ⟨tag, hcs, -⟩ := findClose_eq_append hinner
      have hnext : closeStep name nested state c (cs ++ more) = some next := by
        rw [← hstep, hcs]
        simp only [List.append_assoc, List.cons_append]
        exact closeStep_append_lt hlt nested state c inner.content _ _
      rw [hnext]
      simp only [ih hinner, Option.map_some]
    · have hnone : closeStep name nested ⟨0, none⟩ c (cs ++ more) = none := by
        have htag' : atTag ('<' :: '/' :: name) (c :: (cs ++ more)) = true :=
          atTag_append htag more
        simp [closeStep, htag']
      rw [hnone]
      exact closeHere_append h more

/-- A block is read alike when more text follows it. -/
theorem read_append {before : List Char} {b : Block}
    (hsize : byteLength (before ++ '<' :: cs) < Span.limit)
    (h : read (before ++ '<' :: cs) (byteLength before) cs = .ok b) (more : List Char) :
    read (before ++ '<' :: (cs ++ more)) (byteLength before) (cs ++ more) = .ok b := by
  have hchars : ∀ c ∈ cs.takeWhile isTagNameChar, isTagNameChar c = true :=
    List.all_eq_true.1 List.all_takeWhile
  have hlt := not_mem_of_name_chars hchars (c := '<') (by decide)
  simp only [read] at h
  split at h
  · cases h
  · rename_i header hheader
    have hne : cs.dropWhile isTagNameChar ≠ [] := by
      intro hnil
      rw [hnil] at hheader
      exact Header.readFrom_nil_ne_ok hheader
    obtain ⟨htake, hdrop⟩ := takeWhile_append_of_dropWhile_ne_nil cs hne more
    obtain ⟨opening, rest, hopens⟩ := Header.exists_opens hsize hheader
    have hresume : resume (before ++ '<' :: (cs ++ more)) header.stop = rest ++ more := by
      rw [hopens.stop, ← List.cons_append, hopens.text_eq, List.append_assoc opening,
        ← List.append_assoc before, resume_append]
    have hheader' := Header.readFrom_append hheader more
    rw [hopens.resume_eq] at h
    simp only [read, htake, hdrop, Header.read, hheader', hresume]
    split at h
    · rename_i hself
      cases h
      simp [hself]
    · rename_i hself
      split at h
      · cases h
      · rename_i closed hclosed
        cases h
        simp [hself, findClose_append hlt hclosed more]

theorem afterComment_append {comment : List Char} (h : afterComment cs = some (comment, rest))
    (more : List Char) : afterComment (cs ++ more) = some (comment, rest ++ more) := by
  fun_induction afterComment cs generalizing comment rest with
  | case1 => cases h
  | case2 rest =>
    cases h
    rw [List.cons_append, List.cons_append, List.cons_append, afterComment]
  | case3 c cs hnot ih =>
    obtain ⟨⟨later, rest'⟩, hlater, heq⟩ := Option.map_eq_some_iff.1 h
    cases heq
    have hnot' : ∀ after, c = '-' → cs ++ more = '-' :: '>' :: after → False := by
      intro after hc hcs
      -- a `-->` that starts in the text ends in it, since a later one was found
      obtain ⟨happend, inner, hinner, -⟩ := afterComment_eq_append hlater
      rw [happend, hinner] at hcs
      cases inner with
      | nil => simp at hcs
      | cons d inner =>
        cases inner with
        | nil => simp at hcs
        | cons d' inner =>
          simp only [List.cons_append, List.cons.injEq] at hcs
          obtain ⟨rfl, rfl, -⟩ := hcs
          exact hnot (inner ++ ['-', '-', '>'] ++ rest') hc (by simp [happend, hinner])
    rw [List.cons_append, afterComment.eq_3 _ _ hnot', ih hlater]
    rfl

/-! ## Scans -/

/-- Where the last of the spans ends, or `offset` when there are none. -/
def lastStop (offset : Nat) (passed : List Span) : Nat :=
  (passed.getLast?.map Span.stop).getD offset

/-- `after` is what follows the last block or comment of the file. -/
def Trails (source : String) (after : List Char) : Prop :=
  ∃ before passed, source.toList = before ++ after ∧
    Scan [] source.toList passed (split source) ∧ byteLength before = lastStop 0 passed

/-- No `<` stands behind the last of the spans that are passed over. -/
def EndsPlain (offset : Nat) (cs : List Char) (passed : List Span) : Prop :=
  ∀ before after, cs = before ++ after →
    offset + byteLength before = lastStop offset passed → '<' ∉ after

theorem lastStop_cons (offset : Nat) (p : Span) (passed : List Span) :
    lastStop offset (p :: passed) = lastStop p.stop passed := by
  rw [lastStop, List.getLast?_cons]
  cases h : passed.getLast? <;> simp [lastStop, h]

theorem byteLength_eq_zero (h : byteLength cs = 0) : cs = [] := by
  cases cs with
  | nil => rfl
  | cons c cs =>
    have hpos := c.utf8Size_pos
    rw [byteLength_cons] at h
    omega

theorem EndsPlain.skip (skipped : List Char) {passed : List Span}
    (h : EndsPlain offset (skipped ++ rest) passed) :
    EndsPlain (offset + byteLength skipped) rest passed := by
  intro before after hrest hstop
  cases passed with
  | nil =>
    have hbefore : before = [] := byteLength_eq_zero (by simpa [lastStop] using hstop)
    subst hbefore
    have hall := h [] (skipped ++ rest) rfl (by simp [lastStop])
    rw [hrest] at hall
    exact fun hmem => hall (by simp [hmem])
  | cons p passed =>
    rw [lastStop_cons, ← lastStop_cons offset] at hstop
    refine h (skipped ++ before) after (by simp [hrest]) ?_
    rw [← hstop, byteLength_append, Nat.add_assoc]

theorem EndsPlain.pass (text : List Char) {p : Span} {passed : List Span}
    (h : EndsPlain offset (text ++ rest) (p :: passed))
    (hstop : p.stop = offset + byteLength text) : EndsPlain p.stop rest passed := by
  intro before after hrest hlast
  rw [← lastStop_cons offset] at hlast
  refine h (text ++ before) after (by simp [hrest]) ?_
  rw [← hlast, hstop, byteLength_append, Nat.add_assoc]

/-- A text that does not start with `opener` still does not when more follows, where a `<` comes
in between that `opener` is without. -/
theorem not_isPrefixOf_append {opener cs more : List Char} (h : opener.isPrefixOf cs = false)
    (hopener : '<' ∉ opener) (hnext : '<' ∈ cs ∨ more.head? = some '<') :
    opener.isPrefixOf (cs ++ more) = false := by
  refine Bool.eq_false_iff.2 fun hopens => ?_
  have hopens := List.isPrefixOf_iff_prefix.1 hopens
  rcases List.prefix_or_prefix_of_prefix hopens (List.prefix_append cs more) with
    hall | ⟨later, rfl⟩
  · rw [List.isPrefixOf_iff_prefix.2 hall] at h
    cases h
  · rw [List.mem_append, not_or] at hopener
    obtain ⟨rest, rfl⟩ := (List.prefix_append_right_inj cs).1 hopens
    cases later with
    | nil => simp [List.isPrefixOf_iff_prefix, Bool.eq_false_iff] at h
    | cons d later =>
      rcases hnext with hcs | hnext
      · exact hopener.1 hcs
      · cases hnext
        exact hopener.2 List.mem_cons_self

namespace Scan

variable {before : List Char} {passed : List Span} {s : Split}

/-- A text behind another one is scanned alike. -/
theorem shift (h : Scan before cs passed s) (earlier : List Char)
    (hsize : byteLength (earlier ++ (before ++ cs)) < Span.limit) :
    Scan (earlier ++ before) cs (passed.map (·.shift (byteLength earlier)))
      (s.place (·.shift (byteLength earlier))) := by
  have hoffset (before : List Char) :
      byteLength (earlier ++ before) = byteLength before + byteLength earlier := by
    rw [byteLength_append, Nat.add_comm]
  induction h with
  | done => exact .done
  | plain hc _ ih =>
    have hmore := ih (by simpa using hsize)
    rw [← List.append_assoc] at hmore
    exact .plain hc hmore
  | loose hcomment hname _ ih =>
    have hmore := ih (by simpa using hsize)
    rw [← List.append_assoc] at hmore
    exact .loose hcomment hname hmore
  | @comment before cs comment rest passed s hcomment hclosed _ ih =>
    have hall : earlier ++ (before ++ '<' :: cs) =
        earlier ++ (before ++ '<' :: comment ++ rest) := by
      simp [(afterComment_eq_append hclosed).1]
    rw [hall] at hsize
    have hmore := ih hsize
    rw [← List.append_assoc, byteLength_append, hoffset] at hsize
    have hspan : Span.shift ⟨byteLength before, byteLength (before ++ '<' :: comment)⟩
        (byteLength earlier) = ⟨byteLength (earlier ++ before),
          byteLength (earlier ++ before ++ '<' :: comment)⟩ := by
      have hle := byteLength_le_append before ('<' :: comment)
      rw [List.append_assoc, hoffset, hoffset]
      exact Span.ofOffsets_eq (Nat.add_le_add_right hle _)
        (Nat.lt_of_le_of_lt (Nat.le_add_right _ _) hsize)
    rw [List.map_cons, hspan]
    rw [← List.append_assoc] at hmore
    exact .comment hcomment hclosed hmore
  | @openComment before cs hcomment hopen =>
    have hfault := @Scan.openComment (earlier ++ before) cs hcomment hopen
    rw [hoffset, Nat.add_right_comm, ← Span.shift_ofOffsets] at hfault
    exact hfault
  | @block before cs text rest b passed s hname hread hcs hstop _ ih =>
    have hread' := read_shift earlier before cs hsize
    rw [hread, ← List.append_assoc, ← hoffset] at hread'
    have hall : earlier ++ (before ++ '<' :: cs) = earlier ++ (before ++ '<' :: text ++ rest) := by
      simp [hcs]
    rw [hall] at hsize
    have hmore := ih hsize
    rw [← List.append_assoc] at hsize hmore
    refine .block hname hread' hcs ?_ hmore
    show (b.span.stop + byteLength earlier) % Span.limit = _
    rw [hstop, ← hoffset, Nat.mod_eq_of_lt (Nat.lt_of_le_of_lt (byteLength_le_append _ _) hsize),
      List.append_assoc]
  | @fault before cs e hname hread =>
    have hread' := read_shift earlier before cs hsize
    rw [hread, ← List.append_assoc, ← hoffset] at hread'
    exact .fault hname hread'

/-- Whatever is passed over starts with a `<`. -/
theorem lt_mem (h : Scan before cs passed s) (hne : passed ≠ []) : '<' ∈ cs := by
  induction h with
  | done => exact absurd rfl hne
  | plain _ _ ih => exact List.mem_cons_of_mem _ (ih hne)
  | _ => exact List.mem_cons_self

/-- Where a text ends in plain text or the next one starts with a `<`, a scan goes on in what
follows. -/
theorem append (h : Scan before cs passed s) (hsize : byteLength (before ++ cs) < Span.limit)
    (herrors : s.errors = []) {more : List Char}
    (hnext : EndsPlain (byteLength before) cs passed ∨ more.head? = some '<')
    {passed' : List Span} {s' : Split} (h' : Scan (before ++ cs) more passed' s') :
    Scan before (cs ++ more) (passed ++ passed') ⟨s.blocks ++ s'.blocks, s'.errors⟩ := by
  induction h with
  | done => simpa using h'
  | @plain before c cs passed s hc _ ih =>
    refine .plain hc (ih (by simpa using hsize) herrors (hnext.imp_left fun hplain => ?_) ?_)
    · rw [byteLength_append]
      exact EndsPlain.skip [c] hplain
    · simpa using h'
  | @loose before cs passed s hcomment hname hscan ih =>
    -- the next `<` keeps what follows out of sight
    have hlt : '<' ∈ cs ∨ more.head? = some '<' := by
      refine hnext.imp_left fun hplain => hscan.lt_mem ?_
      rintro rfl
      exact hplain [] ('<' :: cs) rfl (by simp [lastStop]) List.mem_cons_self
    refine .loose (not_isPrefixOf_append hcomment (by decide) hlt) ?_
      (ih (by simpa using hsize) herrors (hnext.imp_left fun hplain => ?_) ?_)
    · cases cs with
      | nil =>
        show more.head?.any startsTagName = false
        rw [hlt.resolve_left List.not_mem_nil]
        rfl
      | cons d cs => exact hname
    · rw [byteLength_append]
      exact EndsPlain.skip ['<'] hplain
    · simpa using h'
  | @comment before cs comment rest passed s hcomment hclosed _ ih =>
    obtain rfl := (afterComment_eq_append hclosed).1
    refine .comment ?_ (afterComment_append hclosed more)
      (ih (by simpa using hsize) herrors (hnext.imp_left fun hplain => ?_) (by simpa using h'))
    · have hopens := List.isPrefixOf_iff_prefix.1 hcomment
      exact List.isPrefixOf_iff_prefix.2 (hopens.trans (List.prefix_append _ more))
    · exact EndsPlain.pass ('<' :: comment) hplain (byteLength_append _ _)
  | openComment => cases herrors
  | @block before cs text rest b passed s hname hread hcs hstop _ ih =>
    have hread' := read_append hsize hread more
    subst hcs
    refine .block ?_ hread' (List.append_assoc _ _ _) hstop
      (ih (by simpa using hsize) herrors (hnext.imp_left fun hplain => ?_) (by simpa using h'))
    · cases htext : text ++ rest with
      | nil =>
        rw [htext] at hname
        cases hname
      | cons d cs => simpa [htext] using hname
    · rw [byteLength_append] at hstop
      rw [byteLength_append, ← hstop]
      exact EndsPlain.pass ('<' :: text) hplain hstop
  | fault => cases herrors

end Scan

/-! ## Files -/

/-- Every file that is short enough has such an end. -/
theorem exists_trails {source : String} (hsize : byteLength source.toList < Span.limit) :
    ∃ after, Trails source after := by
  obtain ⟨passed, hscan⟩ := split_scan hsize
  cases hlast : passed.getLast? with
  | none => exact ⟨source.toList, [], passed, rfl, hscan, by simp [lastStop, hlast]⟩
  | some p =>
    obtain ⟨hlaid, hpassed⟩ := hscan.laidOut hsize
    obtain ⟨text, before, after, hsource, hp⟩ : ∃ text, p.Covers source.toList text := by
      rcases hpassed p (List.mem_of_getLast? hlast) with ⟨b, hb, rfl⟩ | ⟨text, hcovers, -⟩
      · obtain ⟨earlier, opening, closing, after, hsource, hlaid⟩ := hlaid b hb
        exact ⟨_, hlaid.span_covers hsource⟩
      · exact ⟨text, hcovers⟩
    exact ⟨after, before ++ text, passed, hsource, hscan, by simp [lastStop, hlast, hp]⟩

theorem splitFrom_errors_length (source : List Char) (steps offset : Nat) (cs : List Char) :
    (splitFrom source steps offset cs).errors.length ≤ 1 := by
  fun_induction splitFrom source steps offset cs with
  | case1 | case2 | case4 | case5 => simp
  | case3 _ _ _ _ _ _ _ ih => exact ih
  | case6 _ _ _ _ _ _ _ _ _ ih => exact ih
  | case7 _ _ _ _ _ ih => exact ih
  | case8 _ _ _ _ _ ih => exact ih

/-- A file that ends in plain text, without a fault, can be split by itself: what follows it adds
its own blocks, and its own faults, at their places. Every file has at most one fault, and the
blocks of a file that is short enough stand before it. -/
theorem split_local (a b source : String) :
    (byteLength (a ++ b).toList < Span.limit → (split a).errors = [] →
      (∃ after, Trails a after ∧ '<' ∉ after) →
      split (a ++ b) =
        ⟨(split a).blocks ++ (split b).blocks.map (place (·.shift (byteLength a.toList))),
          (split b).errors.map (BlockError.place (·.shift (byteLength a.toList)))⟩) ∧
      (split source).errors.length ≤ 1 ∧
      (byteLength source.toList < Span.limit → ∀ e ∈ (split source).errors,
        ∀ block ∈ (split source).blocks, block.span.stop ≤ e.span.start) := by
  refine ⟨?_, splitFrom_errors_length _ _ _ _, fun hsize e he block hblock => ?_⟩
  · rintro hsize herrors ⟨after, ⟨before, passed, ha, hscan, hlast⟩, hafter⟩
    rw [String.toList_append] at hsize
    have hplain : EndsPlain 0 a.toList passed := by
      intro before' after' ha' hlast'
      rw [Nat.zero_add, ← hlast] at hlast'
      rwa [← resume_append before' after', hlast', ← ha', ha, resume_append]
    rw [byteLength_append] at hsize
    obtain ⟨passed', hb⟩ := @split_scan b (by omega)
    have hshift := hb.shift a.toList (by simpa using hsize)
    rw [List.append_nil] at hshift
    have happend := hscan.append (by simpa using by omega) herrors (.inl hplain) hshift
    rw [← String.toList_append] at happend
    exact happend.split_eq
  · obtain ⟨passed, hscan⟩ := split_scan hsize
    obtain ⟨-, hpassed, -⟩ := hscan.fault_behind hsize he
    exact hpassed block.span (hscan.blocks_sublist.subset (List.mem_map_of_mem hblock))

/-- The first text ends in a plain `z`, behind its last block. -/
theorem trails_plain_text : Trails "< <!--<b>--> <t></t >z" ['z'] := by
  have hblock := @Scan.block "< <!--<b>--> ".toList "t></t >z".toList "t></t >".toList ['z']
    ⟨"t", ⟨13, 21⟩, ⟨16, 16⟩, "", []⟩ _ _ (by decide) (eq_ok_of_toOption (by decide +kernel))
    (by decide) (by decide +kernel) (.plain (by decide) .done)
  have hcomment := @Scan.comment ['<', ' '] "!--<b>--> <t></t >z".toList "!--<b>-->".toList
    " <t></t >z".toList _ _ (by decide) (by decide) (.plain (by decide) hblock)
  have hscan : Scan [] "< <!--<b>--> <t></t >z".toList _ _ :=
    .loose rfl rfl (.plain (by decide) hcomment)
  exact ⟨"< <!--<b>--> <t></t >".toList, _, by decide, hscan.split_eq ▸ hscan, by decide +kernel⟩

/-- The second text starts in the middle of a line, and its fault is that of its own tag. -/
theorem split_behind_plain_text :
    split ("< <!--<b>--> <t></t >z" ++ "<s a=1/><u") =
      ⟨(split "< <!--<b>--> <t></t >z").blocks ++
          (split "<s a=1/><u").blocks.map
            (place (·.shift (byteLength "< <!--<b>--> <t></t >z".toList))),
        (split "<s a=1/><u").errors.map
          (BlockError.place (·.shift (byteLength "< <!--<b>--> <t></t >z".toList)))⟩ :=
  (split_local "< <!--<b>--> <t></t >z" "<s a=1/><u" "").1 (by decide +kernel)
    (by decide +kernel) ⟨_, trails_plain_text, by decide⟩

/-- In a file that is too long the fault can stand in a block. -/
theorem overlong_fault_in_block : ¬ ∀ e ∈ (split overlong).errors,
    ∀ block ∈ (split overlong).blocks, block.span.stop ≤ e.span.start := by
  rw [split_overlong]
  intro h
  exact absurd (h _ (List.mem_singleton_self _) _ (List.mem_singleton_self _)) (by decide)

end Block

end ScriptSetup
