import Mathlib.Data.List.Pairwise
import ScriptSetup.Proofs.Block.Content
import ScriptSetup.Proofs.Block.TagReading

/-!
# Where blocks stand

A scan goes over a text once, from left to right. `Scan` says what it can meet, one rule for each
case, together with the spans that it passes over as a whole: comments and blocks. A text of fewer
than `Span.limit` bytes has such a scan, since the offsets that are kept are the right ones, and
splitting gives its answer. Everything about places follows from these rules by induction.

`split_places` is the result for a whole file: each block covers its tags and its content, blocks
follow each other, and no opening tag is missed outside of comments.
-/

set_option autoImplicit false

namespace ScriptSetup.Block

open Text

/-! ## Names of tags -/

variable {c : Char} {cs : List Char}

theorem not_mem_of_name_chars {name : List Char} (hname : ∀ d ∈ name, isTagNameChar d = true)
    (hc : isTagNameChar c = false) : c ∉ name := by
  intro hmem
  rw [hname c hmem] at hc
  cases hc

theorem isTagNameChar_of_startsTagName (h : startsTagName c = true) : isTagNameChar c = true := by
  -- no character that ends a name is a letter
  have hne : ∀ d, startsTagName d = false → c ≠ d := by
    rintro d hd rfl
    rw [h] at hd
    cases hd
  simp [isTagNameChar, isTagBlank, hne ' ' (by decide), hne '\t' (by decide),
    hne '\r' (by decide), hne '\n' (by decide), hne '\x0c' (by decide), hne '"' (by decide),
    hne '\'' (by decide), hne '<' (by decide), hne '>' (by decide), hne '=' (by decide),
    hne '/' (by decide)]

theorem takeWhile_starts (h : cs.head?.any startsTagName = true) :
    (cs.takeWhile isTagNameChar).head?.any startsTagName = true := by
  cases cs with
  | nil => simp at h
  | cons c cs =>
    have hc : startsTagName c = true := by simpa using h
    rw [List.takeWhile_cons_of_pos (isTagNameChar_of_startsTagName hc)]
    exact h

/-- The name of a tag does not open a comment. -/
theorem not_comment_of_name (hstart : cs.head?.any startsTagName = true) :
    ['!', '-', '-'].isPrefixOf cs = false := by
  cases cs with
  | nil => rfl
  | cons c cs =>
    have hc : '!' ≠ c := by
      rintro rfl
      have hletter : startsTagName '!' = true := by simpa using hstart
      exact absurd hletter (by decide)
    simp [List.isPrefixOf, hc]

/-! ## One block -/

@[simp] theorem utf8Size_lt : '<'.utf8Size = 1 := rfl

/-- A block that opens at `start` stands between its opening and its closing text. -/
structure LaidOut (b : Block) (start : Nat) (opening closing : List Char) : Prop where
  span : b.span = ⟨start, start + byteLength (opening ++ b.content.toList ++ closing)⟩
  contentSpan : b.contentSpan =
    ⟨start + byteLength opening, start + byteLength (opening ++ b.content.toList)⟩
  opens : ∃ inner, opening = '<' :: b.name.toList ++ inner ++ ['>']
  closes : (closing = [] ∧ b.content = "" ∧
      ∃ inner, opening = '<' :: b.name.toList ++ inner ++ ['/', '>']) ∨
    ∃ inner, closing = '<' :: '/' :: b.name.toList ++ inner ++ ['>'] ∧ '>' ∉ inner ∧
      endsTagName (inner ++ ['>']) = true
  attributes : ∀ a ∈ b.attributes, a.At start opening
  content_free : b.name.toList ≠ nestingTag →
    holdsCloseTag b.name.toList b.content.toList = false

theorem Attribute.At.prepend {a : Attribute} {offset : Nat} {before text : List Char}
    (h : a.At (offset + byteLength before) text) : a.At offset (before ++ text) := by
  obtain ⟨earlier, own, after, rfl, hname, hspan⟩ := h
  exact ⟨before ++ earlier, own, after, by simp, hname, by simp [hspan, Nat.add_assoc]⟩

theorem endsTagName_append_cons (inner : List Char) (c : Char) (rest : List Char) :
    endsTagName (inner ++ c :: rest) = endsTagName (inner ++ [c]) := by
  cases inner <;> rfl

/-- The closing tag that ends a search goes from `</` and the name to the first `>`. -/
theorem closeHere_tag {name cs : List Char} {r : Closed} (hname : '>' ∉ name)
    (htag : atTag ('<' :: '/' :: name) cs = true) (h : closeHere cs = some r) :
    ∃ inner, r.tag = '<' :: '/' :: name ++ inner ++ ['>'] ∧ '>' ∉ inner ∧
      endsTagName (inner ++ ['>']) = true := by
  obtain ⟨after, rfl, hends⟩ := atTag_iff.1 htag
  have hne : ∀ c ∈ '<' :: '/' :: name, (c != '>') = true := by
    intro c hc
    have hc' : c ≠ '>' := by
      rintro rfl
      simp [hname] at hc
    simpa using hc'
  unfold closeHere at h
  rw [List.dropWhile_append_of_pos hne, List.takeWhile_append_of_pos hne] at h
  split at h
  · cases h
  · rename_i c rest hdrop
    have hc : c = '>' := by
      have hhead := List.head?_dropWhile_not (· != '>') after
      rw [hdrop] at hhead
      simpa using hhead
    subst hc
    cases h
    refine ⟨after.takeWhile (· != '>'), rfl,
      fun hmem => by simpa using List.all_eq_true.1 List.all_takeWhile _ hmem, ?_⟩
    have hafter := List.takeWhile_append_dropWhile (p := (· != '>')) (l := after)
    rw [hdrop] at hafter
    rw [← endsTagName_append_cons _ _ rest, hafter]
    exact hends

theorem findClose_tag {name : List Char} (hname : '>' ∉ name) {nested : Bool}
    {state : CloseSearch} {cs : List Char} {r : Closed}
    (h : findClose name nested state cs = some r) :
    ∃ inner, r.tag = '<' :: '/' :: name ++ inner ++ ['>'] ∧ '>' ∉ inner ∧
      endsTagName (inner ++ ['>']) = true := by
  induction cs generalizing state r with
  | nil => simp [findClose] at h
  | cons c cs ih =>
    rcases findClose_cons_eq_some h with ⟨next, inner, -, hinner, rfl⟩ | ⟨-, htag, h⟩
    · exact ih (r := inner) hinner
    · exact closeHere_tag hname htag h

/-- What stands at the end of a text comes next there. -/
theorem resume_append (before after : List Char) :
    resume (before ++ after) (byteLength before) = after := by
  rw [resume, dropBytes_append]
  rfl

/-- The opening tag of a block, from its `<` on. -/
structure Header.Opens (h : Header) (before cs opening rest : List Char) : Prop where
  text_eq : '<' :: cs = opening ++ rest
  stop : h.stop = byteLength (before ++ opening)
  resume_eq : resume (before ++ '<' :: cs) h.stop = rest
  ends : ∃ inner, opening = '<' :: cs.takeWhile isTagNameChar ++ inner ++
    if h.selfClosing then ['/', '>'] else ['>']
  attributes : ∀ a ∈ h.attributes, a.At (byteLength before) opening

theorem Header.exists_opens {before : List Char} {name : String} {header : Header}
    (hsize : byteLength (before ++ '<' :: cs) < Span.limit)
    (h : Header.read (byteLength before) name
      (byteLength before + 1 + byteLength (cs.takeWhile isTagNameChar))
      (cs.dropWhile isTagNameChar) = .ok header) :
    ∃ opening rest, header.Opens before cs opening rest := by
  have hcs := List.takeWhile_append_dropWhile (p := isTagNameChar) (l := cs)
  have hoffset : byteLength before + 1 + byteLength (cs.takeWhile isTagNameChar) =
      byteLength before + byteLength ('<' :: cs.takeWhile isTagNameChar) := Nat.add_assoc _ _ _
  obtain ⟨text, rest, htext, hat⟩ := Header.read_at h
  have hall : '<' :: cs = ('<' :: cs.takeWhile isTagNameChar ++ text) ++ rest := by
    rw [List.append_assoc, ← htext, List.cons_append, hcs]
  have hwhole : before ++ '<' :: cs =
      before ++ ('<' :: cs.takeWhile isTagNameChar ++ text) ++ rest := by
    rw [List.append_assoc, ← hall]
  have hstop :
      header.stop = byteLength (before ++ ('<' :: cs.takeWhile isTagNameChar ++ text)) := by
    rw [hwhole, byteLength_append] at hsize
    rw [hat.stop, hoffset, Nat.add_assoc, ← byteLength_append, ← byteLength_append,
      Nat.mod_eq_of_lt (Nat.lt_of_le_of_lt (Nat.le_add_right _ _) hsize)]
  obtain ⟨inner, hinner⟩ := hat.ends
  refine ⟨_, rest, hall, hstop, ?_, ⟨inner, ?_⟩, fun a ha => ?_⟩
  · rw [hwhole, hstop, resume_append]
  · rw [hinner, ← List.append_assoc]
  · exact (hoffset ▸ hat.attributes a ha).prepend

/-- A block that is read is laid out from the `<` of its tag on. -/
theorem read_laidOut {before : List Char} {b : Block}
    (hsize : byteLength (before ++ '<' :: cs) < Span.limit)
    (h : read (before ++ '<' :: cs) (byteLength before) cs = .ok b) :
    ∃ opening closing rest, '<' :: cs = opening ++ b.content.toList ++ closing ++ rest ∧
      b.LaidOut (byteLength before) opening closing := by
  have hchars : ∀ c ∈ cs.takeWhile isTagNameChar, isTagNameChar c = true :=
    List.all_eq_true.1 List.all_takeWhile
  have hlt := not_mem_of_name_chars hchars (c := '<') (by decide)
  have hgt := not_mem_of_name_chars hchars (c := '>') (by decide)
  simp only [read] at h
  split at h
  · cases h
  · rename_i header hheader
    obtain ⟨opening, rest, hopens⟩ := Header.exists_opens hsize hheader
    obtain ⟨inner, hinner⟩ := hopens.ends
    have hall := hopens.text_eq
    -- every offset of the block is at most the length of the source
    have hoffsets {start stop : Nat} (hle : start ≤ stop)
        (hstop : stop ≤ byteLength before + byteLength ('<' :: cs)) :
        Span.ofOffsets start stop = ⟨start, stop⟩ := by
      rw [byteLength_append] at hsize
      exact Span.ofOffsets_eq hle (Nat.lt_of_le_of_lt hstop hsize)
    rw [hopens.stop, byteLength_append] at h
    split at h
    · rename_i hself
      cases h
      rw [hself] at hinner
      have hopening : byteLength before + byteLength opening ≤
          byteLength before + byteLength ('<' :: cs) := by
        rw [hall, byteLength_append]
        omega
      refine ⟨opening, [], rest, by simpa using hall, ?_, ?_, ?_, ?_, hopens.attributes, ?_⟩
      · rw [hoffsets (Nat.le_add_right _ _) hopening]
        simp
      · rw [hoffsets (Nat.le_refl _) hopening]
        simp
      · exact ⟨inner ++ ['/'], by simp [hinner]⟩
      · exact Or.inl ⟨rfl, rfl, inner, by simp [hinner]⟩
      · exact fun _ => rfl
    · rename_i hself
      rw [← byteLength_append, ← hopens.stop, hopens.resume_eq, hopens.stop, byteLength_append] at h
      split at h
      · cases h
      · rename_i closed hclosed
        cases h
        obtain ⟨tag, hrest, htag⟩ := findClose_eq_append hclosed
        simp only [hself, Bool.false_eq_true, if_false] at hinner
        have hbehind : byteLength before + byteLength opening + byteLength closed.content +
            byteLength closed.tag ≤ byteLength before + byteLength ('<' :: cs) := by
          rw [hall, hrest, htag]
          simp only [byteLength_append]
          omega
        refine ⟨opening, closed.tag, closed.rest, ?_, ?_, ?_, ?_, ?_, hopens.attributes, ?_⟩
        · rw [hall, hrest, htag]
          simp
        · rw [hoffsets (by omega) hbehind]
          simp [Nat.add_assoc]
        · rw [hoffsets (Nat.le_add_right _ _) (by omega)]
          simp [Nat.add_assoc]
        · exact ⟨inner, by simp [hinner]⟩
        · obtain ⟨gap, hgap⟩ := findClose_tag hgt hclosed
          exact Or.inr ⟨gap, by simpa using hgap⟩
        · intro hname
          have hnested : (cs.takeWhile isTagNameChar == nestingTag) = false := by
            simpa using hname
          rw [hnested] at hclosed
          simpa using not_holdsCloseTag_of_findClose hlt hclosed

/-- A fault in a block is inside the text, from the `<` of the block on. -/
theorem read_error {before : List Char} {e : BlockError}
    (hsize : byteLength (before ++ '<' :: cs) < Span.limit)
    (h : read (before ++ '<' :: cs) (byteLength before) cs = .error e) :
    byteLength before ≤ e.span.start ∧ ∃ text, e.span.Covers (before ++ '<' :: cs) text := by
  have hcs := List.takeWhile_append_dropWhile (p := isTagNameChar) (l := cs)
  have hoffset : byteLength before + 1 + byteLength (cs.takeWhile isTagNameChar) =
      byteLength (before ++ '<' :: cs.takeWhile isTagNameChar) := by
    rw [byteLength_append, byteLength_cons, Nat.add_assoc]
    rfl
  have htext : before ++ '<' :: cs.takeWhile isTagNameChar ++ cs.dropWhile isTagNameChar =
      before ++ '<' :: cs := by
    simp [hcs]
  simp only [read] at h
  split at h
  · rename_i e' he
    cases h
    rw [hoffset] at he
    exact htext ▸ Header.readFrom_error ('<' :: cs.takeWhile isTagNameChar) (htext ▸ hsize) he
  · rename_i header hheader
    split at h
    · cases h
    · split at h
      · cases h
        obtain ⟨opening, rest, hopens⟩ := Header.exists_opens hsize hheader
        have hall : before ++ '<' :: cs = before ++ opening ++ rest := by
          rw [hopens.text_eq, List.append_assoc]
        have hle : byteLength before ≤ byteLength (before ++ opening) := by
          rw [byteLength_append]
          exact Nat.le_add_right _ _
        have hlt : byteLength (before ++ opening) < Span.limit := by
          rw [hall, byteLength_append] at hsize
          exact Nat.lt_of_le_of_lt (Nat.le_add_right _ _) hsize
        rw [hopens.stop, Span.ofOffsets_eq hle hlt]
        exact ⟨Nat.le_refl _, opening, before, rest, hall, by rw [byteLength_append]⟩
      · cases h

/-! ## What is passed over -/

/-- A closed comment, from `<!--` to the first `-->`. -/
def IsComment (text : List Char) : Prop :=
  ['<', '!', '-', '-'] <+: text ∧
    ∃ inner, text = inner ++ ['-', '-', '>'] ∧ ¬ ['-', '-', '>'] <:+: inner

theorem afterComment_eq_append {cs comment rest : List Char}
    (h : afterComment cs = some (comment, rest)) :
    cs = comment ++ rest ∧
      ∃ inner, comment = inner ++ ['-', '-', '>'] ∧ ¬ ['-', '-', '>'] <:+: inner := by
  fun_induction afterComment cs generalizing comment rest with
  | case1 => cases h
  | case2 rest =>
    cases h
    exact ⟨rfl, [], rfl, by simp⟩
  | case3 c cs hnot ih =>
    obtain ⟨⟨later, rest'⟩, hlater, heq⟩ := Option.map_eq_some_iff.1 h
    cases heq
    obtain ⟨hcs, inner, hinner, hfree⟩ := ih hlater
    refine ⟨by simp [hcs], c :: inner, by simp [hinner], fun hwithin => ?_⟩
    rcases List.infix_cons_iff.1 hwithin with ⟨more, hmore⟩ | hwithin
    · -- a `-->` at the front would have been taken
      obtain ⟨hc, hmore⟩ := List.cons.inj hmore
      refine hnot (more ++ ['-', '-', '>'] ++ rest') hc.symm ?_
      rw [hcs, hinner, ← hmore]
      simp
    · exact hfree hwithin

theorem isComment_of_afterComment {cs comment rest : List Char}
    (hopen : ['!', '-', '-'].isPrefixOf cs = true)
    (h : afterComment cs = some (comment, rest)) : IsComment ('<' :: comment) := by
  obtain ⟨hcs, inner, rfl, hfree⟩ := afterComment_eq_append h
  have hcomment : ['!', '-', '-'] <+: inner ++ ['-', '-', '>'] := by
    have hlength : ['!', '-', '-'].length ≤ (inner ++ ['-', '-', '>']).length := by simp
    rw [List.isPrefixOf_iff_prefix, hcs] at hopen
    exact List.prefix_of_prefix_length_le hopen (List.prefix_append _ _) hlength
  refine ⟨List.cons_prefix_cons.2 ⟨rfl, hcomment⟩, '<' :: inner, rfl, fun hwithin => ?_⟩
  rcases List.infix_cons_iff.1 hwithin with hstarts | hwithin
  · exact absurd (List.cons_prefix_cons.1 hstarts).1 (by decide)
  · exact hfree hwithin

/-- A place in a text is behind its first part, or inside of it. -/
theorem behind_or_inside (text : List Char) {rest mid after : List Char} {c : Char}
    (h : text ++ rest = mid ++ c :: after) :
    (∃ later, mid = text ++ later ∧ rest = later ++ c :: after) ∨
      byteLength mid < byteLength text := by
  rcases List.append_eq_append_iff.1 h with ⟨later, hmid, hrest⟩ | ⟨inside, htext, hafter⟩
  · exact Or.inl ⟨later, hmid, hrest⟩
  · cases inside with
    | nil => exact Or.inl ⟨[], by simpa using htext.symm, by simpa using hafter.symm⟩
    | cons d inside =>
      have hpos := d.utf8Size_pos
      refine Or.inr ?_
      rw [htext, byteLength_append, byteLength_cons]
      omega

/-! ## The scan of a text -/

/-- What a scan meets in a text behind `before`, what it passes over and what it answers. -/
inductive Scan : List Char → List Char → List Span → Split → Prop where
  /-- the end of the text -/
  | done {before : List Char} : Scan before [] [] ⟨[], []⟩
  /-- a character that opens nothing -/
  | plain {before : List Char} {c : Char} {cs : List Char} {passed : List Span} {s : Split}
      (hc : c ≠ '<') (more : Scan (before ++ [c]) cs passed s) : Scan before (c :: cs) passed s
  /-- a `<` that opens nothing -/
  | loose {before cs : List Char} {passed : List Span} {s : Split}
      (hcomment : ['!', '-', '-'].isPrefixOf cs = false)
      (hname : cs.head?.any startsTagName = false) (more : Scan (before ++ ['<']) cs passed s) :
      Scan before ('<' :: cs) passed s
  /-- a comment -/
  | comment {before cs comment rest : List Char} {passed : List Span} {s : Split}
      (hcomment : ['!', '-', '-'].isPrefixOf cs = true)
      (hclosed : afterComment cs = some (comment, rest))
      (more : Scan (before ++ '<' :: comment) rest passed s) :
      Scan before ('<' :: cs)
        (⟨byteLength before, byteLength (before ++ '<' :: comment)⟩ :: passed) s
  /-- a comment that is never closed -/
  | openComment {before cs : List Char} (hcomment : ['!', '-', '-'].isPrefixOf cs = true)
      (hopen : afterComment cs = none) :
      Scan before ('<' :: cs) [] ⟨[], [⟨.unterminatedComment,
        .ofOffsets (byteLength before) (byteLength before + 4)⟩]⟩
  /-- a block -/
  | block {before cs text rest : List Char} {b : Block} {passed : List Span} {s : Split}
      (hname : cs.head?.any startsTagName = true)
      (hread : read (before ++ '<' :: cs) (byteLength before) cs = .ok b)
      (hcs : cs = text ++ rest) (hstop : b.span.stop = byteLength (before ++ '<' :: text))
      (more : Scan (before ++ '<' :: text) rest passed s) :
      Scan before ('<' :: cs) (b.span :: passed) ⟨b :: s.blocks, s.errors⟩
  /-- a block with a fault -/
  | fault {before cs : List Char} {e : BlockError} (hname : cs.head?.any startsTagName = true)
      (hread : read (before ++ '<' :: cs) (byteLength before) cs = .error e) :
      Scan before ('<' :: cs) [] ⟨[], [e]⟩

/-- A text of fewer than `Span.limit` bytes is scanned to its end or to a fault. -/
theorem exists_scan (before cs : List Char) (hsize : byteLength (before ++ cs) < Span.limit) :
    ∃ passed s, Scan before cs passed s := by
  match cs with
  | [] => exact ⟨_, _, .done⟩
  | c :: cs =>
    by_cases hc : c = '<'
    · subst hc
      cases hcomment : ['!', '-', '-'].isPrefixOf cs with
      | true =>
        match hclosed : afterComment cs with
        | none => exact ⟨_, _, .openComment hcomment hclosed⟩
        | some (comment, rest) =>
          have hcs := (afterComment_eq_append hclosed).1
          have hlength : rest.length < cs.length + 1 := by grind
          obtain ⟨passed, s, hmore⟩ :=
            exists_scan (before ++ '<' :: comment) rest (by simpa [hcs] using hsize)
          exact ⟨_, _, .comment hcomment hclosed hmore⟩
      | false =>
        cases hname : cs.head?.any startsTagName with
        | false =>
          obtain ⟨passed, s, hmore⟩ := exists_scan (before ++ ['<']) cs (by simpa using hsize)
          exact ⟨_, _, .loose hcomment hname hmore⟩
        | true =>
          match hread : read (before ++ '<' :: cs) (byteLength before) cs with
          | .error e => exact ⟨_, _, .fault hname hread⟩
          | .ok b =>
            obtain ⟨opening, closing, rest, hall, hlaid⟩ := read_laidOut hsize hread
            obtain ⟨inner, hinner⟩ := hlaid.opens
            obtain ⟨text, htext⟩ : ∃ text, opening ++ b.content.toList ++ closing = '<' :: text :=
              ⟨_, by rw [hinner]; rfl⟩
            rw [htext] at hall
            have hcs : cs = text ++ rest := (List.cons.inj hall).2
            have hlength : rest.length < cs.length + 1 := by grind
            obtain ⟨passed, s, hmore⟩ :=
              exists_scan (before ++ '<' :: text) rest (by simpa [hcs] using hsize)
            refine ⟨_, _, .block hname hread hcs ?_ hmore⟩
            rw [hlaid.span, htext, byteLength_append]
    · obtain ⟨passed, s, hmore⟩ := exists_scan (before ++ [c]) cs (by simpa using hsize)
      exact ⟨_, _, .plain hc hmore⟩
termination_by cs.length

/-- A block stands in the text up to where its span ends. -/
theorem read_laidOut_upTo {before text rest : List Char} {b : Block}
    (hsize : byteLength (before ++ '<' :: cs) < Span.limit)
    (hread : read (before ++ '<' :: cs) (byteLength before) cs = .ok b)
    (hcs : cs = text ++ rest) (hstop : b.span.stop = byteLength (before ++ '<' :: text)) :
    ∃ opening closing, '<' :: text = opening ++ b.content.toList ++ closing ∧
      b.LaidOut (byteLength before) opening closing := by
  obtain ⟨opening, closing, after, hall, hlaid⟩ := read_laidOut hsize hread
  refine ⟨opening, closing, ?_, hlaid⟩
  have htext : '<' :: cs = '<' :: text ++ rest := by rw [hcs]; rfl
  have hafter : rest = after := by
    rw [← resume_append (before ++ '<' :: text) rest, ← hstop, List.append_assoc, ← htext, hall,
      hlaid.span, ← byteLength_append, ← List.append_assoc, resume_append]
  rw [htext, hafter] at hall
  exact List.append_cancel_right hall

theorem byteLength_le_append (before text : List Char) :
    byteLength before ≤ byteLength (before ++ text) := by
  rw [byteLength_append]
  exact Nat.le_add_right _ _

namespace Scan

variable {before : List Char} {passed : List Span} {s : Split}

/-- There is only one answer. -/
theorem splitFrom_eq (h : Scan before cs passed s) {steps : Nat} (hsteps : cs.length < steps) :
    splitFrom (before ++ cs) steps (byteLength before) cs = s := by
  induction h generalizing steps with
  | done => cases steps <;> rfl
  | @plain before c cs passed s hc _ ih =>
    obtain ⟨steps, rfl⟩ := Nat.exists_eq_add_of_lt hsteps
    have hmore := ih (Nat.lt_of_succ_lt_succ hsteps)
    rw [splitFrom, if_neg hc]
    simpa using hmore
  | @loose before cs passed s hcomment hname _ ih =>
    obtain ⟨steps, rfl⟩ := Nat.exists_eq_add_of_lt hsteps
    have hmore := ih (Nat.lt_of_succ_lt_succ hsteps)
    rw [splitFrom, if_pos rfl, hcomment, hname]
    simpa using hmore
  | @comment before cs comment rest passed s hcomment hclosed _ ih =>
    obtain ⟨steps, rfl⟩ := Nat.exists_eq_add_one.2 (Nat.zero_lt_of_lt hsteps)
    have hcs := (afterComment_eq_append hclosed).1
    have hmore := @ih steps (by grind)
    rw [splitFrom, if_pos rfl, hcomment, hclosed]
    simpa [hcs, Nat.add_assoc] using hmore
  | openComment hcomment hopen =>
    obtain ⟨steps, rfl⟩ := Nat.exists_eq_add_of_lt hsteps
    rw [splitFrom, if_pos rfl, hcomment, hopen]
    rfl
  | @block before cs text rest b passed s hname hread hcs hstop _ ih =>
    obtain ⟨steps, rfl⟩ := Nat.exists_eq_add_one.2 (Nat.zero_lt_of_lt hsteps)
    have hmore := @ih steps (by grind)
    have hwhole : before ++ '<' :: cs = before ++ '<' :: text ++ rest := by simp [hcs]
    rw [splitFrom, if_pos rfl, not_comment_of_name hname, hname, hread]
    simp only [Bool.false_eq_true, if_false, if_true]
    rw [hstop, hwhole, resume_append, hmore]
  | fault hname hread =>
    obtain ⟨steps, rfl⟩ := Nat.exists_eq_add_of_lt hsteps
    rw [splitFrom, if_pos rfl, not_comment_of_name hname, hname, hread]
    rfl

/-- A scan meets a tag as a block or as a fault. -/
theorem tag_cases (h : Scan before ('<' :: cs) passed s)
    (hname : cs.head?.any startsTagName = true) :
    (∃ b later, read (before ++ '<' :: cs) (byteLength before) cs = .ok b ∧ s.blocks = b :: later) ∨
      ∃ e, read (before ++ '<' :: cs) (byteLength before) cs = .error e ∧ s = ⟨[], [e]⟩ := by
  have hcomment := not_comment_of_name hname
  cases h with
  | plain hc => exact absurd rfl hc
  | loose _ hloose => simp [hname] at hloose
  | comment hopens | openComment hopens => simp [hcomment] at hopens
  | block _ hread => exact .inl ⟨_, _, hread, rfl⟩
  | fault _ hread => exact .inr ⟨_, hread, rfl⟩

/-- Every block is passed over as a whole. -/
theorem blocks_sublist (h : Scan before cs passed s) :
    (s.blocks.map Block.span).Sublist passed := by
  induction h with
  | done | openComment | fault => exact List.nil_sublist _
  | plain _ _ ih | loose _ _ _ ih => exact ih
  | comment _ _ _ ih => exact ih.cons _
  | block _ _ _ _ _ ih => exact ih.cons_cons _

/-- What is passed over lies from the start of the scan on, one behind the other. -/
theorem ordered (h : Scan before cs passed s) (hsize : byteLength (before ++ cs) < Span.limit) :
    (∀ p ∈ passed, byteLength before ≤ p.start) ∧
      passed.Pairwise fun p q => p.stop ≤ q.start := by
  induction h with
  | done | openComment | fault => exact ⟨by simp, List.Pairwise.nil⟩
  | plain _ _ ih | loose _ _ _ ih =>
    obtain ⟨hstarts, hpairs⟩ := ih (by simpa using hsize)
    exact ⟨fun p hp => Nat.le_trans (byteLength_le_append _ _) (hstarts p hp), hpairs⟩
  | comment _ hclosed _ ih =>
    obtain ⟨hstarts, hpairs⟩ :=
      ih (by simpa [(afterComment_eq_append hclosed).1] using hsize)
    exact ⟨List.forall_mem_cons.2 ⟨Nat.le_refl _, fun p hp =>
      Nat.le_trans (byteLength_le_append _ _) (hstarts p hp)⟩, List.Pairwise.cons hstarts hpairs⟩
  | block _ hread hcs hstop _ ih =>
    obtain ⟨opening, closing, -, hlaid⟩ := read_laidOut_upTo hsize hread hcs hstop
    obtain ⟨hstarts, hpairs⟩ := ih (by simpa [hcs] using hsize)
    refine ⟨List.forall_mem_cons.2 ⟨Nat.le_of_eq (by rw [hlaid.span]), fun p hp =>
      Nat.le_trans (byteLength_le_append _ _) (hstarts p hp)⟩, List.Pairwise.cons ?_ hpairs⟩
    rw [hstop]
    exact hstarts

/-- Every block is laid out in the text, and what is passed over is a block or a comment. -/
theorem laidOut (h : Scan before cs passed s) (hsize : byteLength (before ++ cs) < Span.limit) :
    (∀ b ∈ s.blocks, ∃ earlier opening closing after,
      before ++ cs = earlier ++ (opening ++ b.content.toList ++ closing) ++ after ∧
        b.LaidOut (byteLength earlier) opening closing) ∧
    ∀ p ∈ passed, (∃ b ∈ s.blocks, b.span = p) ∨
      ∃ text, p.Covers (before ++ cs) text ∧ IsComment text := by
  induction h with
  | done | openComment | fault => simp
  | plain _ _ ih | loose _ _ _ ih => simpa using ih (by simpa using hsize)
  | @comment before cs comment rest passed s hcomment hclosed _ ih =>
    have hall : before ++ '<' :: cs = before ++ '<' :: comment ++ rest := by
      simp [(afterComment_eq_append hclosed).1]
    rw [hall] at hsize ⊢
    obtain ⟨hblocks, hpassed⟩ := ih hsize
    refine ⟨hblocks, List.forall_mem_cons.2 ⟨Or.inr ⟨'<' :: comment, ⟨before, rest, rfl, ?_⟩,
      isComment_of_afterComment hcomment hclosed⟩, hpassed⟩⟩
    rw [byteLength_append]
  | @block before cs text rest b passed s _ hread hcs hstop _ ih =>
    obtain ⟨opening, closing, htext, hlaid⟩ := read_laidOut_upTo hsize hread hcs hstop
    have hall : before ++ '<' :: cs = before ++ '<' :: text ++ rest := by simp [hcs]
    rw [hall] at hsize ⊢
    obtain ⟨hblocks, hpassed⟩ := ih hsize
    refine ⟨List.forall_mem_cons.2 ⟨⟨before, opening, closing, rest, by rw [htext], hlaid⟩,
      hblocks⟩, List.forall_mem_cons.2 ⟨Or.inl ⟨b, List.mem_cons_self, rfl⟩, fun p hp => ?_⟩⟩
    exact (hpassed p hp).imp_left fun ⟨c, hc, hspan⟩ => ⟨c, List.mem_cons_of_mem b hc, hspan⟩

/-- When a scan meets no fault, every opening tag of the text is passed over. -/
theorem passes_openings (h : Scan before cs passed s)
    (hsize : byteLength (before ++ cs) < Span.limit) (herrors : s.errors = [])
    {mid after : List Char} {c : Char} (hmid : cs = mid ++ '<' :: c :: after)
    (hc : startsTagName c = true) :
    ∃ p ∈ passed, p.start ≤ byteLength (before ++ mid) ∧ byteLength (before ++ mid) < p.stop := by
  induction h generalizing mid with
  | done => simp at hmid
  | openComment | fault => cases herrors
  | plain hd _ ih =>
    cases mid with
    | nil => exact absurd (List.cons.inj hmid).1 hd
    | cons _ mid =>
      obtain ⟨rfl, hrest⟩ := List.cons.inj hmid
      simpa [Nat.add_assoc] using ih (by simpa using hsize) herrors hrest
  | loose _ hname _ ih =>
    cases mid with
    | nil =>
      obtain ⟨-, rfl⟩ := List.cons.inj hmid
      simp [hc] at hname
    | cons _ mid =>
      obtain ⟨rfl, hrest⟩ := List.cons.inj hmid
      simpa [Nat.add_assoc] using ih (by simpa using hsize) herrors hrest
  | @comment before cs comment rest passed s _ hclosed _ ih =>
    have hcs := (afterComment_eq_append hclosed).1
    rw [hcs] at hmid
    rcases behind_or_inside ('<' :: comment) hmid with ⟨later, rfl, hrest⟩ | hinside
    · obtain ⟨p, hp, hplace⟩ := ih (by simpa [hcs] using hsize) herrors hrest
      exact ⟨p, List.mem_cons_of_mem _ hp, by simpa using hplace⟩
    · refine ⟨_, List.mem_cons_self, byteLength_le_append _ _, ?_⟩
      rw [byteLength_append, byteLength_append]
      exact Nat.add_lt_add_left hinside _
  | @block before cs text rest b passed s _ hread hcs hstop _ ih =>
    obtain ⟨opening, closing, -, hlaid⟩ := read_laidOut_upTo hsize hread hcs hstop
    rw [hcs] at hmid
    rcases behind_or_inside ('<' :: text) hmid with ⟨later, rfl, hrest⟩ | hinside
    · obtain ⟨p, hp, hplace⟩ := ih (by simpa [hcs] using hsize) herrors hrest
      exact ⟨p, List.mem_cons_of_mem _ hp, by simpa using hplace⟩
    · refine ⟨b.span, List.mem_cons_self, ?_, ?_⟩
      · rw [hlaid.span]
        exact byteLength_le_append _ _
      · rw [hstop, byteLength_append, byteLength_append]
        exact Nat.add_lt_add_left hinside _

/-- A fault is inside the text, behind everything that was passed over. -/
theorem fault_behind (h : Scan before cs passed s)
    (hsize : byteLength (before ++ cs) < Span.limit) {e : BlockError} (he : e ∈ s.errors) :
    byteLength before ≤ e.span.start ∧ (∀ p ∈ passed, p.stop ≤ e.span.start) ∧
      ∃ text, e.span.Covers (before ++ cs) text := by
  induction h with
  | done => cases he
  | plain _ _ ih | loose _ _ _ ih =>
    obtain ⟨hstart, hpassed, hcovers⟩ := ih (by simpa using hsize) he
    exact ⟨Nat.le_trans (byteLength_le_append _ _) hstart, hpassed, by simpa using hcovers⟩
  | comment _ hclosed _ ih =>
    rw [(afterComment_eq_append hclosed).1] at hsize ⊢
    obtain ⟨hstart, hpassed, hcovers⟩ := ih (by simpa using hsize) he
    exact ⟨Nat.le_trans (byteLength_le_append _ _) hstart,
      List.forall_mem_cons.2 ⟨hstart, hpassed⟩, by simpa using hcovers⟩
  | @openComment before cs hcomment _ =>
    cases List.mem_singleton.1 he
    obtain ⟨rest, rfl⟩ := List.isPrefixOf_iff_prefix.1 hcomment
    have hlt : byteLength before + 4 < Span.limit := by
      refine Nat.lt_of_le_of_lt ?_ hsize
      rw [byteLength_append]
      exact Nat.add_le_add_left (byteLength_le_append ['<', '!', '-', '-'] rest) _
    rw [Span.ofOffsets_eq (Nat.le_add_right _ _) hlt]
    exact ⟨Nat.le_refl _, by simp, ['<', '!', '-', '-'], before, rest, by simp, rfl⟩
  | block _ _ hcs hstop _ ih =>
    rw [hcs] at hsize ⊢
    obtain ⟨hstart, hpassed, hcovers⟩ := ih (by simpa using hsize) he
    exact ⟨Nat.le_trans (byteLength_le_append _ _) hstart,
      List.forall_mem_cons.2 ⟨hstop ▸ hstart, hpassed⟩, by simpa using hcovers⟩
  | fault _ hread =>
    cases List.mem_singleton.1 he
    obtain ⟨hstart, hcovers⟩ := read_error hsize hread
    exact ⟨hstart, by simp, hcovers⟩

end Scan

/-! ## A whole file -/

/-- What the spans of a block say about the file. -/
structure PlacedIn (b : Block) (source : String) : Prop where
  start_le : b.span.start ≤ b.contentSpan.start
  content_le : b.contentSpan.start ≤ b.contentSpan.stop
  stop_le : b.contentSpan.stop ≤ b.span.stop
  inside : b.span.stop ≤ byteLength source.toList
  /-- the opening tag stands in front of the content -/
  opening : ∃ inner, Span.slice ⟨b.span.start, b.contentSpan.start⟩ source =
    some ("<" ++ b.name ++ inner ++ ">")
  content : b.contentSpan.slice source = some b.content
  /-- the block is a tag that closes itself, or a closing tag follows the content -/
  closing : (b.contentSpan.start = b.span.stop ∧
      ∃ inner, b.span.slice source = some ("<" ++ b.name ++ inner ++ "/>")) ∨
    ∃ inner, Span.slice ⟨b.contentSpan.stop, b.span.stop⟩ source =
      some ("</" ++ b.name ++ inner ++ ">") ∧ '>' ∉ inner.toList
  attributes : ∀ a ∈ b.attributes, ∃ value, a.span.slice source = some (a.name ++ value)
  /-- the content ends at the first closing tag -/
  content_free : b.kind ≠ .template → ∀ before c after,
    b.content.toList = before ++ ('<' :: '/' :: b.name.toList) ++ c :: after →
      c ≠ '>' ∧ c ≠ '/' ∧ isBlankChar c = false

namespace LaidOut

variable {b : Block} {source before opening closing after : List Char}

theorem span_covers (h : b.LaidOut (byteLength before) opening closing)
    (hsource : source = before ++ (opening ++ b.content.toList ++ closing) ++ after) :
    b.span.Covers source (opening ++ b.content.toList ++ closing) :=
  ⟨before, after, hsource, h.span⟩

theorem contentSpan_covers (h : b.LaidOut (byteLength before) opening closing)
    (hsource : source = before ++ (opening ++ b.content.toList ++ closing) ++ after) :
    b.contentSpan.Covers source b.content.toList :=
  ⟨before ++ opening, closing ++ after, by simp [hsource], by simp [h.contentSpan, Nat.add_assoc]⟩

theorem attribute_covers (h : b.LaidOut (byteLength before) opening closing)
    (hsource : source = before ++ (opening ++ b.content.toList ++ closing) ++ after)
    (hsize : byteLength source < Span.limit) {a : Attribute} (ha : a ∈ b.attributes) :
    ∃ value, a.span.Covers source (a.name.toList ++ value) := by
  obtain ⟨earlier, own, later, hopening, ⟨value, hvalue⟩, hspan⟩ := h.attributes a ha
  have hall : source = before ++ earlier ++ own ++
      (later ++ b.content.toList ++ closing ++ after) := by
    simp [hsource, hopening]
  refine ⟨value, before ++ earlier, later ++ b.content.toList ++ closing ++ after, ?_, ?_⟩
  · rw [hvalue, hall]
  · rw [hall, byteLength_append, byteLength_append, byteLength_append] at hsize
    rw [hspan, hvalue, byteLength_append]
    exact Span.ofOffsets_eq (Nat.le_add_right _ _)
      (Nat.lt_of_le_of_lt (Nat.le_add_right _ _) hsize)

end LaidOut

theorem LaidOut.placedIn {b : Block} {source : String} {before opening closing after : List Char}
    (hsource : source.toList = before ++ (opening ++ b.content.toList ++ closing) ++ after)
    (hsize : byteLength source.toList < Span.limit)
    (h : b.LaidOut (byteLength before) opening closing) : b.PlacedIn source := by
  have hopening : Span.Covers ⟨b.span.start, b.contentSpan.start⟩ source.toList opening :=
    ⟨before, b.content.toList ++ closing ++ after, by simp [hsource],
      by simp [h.span, h.contentSpan]⟩
  have hclosing : Span.Covers ⟨b.contentSpan.stop, b.span.stop⟩ source.toList closing :=
    ⟨before ++ opening ++ b.content.toList, after, by simp [hsource],
      by simp [h.span, h.contentSpan, Nat.add_assoc]⟩
  have hwhole := h.span_covers hsource
  refine ⟨?_, ?_, ?_, hwhole.stop_le, ?_, ?_, ?_, ?_, ?_⟩
  · simp [h.span, h.contentSpan]
  · simp [h.contentSpan]
  · simp [h.span, h.contentSpan]
  · obtain ⟨inner, rfl⟩ := h.opens
    refine ⟨String.ofList inner, hopening.slice.trans (congrArg some ?_)⟩
    exact String.toList_inj.1 (by simp)
  · simpa using (h.contentSpan_covers hsource).slice
  · rcases h.closes with ⟨rfl, hempty, inner, rfl⟩ | ⟨inner, rfl, hinner, -⟩
    · refine Or.inl ⟨by simp [h.span, h.contentSpan, hempty], String.ofList inner, ?_⟩
      rw [hwhole.slice, hempty]
      exact congrArg some (String.toList_inj.1 (by simp))
    · refine Or.inr ⟨String.ofList inner, hclosing.slice.trans (congrArg some ?_), by simpa⟩
      exact String.toList_inj.1 (by simp)
  · intro a ha
    obtain ⟨value, hvalue⟩ := h.attribute_covers hsource hsize ha
    refine ⟨String.ofList value, hvalue.slice.trans (congrArg some ?_)⟩
    exact String.toList_inj.1 (by simp)
  · intro hkind earlier c later heq
    have hname : b.name.toList ≠ nestingTag := by
      intro hnesting
      have htemplate : b.name = "template" := String.toList_inj.1 hnesting
      exact hkind (by rw [kind, htemplate]; rfl)
    have hends : endsTagName (c :: later) = false := by
      refine Bool.eq_false_iff.2 fun hends => ?_
      have hholds := holdsCloseTag_iff.2 ⟨earlier, c :: later, heq, hends⟩
      rw [h.content_free hname] at hholds
      cases hholds
    simpa [endsTagName, and_assoc] using hends

theorem Scan.split_eq {source : String} {passed : List Span} {s : Split}
    (h : Scan [] source.toList passed s) : split source = s :=
  h.splitFrom_eq (Nat.lt_succ_self _)

/-- The scan that splits a file. -/
theorem split_scan {source : String} (hsize : byteLength source.toList < Span.limit) :
    ∃ passed, Scan [] source.toList passed (split source) := by
  obtain ⟨passed, s, hscan⟩ := exists_scan [] source.toList hsize
  exact ⟨passed, hscan.split_eq ▸ hscan⟩

/-- Where the blocks of a file stand: each covers its tags and its content, they follow each
other, and when there is no fault an opening tag that is in no block is in a closed comment. All
offsets are those of characters and at most the length of the file. -/
theorem split_places (source : String) (hsize : byteLength source.toList < Span.limit) :
    (∀ b ∈ (split source).blocks, b.PlacedIn source) ∧
      ((split source).blocks.Pairwise fun b c => b.span.stop ≤ c.span.start) ∧
      (∀ e ∈ (split source).errors, ∃ text, e.span.slice source = some text) ∧
      ((split source).errors = [] → ∀ before c after,
        source.toList = before ++ '<' :: c :: after → startsTagName c = true →
        (∀ b ∈ (split source).blocks,
          ¬ (b.span.start ≤ byteLength before ∧ byteLength before < b.span.stop)) →
        ∃ (comment : Span) (text : String), comment.slice source = some text ∧
          IsComment text.toList ∧
          comment.start ≤ byteLength before ∧ byteLength before < comment.stop ∧
          ∀ b ∈ (split source).blocks,
            comment.stop ≤ b.span.start ∨ b.span.stop ≤ comment.start) := by
  obtain ⟨passed, hscan⟩ := split_scan hsize
  obtain ⟨hlaid, hpassed⟩ := hscan.laidOut hsize
  obtain ⟨-, hordered⟩ := hscan.ordered hsize
  refine ⟨fun b hb => ?_, ?_, fun e he => ?_, ?_⟩
  · obtain ⟨earlier, opening, closing, after, hsource, hlaid⟩ := hlaid b hb
    exact hlaid.placedIn hsource hsize
  · exact List.pairwise_map.1 (hordered.sublist hscan.blocks_sublist)
  · obtain ⟨-, -, text, hcovers⟩ := hscan.fault_behind hsize he
    exact ⟨String.ofList text, hcovers.slice⟩
  · intro herrors before c after hsource hc houtside
    obtain ⟨p, hp, hstart, hstop⟩ := hscan.passes_openings hsize herrors hsource hc
    rcases hpassed p hp with ⟨b, hb, hspan⟩ | ⟨text, hcovers, hcomment⟩
    · exact absurd (hspan.symm ▸ ⟨hstart, hstop⟩) (houtside b hb)
    · refine ⟨p, String.ofList text, hcovers.slice, by simpa using hcomment, hstart, hstop, ?_⟩
      intro b hb
      have hne : p ≠ b.span := by
        rintro rfl
        exact houtside b hb ⟨hstart, hstop⟩
      have hmem : b.span ∈ passed := hscan.blocks_sublist.subset (List.mem_map_of_mem hb)
      let apart (p q : Span) : Prop := p.stop ≤ q.start ∨ q.stop ≤ p.start
      have : Std.Symm apart := ⟨fun _ _ => Or.symm⟩
      have hapart : passed.Pairwise apart := hordered.imp Or.inl
      exact hapart.forall hp hmem hne

/-- The opening tag in this comment belongs to no block. -/
theorem opening_inside_comment :
    ∃ (comment : Span) (text : String), comment.slice "<!--<a>--><b/>" = some text ∧
      IsComment text.toList ∧ comment.start ≤ 4 ∧ 4 < comment.stop ∧
      ∀ b ∈ (split "<!--<a>--><b/>").blocks,
        comment.stop ≤ b.span.start ∨ b.span.stop ≤ comment.start :=
  (split_places "<!--<a>--><b/>" (by decide +kernel)).2.2.2 (by decide +kernel) "<!--".toList 'a'
    ">--><b/>".toList (by decide) (by decide) (by decide +kernel)

/-! ## A file that is too long -/

/-- A run of characters that open nothing is passed over. -/
theorem splitFrom_replicate (source : List Char) (n steps offset : Nat) (cs : List Char) :
    splitFrom source (n + steps) offset (List.replicate n 'x' ++ cs) =
      splitFrom source steps (offset + n) cs := by
  induction n generalizing offset with
  | zero => simp
  | succ n ih =>
    rw [Nat.add_right_comm, List.replicate_succ, List.cons_append, splitFrom, if_neg (by decide),
      ih, show 'x'.utf8Size = 1 from rfl, Nat.add_assoc, Nat.add_comm 1]

theorem byteLength_replicate {c : Char} (hc : c.utf8Size = 1) (n : Nat) :
    byteLength (List.replicate n c) = n := by
  induction n with
  | zero => rfl
  | succ n ih => rw [List.replicate_succ, byteLength_cons, ih, hc, Nat.add_comm]

/-- A long content with a `<b` behind it. -/
def longContent (n : Nat) : List Char :=
  List.replicate n 'x' ++ ['<', 'b']

/-- A block with this content, and nothing else. -/
def longSource (n : Nat) : List Char :=
  '<' :: 'a' :: '>' :: (longContent n ++ closeTag ['a'])

theorem read_longSource (n : Nat) :
    read (longSource n) 0 ('a' :: '>' :: (longContent n ++ closeTag ['a'])) =
      .ok ⟨"a", .ofOffsets 0 (n + 9), .ofOffsets 3 (n + 5), String.ofList (longContent n), []⟩ := by
  have hheader : Header.read 0 (String.ofList ['a']) (0 + 1 + byteLength ['a'])
      ('>' :: (longContent n ++ closeTag ['a'])) = .ok ⟨[], 3, false⟩ := by
    rw [Header.read, TagToken.lex_close, Header.readFrom_cons]
    rfl
  have hresume : resume (longSource n) 3 = longContent n ++ closeTag ['a'] ++ [] := by
    rw [List.append_nil]
    exact resume_append ['<', 'a', '>'] _
  have hfree : holdsCloseTag ['a'] (longContent n) = false := by
    refine Bool.eq_false_iff.2 fun hholds => ?_
    obtain ⟨before, after, heq, -⟩ := holdsCloseTag_iff.1 hholds
    have hslash : '/' ∈ longContent n := by simp [heq]
    simp [longContent, List.mem_replicate] at hslash
  have hlength : byteLength (longContent n) = n + 2 := by
    rw [longContent, byteLength_append, byteLength_replicate rfl]
    rfl
  have htake (rest : List Char) : ('a' :: '>' :: rest).takeWhile isTagNameChar = ['a'] := rfl
  have hdrop (rest : List Char) : ('a' :: '>' :: rest).dropWhile isTagNameChar = '>' :: rest := rfl
  have hclose := @findClose_of_not_holdsCloseTag ['a'] _ (by decide) (by decide) hfree []
  have hstop : 3 + (n + 2) + byteLength (closeTag ['a']) = n + 9 := by
    show 3 + (n + 2) + 4 = _
    omega
  simp only [read, htake, hdrop, hheader, hresume, show (['a'] == nestingTag) = false from rfl,
    hclose, hlength, hstop, Bool.false_eq_true, if_false]
  rw [Nat.add_comm 3]

/-- Where the end of the block is taken for an offset in its content, its `<b` opens a tag. -/
theorem split_longSource {m : Nat} (hwrap : (m + 6 + 9) % Span.limit = 9) :
    split (String.ofList (longSource (m + 6))) =
      ⟨[⟨"a", .ofOffsets 0 (m + 6 + 9), .ofOffsets 3 (m + 6 + 5),
          String.ofList (longContent (m + 6)), []⟩],
        [⟨.invalidAttribute "<" "b", .ofOffsets (9 + m + 2) (9 + m + 3)⟩]⟩ := by
  have hresume : resume (longSource (m + 6)) 9 =
      List.replicate m 'x' ++ ['<', 'b', '<', '/', 'a', '>'] := by
    have hsource : longSource (m + 6) = ("<a>xxxxxx".toList) ++
        (List.replicate m 'x' ++ ['<', 'b', '<', '/', 'a', '>']) := by
      rw [longSource, longContent, Nat.add_comm, ← List.replicate_append_replicate]
      simp [closeTag, List.replicate]
    rw [hsource]
    exact resume_append _ _
  have hlength : (longSource (m + 6)).length + 1 = m + 15 + 1 := by
    simp [longSource, longContent, closeTag]
  have hfault : read (longSource (m + 6)) (9 + m) ['b', '<', '/', 'a', '>'] =
      .error ⟨.invalidAttribute "<" "b", .ofOffsets (9 + m + 2) (9 + m + 3)⟩ := by
    have hheader : Header.read (9 + m) (String.ofList ['b']) (9 + m + 1 + byteLength ['b'])
        ['<', '/', 'a', '>'] =
          .error ⟨.invalidAttribute "<" "b", .ofOffsets (9 + m + 2) (9 + m + 3)⟩ := by
      have hlex := (TagToken.Stands.stray ['/', 'a', '>']).lex_eq (9 + m + 2)
      rw [Header.read]
      show Header.readFrom _ _ _ _ (TagToken.lex (9 + m + 2) (['<'] ++ ['/', 'a', '>'])) = _
      rw [hlex, Header.readFrom_cons]
      rfl
    have htake : ['b', '<', '/', 'a', '>'].takeWhile isTagNameChar = ['b'] := rfl
    have hdrop : ['b', '<', '/', 'a', '>'].dropWhile isTagNameChar = ['<', '/', 'a', '>'] := rfl
    simp only [read, htake, hdrop, hheader]
  have hmore : splitFrom (longSource (m + 6)) (m + 15) 9 (resume (longSource (m + 6)) 9) =
      ⟨[], [⟨.invalidAttribute "<" "b", .ofOffsets (9 + m + 2) (9 + m + 3)⟩]⟩ := by
    rw [hresume, splitFrom_replicate, splitFrom, if_pos rfl, hfault]
    rfl
  have hstop : (Span.ofOffsets 0 (m + 6 + 9)).stop = 9 := hwrap
  rw [split, String.toList_ofList, hlength]
  show splitFrom _ (m + 15 + 1) 0 ('<' :: 'a' :: '>' :: (longContent (m + 6) ++ closeTag ['a'])) = _
  rw [splitFrom, if_pos rfl, read_longSource, not_comment_of_name rfl]
  simp only [List.head?_cons, show (some 'a').any startsTagName = true from rfl,
    Bool.false_eq_true, if_false, if_true, hstop, hmore]

/-- A block that is longer than offsets can tell, and nothing else. -/
def overlong : String :=
  String.ofList (longSource Span.limit)

theorem split_overlong :
    split overlong = ⟨[⟨"a", ⟨0, 9⟩, ⟨3, 5⟩, String.ofList (longContent Span.limit), []⟩],
      [⟨.invalidAttribute "<" "b", ⟨5, 6⟩⟩]⟩ :=
  @split_longSource (Span.limit - 6) rfl

end ScriptSetup.Block
