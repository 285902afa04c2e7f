import Mathlib.Data.List.TakeWhile
import ScriptSetup.Proofs.Setup.Segments

/-!
# The layout of a document

A document is filled by additions in any order. Only the pieces of each segment count: additions
to different segments can change places, and a blank piece is as good as none. The text is made of
the pieces that are not blank, in the order of the segments, and `Document.gap` is what stands
between two of them. White space at the end is cut off, which changes the last piece at most.

The separator is a line of its own and never shows a piece, whatever was added to it.
-/

set_option autoImplicit false

namespace ScriptSetup

open Text

/-! ## Texts with gaps -/

namespace Text

variable {α : Type} (gap : α → α → String) (text : α → String)

/-- The texts of the entries, with a gap between each two. -/
def weave : List α → String
  | [] => ""
  | [a] => text a
  | a :: b :: rest => text a ++ gap a b ++ weave (b :: rest)

theorem weave_append (as : List α) (a b : α) (bs : List α) :
    weave gap text (as ++ [a] ++ b :: bs) =
      weave gap text (as ++ [a]) ++ gap a b ++ weave gap text (b :: bs) := by
  induction as with
  | nil => rfl
  | cons c as ih =>
    cases as with
    | nil => simp [weave, String.append_assoc]
    | cons d as =>
      simp only [List.cons_append, weave, String.append_assoc] at ih ⊢
      rw [ih]

/-- The last entry ends the text. -/
theorem weave_concat (as : List α) (a : α) :
    ∃ before, weave gap text (as ++ [a]) = before ++ text a := by
  rcases List.eq_nil_or_concat as with rfl | ⟨front, c, rfl⟩
  · exact ⟨"", String.empty_append.symm⟩
  · rw [List.concat_eq_append]
    exact ⟨_, weave_append gap text front c a []⟩

theorem join_eq_weave (sep : String) (texts : List String) :
    join sep texts = weave (fun _ _ => sep) id texts := by
  fun_induction join sep texts with
  | case1 | case2 => rfl
  | case3 a b rest ih => rw [weave, ih, id_eq]

theorem weave_map {β : Type} (f : β → α) (bs : List β) :
    weave gap text (bs.map f) =
      weave (fun b b' => gap (f b) (f b')) (fun b => text (f b)) bs := by
  induction bs with
  | nil => rfl
  | cons b bs ih =>
    cases bs with
    | nil => rfl
    | cons b' bs =>
      simp only [List.map_cons, weave] at ih ⊢
      rw [ih]

theorem join_empty_cons (a : String) (texts : List String) :
    join "" (a :: texts) = a ++ join "" texts := by
  cases texts with
  | nil => exact String.append_empty.symm
  | cons b texts => rw [join, String.append_empty]

/-! ## White space at the end -/

theorem isBlank_append (a b : String) : isBlank (a ++ b) = (isBlank a && isBlank b) := by
  simp [isBlank]

theorem trimEnd_append_blank (a : String) {b : String} (hb : isBlank b = true) :
    trimEnd (a ++ b) = trimEnd a := by
  have hall : ∀ c ∈ b.toList.reverse, isBlankChar c = true := by
    simpa [isBlank] using hb
  rw [trimEnd, trimEnd, dropBlankEnd, dropBlankEnd, String.toList_append, List.reverse_append,
    List.dropWhile_append_of_pos hall]

/-- Cutting white space off the end stops in a text that is not blank. -/
theorem trimEnd_append_solid (a : String) {b : String} (hb : isBlank b = false) :
    trimEnd (a ++ b) = a ++ trimEnd b := by
  have hstop : b.toList.reverse.dropWhile isBlankChar ≠ [] := by
    intro hempty
    have hall : ∀ c ∈ b.toList, isBlankChar c = true := by
      simpa using List.dropWhile_eq_nil_iff.1 hempty
    rw [isBlank, List.all_eq_true.2 hall] at hb
    cases hb
  apply String.toList_inj.1
  rw [trimEnd, trimEnd, dropBlankEnd, dropBlankEnd, String.toList_append, List.reverse_append,
    List.dropWhile_append, if_neg (by simpa [List.isEmpty_iff] using hstop)]
  simp

end Text

namespace Setup

/-! ## The end of the text -/

/-- What is written for a component, with the white space at its end, and what is found. -/
def untrimmed (cs : List Char) (t : Component.Tables) : String × List Finding :=
  let w := writeParts (Scope.ofTables cs t) t
  (join "" (Segment.all.map fun s => Document.segmentText s ((document "vue" t w).segment s)),
    Finding.sortByStart (t.findings ++ w.findings))

theorem convertTables_of_untrimmed {cs chars : List Char} {t : Component.Tables}
    {text tail : String} {findings : List Finding} (h : untrimmed cs t = (text ++ tail, findings))
    (htext : text.toList = chars) (hlast : chars.getLast?.any (!isBlankChar ·) = true)
    (htail : isBlank tail = true := by decide) :
    convertTables cs "vue" t = ⟨text, findings⟩ := by
  subst htext
  obtain ⟨c, hc, hsolid⟩ := (Option.any_eq_true _ _).1 hlast
  obtain ⟨front, hfront⟩ := List.getLast?_eq_some_iff.1 hc
  have htrim : trimEnd (text ++ tail) = text := by
    rw [trimEnd_append_blank text htail, trimEnd, dropBlankEnd, hfront,
      List.reverse_append, List.reverse_singleton, List.singleton_append,
      List.dropWhile_cons_of_neg (by simpa using hsolid), List.reverse_cons, List.reverse_reverse,
      ← hfront, String.ofList_toList]
  have hparts : convertTables cs "vue" t =
      ⟨trimEnd (untrimmed cs t).1, (untrimmed cs t).2⟩ := rfl
  rw [hparts, h, htrim]

/-! ## Additions -/

/-- One step of filling a document. -/
inductive Addition where
  | push (segment : Segment) (piece : String)
  | extend (segment : Segment) (pieces : List String)
  deriving DecidableEq, Repr

namespace Addition

/-- Where the addition goes. -/
def segment : Addition → Segment
  | push s _ | extend s _ => s

/-- What is added. -/
def pieces : Addition → List String
  | push _ piece => [piece]
  | extend _ pieces => pieces

/-- The document with the addition. -/
def apply (d : Document) : Addition → Document
  | push s piece => d.push s piece
  | extend s pieces => d.extend s pieces

end Addition

/-- The pieces that are added to a segment, in order. -/
def piecesTo (s : Segment) (additions : List Addition) : List String :=
  (additions.filter (·.segment = s)).flatMap Addition.pieces

theorem piecesTo_append (s : Segment) (as bs : List Addition) :
    piecesTo s (as ++ bs) = piecesTo s as ++ piecesTo s bs := by
  simp [piecesTo]

theorem piecesTo_cons (s : Segment) (a : Addition) (as : List Addition) :
    piecesTo s (a :: as) = (if a.segment = s then a.pieces else []) ++ piecesTo s as := by
  by_cases h : a.segment = s
  · simp [piecesTo, h]
  · simp [piecesTo, h]

namespace Document

/-- The document after the additions. -/
def ofAdditions (additions : List Addition) : Document :=
  additions.foldl Addition.apply Document.empty

theorem segment_apply (d : Document) (a : Addition) (s : Segment) :
    (a.apply d).segment s = d.segment s ++ if a.segment = s then a.pieces else [] := by
  cases a with
  | push _ piece => exact segment_push d _ s piece
  | extend _ pieces => exact segment_extend d _ s pieces

theorem segment_foldl_apply (d : Document) (additions : List Addition) (s : Segment) :
    (additions.foldl Addition.apply d).segment s = d.segment s ++ piecesTo s additions := by
  induction additions generalizing d with
  | nil => simp [piecesTo]
  | cons a additions ih =>
    rw [List.foldl_cons, ih, segment_apply, piecesTo_cons, List.append_assoc]

theorem segment_ofAdditions (additions : List Addition) (s : Segment) :
    (ofAdditions additions).segment s = piecesTo s additions := by
  rw [ofAdditions, segment_foldl_apply]
  rfl

/-! ## The pieces that show -/

/-- The pieces of a segment that are not blank. -/
def solid (d : Document) (s : Segment) : List String :=
  (d.segment s).filter (!isBlank ·)

/-- These segments' pieces that are not blank, each with its segment. -/
def shownIn (d : Document) (segments : List Segment) : List (Segment × String) :=
  segments.flatMap fun s => (d.solid s).map (s, ·)

/-- The segments whose pieces show, in the order of the text. -/
def showing : List Segment := Segment.all.erase .separator

/-- The pieces that show, in the order of the text. -/
def shown (d : Document) : List (Segment × String) := d.shownIn showing

/-- Something was added to the separator. -/
def separated (d : Document) : Bool := !(d.segment .separator).isEmpty

/-- What stands before the first piece: the separator, when there are no imports above it. -/
def lead (d : Document) : String :=
  if d.separated && (d.solid .imports).isEmpty then "\n" else ""

/-- What stands between the last piece of a segment and the next segment. -/
def closing (d : Document) : Segment → String
  | .imports => if d.separated then "\n\n" else "\n"
  | .separator | .body => "\n"
  | .inputs | .events | .observers | .reactiveFields | .computedAccessors => "\n\n"

/-- What stands between two pieces that follow each other. -/
def gap (d : Document) (a b : Segment × String) : String :=
  if a.1 = b.1 then if a.1 = .body then bodyGap a.2 b.2 else "\n" else d.closing a.1

section

variable (d : Document)

theorem closing_eq (s : Segment) : d.closing s = "\n" ∨ d.closing s = "\n\n" := by
  cases s with
  | imports =>
    simp only [closing]
    split
    · exact Or.inr rfl
    · exact Or.inl rfl
  | separator | body => exact Or.inl rfl
  | _ => exact Or.inr rfl

theorem gap_eq (a b : Segment × String) : d.gap a b = "\n" ∨ d.gap a b = "\n\n" := by
  unfold gap
  split
  · split
    · unfold bodyGap
      split
      · exact Or.inr rfl
      · exact Or.inl rfl
    · exact Or.inl rfl
  · exact d.closing_eq a.1

theorem gap_body (p q : String) :
    (d.gap (.body, p) (.body, q) = "\n" ↔ '\n' ∉ p.toList ∧ '\n' ∉ q.toList) ∧
      (d.gap (.body, p) (.body, q) = "\n\n" ↔ '\n' ∈ p.toList ∨ '\n' ∈ q.toList) := by
  have hgap : d.gap (.body, p) (.body, q) =
      if '\n' ∈ p.toList ∨ '\n' ∈ q.toList then "\n\n" else "\n" := by
    simp [gap, bodyGap, isMultiline, hasChar]
  rw [hgap]
  split
  · rename_i h
    exact ⟨⟨fun heq => absurd heq (by decide), fun hnot => absurd h (by simp [hnot])⟩,
      ⟨fun _ => h, fun _ => rfl⟩⟩
  · rename_i h
    exact ⟨⟨fun _ => not_or.1 h, fun _ => rfl⟩,
      ⟨fun heq => absurd heq (by decide), fun hsome => absurd hsome h⟩⟩

theorem isBlank_closing (s : Segment) : isBlank (d.closing s) = true := by
  rcases d.closing_eq s with h | h
  · rw [h]
    decide
  · rw [h]
    decide

/-! ## The text of a segment -/

/-- The pieces of a segment as they stand in the text, with what follows them. -/
def segmentBlock (s : Segment) : String :=
  if (d.solid s).isEmpty then ""
  else weave d.gap (·.2) ((d.solid s).map (s, ·)) ++ d.closing s

theorem weave_segment (s : Segment) :
    weave d.gap (·.2) ((d.solid s).map (s, ·)) =
      if s = .body then joinBody (d.solid s) else join "\n" (d.solid s) := by
  rw [weave_map]
  split
  · rename_i hs
    have hgap : (fun p q => d.gap (s, p) (s, q)) = bodyGap := by
      funext p q
      simp [gap, hs]
    rw [hgap]
    generalize d.solid s = pieces
    fun_induction joinBody pieces with
    | case1 | case2 => rfl
    | case3 p q rest ih => rw [weave, ih]
  · rename_i hs
    have hgap : (fun p q => d.gap (s, p) (s, q)) = fun _ _ => "\n" := by
      funext p q
      simp [gap, hs]
    rw [hgap, join_eq_weave]
    rfl

theorem segmentText_eq_block {s : Segment} (himports : s ≠ .imports) (hseparator : s ≠ .separator) :
    segmentText s (d.segment s) = d.segmentBlock s := by
  rw [segmentBlock, weave_segment]
  cases s with
  | imports => exact absurd rfl himports
  | separator => exact absurd rfl hseparator
  | _ => rfl

/-- The separator stands below the imports, or at the start. -/
theorem imports_separator_eq :
    segmentText .imports (d.segment .imports) ++ segmentText .separator (d.segment .separator) =
      d.lead ++ d.segmentBlock .imports := by
  have hseparator : segmentText .separator (d.segment .separator) =
      if d.separated then "\n" else "" := by
    cases h : d.segment .separator with
    | nil | cons p ps => simp [segmentText, separated, h]
  have himports : segmentText .imports (d.segment .imports) =
      if (d.solid .imports).isEmpty then "" else join "\n" (d.solid .imports) ++ "\n" := rfl
  rw [hseparator, himports, segmentBlock, weave_segment, lead, closing]
  cases d.separated <;> cases (d.solid .imports).isEmpty <;> simp [String.append_assoc]

/-! ## The whole text -/

/-- Segments one after another show their pieces, up to white space at the end. -/
theorem exists_join_segmentBlock {segments : List Segment} (hnodup : segments.Nodup) :
    ∃ tail, isBlank tail = true ∧
      join "" (segments.map d.segmentBlock) =
        weave d.gap (·.2) (d.shownIn segments) ++ tail := by
  induction segments with
  | nil => exact ⟨"", rfl, rfl⟩
  | cons s segments ih =>
    obtain ⟨hs, hnodup⟩ := List.nodup_cons.1 hnodup
    obtain ⟨tail, htail, ih⟩ := ih hnodup
    have hshown : d.shownIn (s :: segments) = (d.solid s).map (s, ·) ++ d.shownIn segments := rfl
    rw [List.map_cons, join_empty_cons, ih, hshown]
    rcases List.eq_nil_or_concat (d.solid s) with hsolid | ⟨front, p, hsolid⟩
    · refine ⟨tail, htail, ?_⟩
      simp [segmentBlock, hsolid]
    · rw [List.concat_eq_append] at hsolid
      have hblock : d.segmentBlock s =
          weave d.gap (·.2) (front.map (s, ·) ++ [(s, p)]) ++ d.closing s := by
        simp [segmentBlock, hsolid]
      rw [hblock, hsolid, List.map_append]
      cases hrest : d.shownIn segments with
      | nil =>
        refine ⟨d.closing s ++ tail, ?_, ?_⟩
        · rw [isBlank_append, isBlank_closing, htail]
          rfl
        · simp [weave, String.append_assoc]
      | cons q rest =>
        refine ⟨tail, htail, ?_⟩
        -- the next piece stands in another segment
        have hq : q.1 ∈ segments := by
          have hmem : q ∈ d.shownIn segments := hrest ▸ List.mem_cons_self
          obtain ⟨s', hs', hq⟩ := List.mem_flatMap.1 hmem
          obtain ⟨p', -, rfl⟩ := List.mem_map.1 hq
          exact hs'
        have hne : s ≠ q.1 := fun heq => hs (heq ▸ hq)
        have hgap : d.gap (s, p) q = d.closing s := if_neg hne
        rw [List.map_singleton, weave_append, hgap]
        simp only [String.append_assoc]

/-- The text of a document: its pieces with gaps, cut off at the end. -/
theorem render_eq_weave : d.render = trimEnd (d.lead ++ weave d.gap (·.2) d.shown) := by
  have hblocks : Segment.all.map (fun s => segmentText s (d.segment s)) =
      segmentText .imports (d.segment .imports) ::
        segmentText .separator (d.segment .separator) ::
          (showing.erase .imports).map d.segmentBlock := by
    rw [Segment.all, List.map_cons, List.map_cons]
    refine congrArg _ (congrArg _ (List.map_congr_left fun s hs => ?_))
    exact d.segmentText_eq_block (by rintro rfl; simp at hs) (by rintro rfl; simp at hs)
  have hshowing : showing = .imports :: showing.erase .imports := rfl
  have hnodup : showing.Nodup := by decide
  obtain ⟨tail, htail, hjoin⟩ := d.exists_join_segmentBlock hnodup
  rw [hshowing, List.map_cons, join_empty_cons] at hjoin
  rw [render, hblocks, join_empty_cons, join_empty_cons, ← String.append_assoc,
    imports_separator_eq, String.append_assoc, hjoin, ← String.append_assoc,
    trimEnd_append_blank _ htail]
  rfl

theorem solid_of_mem_shown {a : Segment × String} (ha : a ∈ d.shown) : isBlank a.2 = false := by
  obtain ⟨s, -, ha⟩ := List.mem_flatMap.1 ha
  obtain ⟨p, hp, rfl⟩ := List.mem_map.1 ha
  simpa using (List.mem_filter.1 hp).2

/-- Cutting off white space at the end stops in the last piece. -/
theorem render_eq_of_last {front : List (Segment × String)} {last : Segment × String}
    (h : d.shown = front ++ [last]) :
    ∃ before, d.lead ++ weave d.gap (·.2) d.shown = before ++ last.2 ∧
      d.render = before ++ trimEnd last.2 := by
  have hlast : isBlank last.2 = false := d.solid_of_mem_shown (by simp [h])
  obtain ⟨before, hbefore⟩ := weave_concat d.gap (·.2) front last
  refine ⟨d.lead ++ before, ?_, ?_⟩
  · rw [h, hbefore, String.append_assoc]
  · rw [render_eq_weave, h, hbefore, ← String.append_assoc, trimEnd_append_solid _ hlast]

end

theorem render_congr {d d' : Document} (h : ∀ s, d.segment s = d'.segment s) :
    d.render = d'.render := by
  simp only [render, h]

/-- A segment shows the same when blank pieces are left out. -/
theorem segmentText_append_blank {s : Segment} (hs : s ≠ .separator) {piece : String}
    (hblank : isBlank piece = true) (front back : List String) :
    segmentText s (front ++ piece :: back) = segmentText s (front ++ back) := by
  have hfilter : (front ++ piece :: back).filter (!isBlank ·) =
      (front ++ back).filter (!isBlank ·) := by
    simp [hblank]
  cases s with
  | separator => exact absurd rfl hs
  | _ => simp only [segmentText, hfilter]

/-! ## Any order of additions -/

/-- What the text of a document says about the additions that filled it. -/
structure Assembles (additions : List Addition) : Prop where
  /-- the text depends on the pieces of each segment only -/
  bySegment : ∀ others, (∀ s, piecesTo s others = piecesTo s additions) →
    (ofAdditions others).render = (ofAdditions additions).render
  /-- additions to different segments change places freely -/
  commute : ∀ front a b back, additions = front ++ a :: b :: back → a.segment ≠ b.segment →
    (ofAdditions (front ++ b :: a :: back)).render = (ofAdditions additions).render
  /-- a blank piece changes nothing, whenever it is added, unless it is the separator -/
  blank : ∀ front back s piece, additions = front ++ back → s ≠ .separator →
    isBlank piece = true →
    (ofAdditions (front ++ .push s piece :: back)).render = (ofAdditions additions).render
  /-- the pieces that show are those that were added and are not blank, segment by segment -/
  pieces : (ofAdditions additions).shown =
    showing.flatMap fun s => ((piecesTo s additions).filter (!isBlank ·)).map (s, ·)
  /-- they are all there is, but for the gaps and the separator at the start -/
  text : (ofAdditions additions).render = trimEnd ((ofAdditions additions).lead ++
    weave (ofAdditions additions).gap (·.2) (ofAdditions additions).shown)
  /-- only the last of them may lose white space -/
  last : ∀ front last, (ofAdditions additions).shown = front ++ [last] →
    ∃ before, (ofAdditions additions).lead ++
        weave (ofAdditions additions).gap (·.2) (ofAdditions additions).shown =
          before ++ last.2 ∧
      (ofAdditions additions).render = before ++ trimEnd last.2
  /-- the start is empty, or the separator when it has no imports above it -/
  lead : (ofAdditions additions).lead =
    if piecesTo .separator additions ≠ [] ∧ ∀ p ∈ piecesTo .imports additions, isBlank p = true
    then "\n" else ""
  /-- gaps are one or two line feeds -/
  gaps : ∀ a b, (ofAdditions additions).gap a b = "\n" ∨ (ofAdditions additions).gap a b = "\n\n"
  /-- two pieces of the body are in consecutive lines exactly when both are single lines -/
  body : ∀ p q,
    ((ofAdditions additions).gap (.body, p) (.body, q) = "\n" ↔
      '\n' ∉ p.toList ∧ '\n' ∉ q.toList) ∧
    ((ofAdditions additions).gap (.body, p) (.body, q) = "\n\n" ↔
      '\n' ∈ p.toList ∨ '\n' ∈ q.toList)

theorem render_ofAdditions_congr {additions others : List Addition}
    (h : ∀ s, piecesTo s others = piecesTo s additions) :
    (ofAdditions others).render = (ofAdditions additions).render :=
  render_congr fun s => by rw [segment_ofAdditions, segment_ofAdditions, h]

theorem piecesTo_swap {a b : Addition} (hne : a.segment ≠ b.segment) (front back : List Addition)
    (s : Segment) :
    piecesTo s (front ++ b :: a :: back) = piecesTo s (front ++ a :: b :: back) := by
  simp only [piecesTo_append, piecesTo_cons]
  by_cases ha : a.segment = s
  · have hb : b.segment ≠ s := fun hb => hne (ha.trans hb.symm)
    simp [hb]
  · simp [ha]

theorem render_blank {s : Segment} (hs : s ≠ .separator) {piece : String}
    (hblank : isBlank piece = true) (front back : List Addition) :
    (ofAdditions (front ++ .push s piece :: back)).render =
      (ofAdditions (front ++ back)).render := by
  simp only [render, segment_ofAdditions, piecesTo_append, piecesTo_cons]
  refine congrArg (fun texts => trimEnd (join "" texts)) (List.map_congr_left fun s' _ => ?_)
  by_cases hs' : s = s'
  · subst hs'
    simp only [Addition.segment, Addition.pieces, if_true, List.singleton_append]
    exact segmentText_append_blank hs hblank _ _
  · simp [Addition.segment, hs']

theorem lead_ofAdditions (additions : List Addition) :
    (ofAdditions additions).lead =
      if piecesTo .separator additions ≠ [] ∧ ∀ p ∈ piecesTo .imports additions, isBlank p = true
      then "\n" else "" := by
  simp [lead, separated, solid, segment_ofAdditions, List.isEmpty_iff]

/-- Documents are assembled by segments, whatever the order of the additions is. -/
theorem render_assembles (additions : List Addition) : Assembles additions where
  bySegment _ h := render_ofAdditions_congr h
  commute front a b back h hne := by
    subst h
    exact render_ofAdditions_congr (piecesTo_swap hne front back)
  blank front back s piece h hs hblank := by
    subst h
    exact render_blank hs hblank front back
  pieces := by simp only [shown, shownIn, solid, segment_ofAdditions]
  text := render_eq_weave _
  last _ _ h := render_eq_of_last _ h
  lead := lead_ofAdditions additions
  gaps := gap_eq _
  body := gap_body _

/-- A piece of the separator does not show, and a blank import does not keep the line of the
separator from the start. -/
theorem separator_piece_hidden :
    ("x" ∈ piecesTo .separator [.push .separator "x"] ∧ isBlank "x" = false ∧
      (ofAdditions [.push .separator "x"]).render = "") ∧
    (ofAdditions [.push .imports " ", .push .separator "", .push .body "x"]).render = "\nx" := by
  decide

end Document

end Setup

end ScriptSetup
