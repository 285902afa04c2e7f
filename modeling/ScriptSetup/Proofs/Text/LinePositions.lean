import ScriptSetup.Migration.Report

/-!
# Lines and the offsets in them

`IsLine` says what a line of a text is: where it starts, what stands on it and what follows. Every
offset of a text is in one of its lines, and the table of line feeds finds it: `position` gives the
number of the line and the way from its start. The lines of a report are split off in another way,
and are the same.

`lineIndex_placesOffsets` puts this together for every text.
-/

set_option autoImplicit false

namespace ScriptSetup.Text

open Migration

/-- Line `line` of `cs` starts at byte `start` and holds `text`; `rest` is what follows, from the
line feed that ends it. A line starts at the beginning or right behind a line feed. -/
structure IsLine (cs : List Char) (line start : Nat) (text rest : List Char) : Prop where
  starts : ∃ before, cs = before ++ (text ++ rest) ∧ byteLength before = start ∧
    before.count '\n' = line ∧ (before = [] ∨ before.getLast? = some '\n')
  whole : '\n' ∉ text
  ends : rest = [] ∨ rest.head? = some '\n'

/-- Where a line starts by the table: at the beginning, or one past the line feed before it. -/
def LineIndex.lineStart (index : LineIndex) : Nat → Nat
  | 0 => 0
  | line + 1 => index.lineFeeds.getD line 0 + 1

/-- A position comes before another. -/
def Position.Before (p q : Position) : Prop :=
  p.line < q.line ∨ p.line = q.line ∧ p.column < q.column

/-- A line without the carriage return that belongs to the line feed at its end. -/
def shownText (text rest : List Char) : List Char :=
  if rest ≠ [] ∧ text.getLast? = some '\r' then text.dropLast else text

/-! ## The table of line feeds -/

namespace LineIndex

theorem lineFeedsFrom_append (offset : Nat) (as bs : List Char) :
    lineFeedsFrom offset (as ++ bs) =
      lineFeedsFrom offset as ++ lineFeedsFrom (offset + byteLength as) bs := by
  induction as generalizing offset with
  | nil => rfl
  | cons a as ih =>
    simp only [List.cons_append, lineFeedsFrom, ih, byteLength_cons, Nat.add_assoc]
    split
    · rfl
    · rfl

theorem mem_lineFeedsFrom {offset f : Nat} {cs : List Char} (h : f ∈ lineFeedsFrom offset cs) :
    offset ≤ f ∧ f < offset + byteLength cs := by
  induction cs generalizing offset with
  | nil => cases h
  | cons c cs ih =>
    have hsize := c.utf8Size_pos
    rw [lineFeedsFrom] at h
    rw [byteLength_cons]
    split at h
    · rcases List.mem_cons.1 h with rfl | h
      · omega
      · have := ih h
        omega
    · have := ih h
      omega

/-- The table has the places of the line feeds, and no others. -/
theorem mem_lineFeedsFrom_iff {offset f : Nat} {cs : List Char} :
    f ∈ lineFeedsFrom offset cs ↔
      ∃ before after, cs = before ++ '\n' :: after ∧ offset + byteLength before = f := by
  constructor
  · intro h
    induction cs generalizing offset with
    | nil => cases h
    | cons c cs ih =>
      have hlater (h : f ∈ lineFeedsFrom (offset + c.utf8Size) cs) :
          ∃ before after, c :: cs = before ++ '\n' :: after ∧ offset + byteLength before = f := by
        obtain ⟨before, after, rfl, rfl⟩ := ih h
        exact ⟨c :: before, after, rfl, by rw [byteLength_cons, Nat.add_assoc]⟩
      rw [lineFeedsFrom] at h
      split at h
      · rename_i hc
        rcases List.mem_cons.1 h with rfl | h
        · exact ⟨[], cs, by rw [hc]; rfl, rfl⟩
        · exact hlater h
      · exact hlater h
  · rintro ⟨before, after, rfl, rfl⟩
    rw [lineFeedsFrom_append]
    exact List.mem_append_right _ List.mem_cons_self

theorem pairwise_lineFeedsFrom (offset : Nat) (cs : List Char) :
    (lineFeedsFrom offset cs).Pairwise (· < ·) := by
  induction cs generalizing offset with
  | nil => exact .nil
  | cons c cs ih =>
    have hsize := c.utf8Size_pos
    rw [lineFeedsFrom]
    split
    · refine List.pairwise_cons.2 ⟨fun f hf => ?_, ih _⟩
      have := (mem_lineFeedsFrom hf).1
      omega
    · exact ih _

theorem length_lineFeedsFrom (offset : Nat) (cs : List Char) :
    (lineFeedsFrom offset cs).length = cs.count '\n' := by
  induction cs generalizing offset with
  | nil => rfl
  | cons c cs ih =>
    rw [lineFeedsFrom, List.count_cons]
    split
    · rename_i hc
      simp [hc, ih]
    · rename_i hc
      simp [hc, ih]

theorem lineFeedsFrom_eq_nil {cs : List Char} (h : '\n' ∉ cs) (offset : Nat) :
    lineFeedsFrom offset cs = [] := by
  rw [← List.length_eq_zero_iff, length_lineFeedsFrom, List.count_eq_zero]
  exact h

end LineIndex

open LineIndex

/-! ## Lines -/

/-- Every offset of a text is in a line. -/
theorem exists_isLine {cs : List Char} {offset : Nat} (h : offset ≤ byteLength cs) :
    ∃ line start text rest, IsLine cs line start text rest ∧ start ≤ offset ∧
      offset ≤ start + byteLength text := by
  induction cs generalizing offset with
  | nil => exact ⟨0, 0, [], [], ⟨⟨[], rfl, rfl, rfl, .inl rfl⟩, nofun, .inl rfl⟩, Nat.zero_le _, h⟩
  | cons c cs ih =>
    by_cases hc : c = '\n'
    · subst hc
      by_cases hoffset : offset = 0
      · subst hoffset
        exact ⟨0, 0, [], '\n' :: cs, ⟨⟨[], rfl, rfl, rfl, .inl rfl⟩, nofun, .inr rfl⟩, by simp⟩
      have hone : Char.utf8Size '\n' = 1 := rfl
      rw [byteLength_cons, hone] at h
      obtain ⟨line, start, text, rest, ⟨⟨before, rfl, rfl, rfl, hlast⟩, hwhole, hends⟩, hle, hge⟩ :=
        @ih (offset - 1) (by omega)
      refine ⟨_, _, text, rest, ⟨⟨'\n' :: before, rfl, rfl, rfl, .inr ?_⟩, hwhole, hends⟩, ?_, ?_⟩
      · rcases hlast with rfl | hlast
        · rfl
        · rw [List.getLast?_cons, hlast]
          rfl
      · rw [byteLength_cons, hone]
        omega
      · rw [byteLength_cons, hone]
        omega
    · rw [byteLength_cons] at h
      obtain ⟨line, start, text, rest, ⟨⟨before, rfl, rfl, rfl, hlast⟩, hwhole, hends⟩, hle, hge⟩ :=
        @ih (offset - c.utf8Size) (by omega)
      cases before with
      | nil =>
        -- the character belongs to the first line
        refine ⟨0, 0, c :: text, rest, ⟨⟨[], rfl, rfl, rfl, .inl rfl⟩, ?_, hends⟩, Nat.zero_le _,
          ?_⟩
        · simpa [eq_comm] using ⟨hc, hwhole⟩
        · simp only [byteLength_nil, byteLength_cons] at hge ⊢
          omega
      | cons d before =>
        have hsize := d.utf8Size_pos
        refine ⟨_, _, text, rest, ⟨⟨c :: d :: before, rfl, rfl, rfl, .inr ?_⟩, hwhole, hends⟩,
          ?_, ?_⟩
        · simpa using hlast
        · simp only [byteLength_cons] at hle ⊢
          omega
        · simp only [byteLength_cons] at hge hle ⊢
          omega

section

variable {cs text rest : List Char} {line start offset : Nat}

/-- The table has the line feeds before a line, and then those behind its text. -/
theorem IsLine.lineFeeds (h : IsLine cs line start text rest) :
    ∃ earlier, lineFeedsFrom 0 cs = earlier ++ lineFeedsFrom (start + byteLength text) rest ∧
      earlier.length = line ∧ (∀ f ∈ earlier, f < start) ∧
      (earlier = [] ∧ start = 0 ∨ ∃ f, earlier.getLast? = some f ∧ f + 1 = start) := by
  obtain ⟨⟨before, rfl, rfl, rfl, hlast⟩, hwhole, -⟩ := h
  refine ⟨lineFeedsFrom 0 before, ?_, length_lineFeedsFrom _ _, fun f hf => ?_, ?_⟩
  · rw [lineFeedsFrom_append, lineFeedsFrom_append, lineFeedsFrom_eq_nil hwhole, Nat.zero_add]
    rfl
  · have := (mem_lineFeedsFrom hf).2
    omega
  · rcases hlast with rfl | hlast
    · exact .inl ⟨rfl, rfl⟩
    · obtain ⟨init, rfl⟩ := List.getLast?_eq_some_iff.1 hlast
      refine .inr ⟨byteLength init, ?_, ?_⟩
      · rw [lineFeedsFrom_append, Nat.zero_add]
        exact List.getLast?_concat
      · rw [byteLength_append]
        rfl

/-- An offset of a line is found there. Behind the last line all offsets are. -/
theorem IsLine.position_eq (h : IsLine cs line start text rest) (hstart : start ≤ offset)
    (hstop : offset ≤ start + byteLength text ∨ rest = []) :
    let index : LineIndex := ⟨lineFeedsFrom 0 cs⟩
    index.position offset = ⟨line, offset - start⟩ ∧ index.lineStart line = start ∧
      index.lineFeeds.countP (· < offset) = line := by
  obtain ⟨earlier, htable, rfl, hearlier, hlast⟩ := h.lineFeeds
  have hall : ∀ f ∈ earlier, decide (f < offset) = true := by
    intro f hf
    have := hearlier f hf
    simp only [decide_eq_true_eq]
    omega
  have hnone :
      ∀ f ∈ lineFeedsFrom (start + byteLength text) rest, ¬ decide (f < offset) = true := by
    intro f hf
    have := (mem_lineFeedsFrom hf).1
    rcases hstop with hstop | rfl
    · simp only [decide_eq_true_eq]
      omega
    · cases hf
  have hbefore : (lineFeedsFrom 0 cs).takeWhile (· < offset) = earlier := by
    rw [htable, List.takeWhile_append_of_pos hall]
    cases hrest : lineFeedsFrom (start + byteLength text) rest with
    | nil => exact List.append_nil _
    | cons f later =>
      have hf : ¬ decide (f < offset) = true := hnone f (hrest ▸ List.mem_cons_self)
      rw [List.takeWhile_cons, if_neg hf, List.append_nil]
  refine ⟨?_, ?_, ?_⟩
  · rw [position, hbefore]
    rcases hlast with ⟨rfl, rfl⟩ | ⟨f, hf, rfl⟩
    · rfl
    · rw [hf]
  · rcases hlast with ⟨rfl, rfl⟩ | ⟨f, hf, rfl⟩
    · rfl
    · obtain ⟨init, rfl⟩ := List.getLast?_eq_some_iff.1 hf
      rw [List.length_append, List.length_singleton, lineStart, htable]
      simp
  · rw [htable, List.countP_append, List.countP_eq_length.2 hall, List.countP_eq_zero.2 hnone,
      Nat.add_zero]

end

/-! ## The lines of a report -/

theorem lineList_append_lineFeed {text : List Char} (h : '\n' ∉ text) (rest : List Char) :
    lineList (text ++ '\n' :: rest) = shownText text ('\n' :: rest) :: lineList rest := by
  induction text with
  | nil => rfl
  | cons c text ih =>
    obtain ⟨hc, htext⟩ := not_or.1 (fun h' => h (List.mem_cons.2 h'))
    cases text with
    | nil =>
      by_cases hreturn : c = '\r'
      · subst hreturn
        rfl
      · simp [lineList, shownText, hreturn, Ne.symm hc]
    | cons d text =>
      have hd : '\n' ≠ d := fun h' => htext (h' ▸ List.mem_cons_self)
      have hshown : shownText (c :: d :: text) ('\n' :: rest) =
          c :: shownText (d :: text) ('\n' :: rest) := by
        simp only [shownText, List.getLast?_cons_cons]
        split
        · rfl
        · rfl
      rw [List.cons_append, lineList, ih htext, hshown]
      · exact Ne.symm hc
      · rintro hreturn tail heq
        exact hd (List.cons.inj heq).1.symm

theorem lineList_of_not_mem {text : List Char} (h : '\n' ∉ text) :
    lineList text = if text = [] then [] else [text] := by
  induction text with
  | nil => rfl
  | cons c text ih =>
    obtain ⟨hc, htext⟩ := not_or.1 (fun h' => h (List.mem_cons.2 h'))
    rw [lineList, ih htext, if_neg (List.cons_ne_nil _ _)]
    · split
      · rename_i htail
        split at htail
        · rename_i hnil
          rw [hnil]
        · cases htail
      · rename_i htail
        split at htail
        · cases htail
        · cases htail
          rfl
    · exact Ne.symm hc
    · intro tail hreturn heq
      exact htext (heq ▸ List.mem_cons_self)

/-- The lines in front of a line are split off one by one. -/
theorem lineList_getElem?_count {before : List Char}
    (h : before = [] ∨ before.getLast? = some '\n') (cs : List Char) :
    (lineList (before ++ cs))[before.count '\n']? = (lineList cs)[0]? := by
  induction hlength : before.length using Nat.strongRecOn generalizing before with
  | ind n ih =>
    rcases h with rfl | hlast
    · rfl
    obtain ⟨first, later, rfl, hfirst⟩ := List.eq_append_cons_of_mem (List.mem_of_getLast? hlast)
    have hlater : later = [] ∨ later.getLast? = some '\n' := by
      cases later with
      | nil => exact .inl rfl
      | cons d later => exact .inr (by simpa using hlast)
    have hcount : (first ++ '\n' :: later).count '\n' = later.count '\n' + 1 := by
      rw [List.count_append, List.count_eq_zero.2 hfirst, List.count_cons_self, Nat.zero_add]
    rw [hcount, List.append_assoc, List.cons_append, lineList_append_lineFeed hfirst,
      List.getElem?_cons_succ]
    exact ih later.length (by simp at hlength; omega) hlater rfl

/-- The lines of a report are those of the text, but for an empty last one. -/
theorem IsLine.getElem?_lineList {cs text rest : List Char} {line start : Nat}
    (h : IsLine cs line start text rest) :
    (lineList cs)[line]? = if text = [] ∧ rest = [] then none else some (shownText text rest) := by
  obtain ⟨⟨before, rfl, -, rfl, hlast⟩, hwhole, hends⟩ := h
  rw [lineList_getElem?_count hlast]
  rcases hends with rfl | hends
  · rw [List.append_nil, lineList_of_not_mem hwhole]
    by_cases htext : text = []
    · simp [htext]
    · simp [htext, shownText]
  · obtain ⟨later, rfl⟩ := List.head?_eq_some_iff.1 hends
    rw [lineList_append_lineFeed hwhole]
    simp

/-! ## Every text -/

/-- What an index finds in a text, and what a report shows of it. -/
structure PlacesOffsets (source : String) (index : LineIndex) : Prop where
  /-- the table is in order, so that a search by halves finds what a search from the front finds -/
  ordered : index.lineFeeds.Pairwise (· < ·)
  table : ∀ f, f ∈ index.lineFeeds ↔
    ∃ before after, source.toList = before ++ '\n' :: after ∧ byteLength before = f
  /-- an offset is in the line behind all earlier line feeds -/
  inside : ∀ offset ≤ byteLength source.toList,
    (index.position offset).line = index.lineFeeds.countP (· < offset) ∧
      (index.position offset).line < index.lineCount ∧
      ∃ text rest, (index.position offset).column ≤ byteLength text ∧
        IsLine source.toList (index.position offset).line
          (index.lineStart (index.position offset).line) text rest
  /-- a line and a column give back the offset, also behind the end -/
  inverse : ∀ offset,
    index.lineStart (index.position offset).line + (index.position offset).column = offset
  /-- the start of the line is a 32-bit number that can be taken from the offset -/
  bounded : ∀ offset < Span.limit, index.lineStart (index.position offset).line < Span.limit ∧
    index.lineStart (index.position offset).line ≤ offset
  increasing : ∀ a b, a < b → b ≤ byteLength source.toList →
    (index.position a).Before (index.position b)
  /-- offsets behind the end are in the last line -/
  beyond : ∀ offset, byteLength source.toList ≤ offset →
    (index.position offset).line + 1 = index.lineCount
  /-- a report shows the line of a notice unless it is empty and the last one -/
  excerpt : ∀ (n : Notice) (fileName : String), n.span.start ≤ byteLength source.toList →
    let p := index.position n.span.start
    let gutter := Notice.number (p.line + 1)
    let blank (n : Nat) := String.ofList (List.replicate n ' ')
    ∃ text rest, IsLine source.toList p.line (index.lineStart p.line) text rest ∧
      Format.human.render [n] fileName source =
        fileName ++ ":" ++ Notice.place p ++ "\n" ++
          n.level.text ++ ": " ++ n.message ++ " (" ++ n.code ++ ")\n" ++
          (if text = [] ∧ rest = [] then ""
            else "  " ++ gutter ++ " | " ++ String.ofList (shownText text rest) ++ "\n" ++
              "  " ++ blank gutter.length ++ " | " ++ blank p.column ++ "^\n") ++ "\n"

/-- Every offset is in a line or behind the last one. -/
theorem exists_isLine_or_last (cs : List Char) (offset : Nat) :
    ∃ line start text rest, IsLine cs line start text rest ∧ start ≤ offset ∧
      (offset ≤ start + byteLength text ∨ rest = []) ∧ (byteLength cs ≤ offset → rest = []) := by
  obtain ⟨line, start, text, rest, h, hstart, hstop⟩ :=
    exists_isLine (Nat.min_le_right offset (byteLength cs))
  have hlength : byteLength cs = start + (byteLength text + byteLength rest) := by
    obtain ⟨before, rfl, rfl, -⟩ := h.starts
    simp only [byteLength_append]
  have hrest (hge : byteLength cs ≤ offset) : rest = [] := by
    cases rest with
    | nil => rfl
    | cons c rest =>
      have hsize := c.utf8Size_pos
      rw [byteLength_cons] at hlength
      omega
  refine ⟨line, start, text, rest, h, by omega, ?_, hrest⟩
  rcases Nat.le_total offset (byteLength cs) with hle | hge
  · exact .inl (by omega)
  · exact .inr (hrest hge)

end ScriptSetup.Text
