import ScriptSetup.Proofs.Setup.Capture
import ScriptSetup.Proofs.Setup.FileStructure

/-!
# Places in the whole file

A logic block is converted on its own, with places that count from the start of its content. The
file moves every such place by the offset of the content. Since the block covers its content in the
file, a place and the moved place show the same text.

`Finding.Merged` says what order the findings of a block are in. `convertFile_points_into_file` puts
this together for every outcome of a file.
-/

set_option autoImplicit false

namespace ScriptSetup

open Text

/-! ## A place in a part of a text -/

theorem Text.dropBytes_eq_some {cs rest : List Char} {n : Nat} (h : dropBytes cs n = some rest) :
    ∃ before, cs = before ++ rest ∧ n = byteLength before := by
  fun_induction dropBytes cs n with
  | case1 => exact ⟨[], by simpa using h⟩
  | case2 => cases h
  | case3 => exact ⟨[], by simpa using h⟩
  | case4 c cs n _ hle ih =>
    obtain ⟨before, rfl, hbefore⟩ := ih h
    exact ⟨c :: before, rfl, by simp only [byteLength_cons]; omega⟩
  | case5 => cases h

theorem Text.takeBytes_eq_some {cs text : List Char} {n : Nat} (h : takeBytes cs n = some text) :
    ∃ after, cs = text ++ after ∧ n = byteLength text := by
  fun_induction takeBytes cs n generalizing text with
  | case1 =>
    cases h
    exact ⟨[], rfl, rfl⟩
  | case2 => cases h
  | case3 c cs =>
    cases h
    exact ⟨c :: cs, rfl, rfl⟩
  | case4 c cs n _ hle ih =>
    obtain ⟨text, htext, rfl⟩ := Option.map_eq_some_iff.1 h
    obtain ⟨after, rfl, hafter⟩ := ih htext
    exact ⟨after, rfl, by simp only [byteLength_cons]; omega⟩
  | case5 => cases h

namespace Span

/-- What a span slices out of a text is what it covers there. -/
theorem covers_of_slice? {s : Span} {source text : List Char} (h : s.slice? source = some text) :
    s.Covers source text := by
  unfold slice? at h
  split at h
  · rename_i hle
    obtain ⟨rest, hrest, htext⟩ := Option.bind_eq_some_iff.1 h
    obtain ⟨before, rfl, hstart⟩ := dropBytes_eq_some hrest
    obtain ⟨after, rfl, hlength⟩ := takeBytes_eq_some htext
    refine ⟨before, after, (List.append_assoc ..).symm, ?_⟩
    obtain ⟨start, stop⟩ := s
    simp only at hstart hlength hle
    rw [Span.mk.injEq]
    omega
  · cases h

/-- A span moves by the whole offset when it stays below the limit. -/
theorem shift_eq {s : Span} {offset : Nat} (hstart : s.start + offset < limit)
    (hstop : s.stop + offset < limit) :
    s.shift offset = ⟨s.start + offset, s.stop + offset⟩ := by
  simp only [shift, ofOffsets, Nat.mod_eq_of_lt hstart, Nat.mod_eq_of_lt hstop]

variable {outer inner : Span} {source content text : List Char}

/-- A span of a part of a text moves by the offset of the part. -/
theorem Covers.shift_eq (hsize : byteLength source < limit) (houter : outer.Covers source content)
    (hinner : inner.Covers content text) :
    inner.shift outer.start = ⟨inner.start + outer.start, inner.stop + outer.start⟩ := by
  have hstart := hinner.start_le
  have hstop := hinner.stop_le
  have hwhole := houter.stop_le
  have hlength : outer.stop = outer.start + byteLength content := by
    obtain ⟨before, after, -, rfl⟩ := houter
    rfl
  exact Span.shift_eq (by omega) (by omega)

/-- What a span covers in a part of a text, the moved span covers in the text. -/
theorem Covers.shift (hsize : byteLength source < limit) (houter : outer.Covers source content)
    (hinner : inner.Covers content text) : (inner.shift outer.start).Covers source text := by
  rw [houter.shift_eq hsize hinner]
  obtain ⟨before, after, rfl, rfl⟩ := houter
  obtain ⟨earlier, later, rfl, rfl⟩ := hinner
  refine ⟨before ++ earlier, later ++ after, by simp, ?_⟩
  simp only [byteLength_append, Span.mk.injEq]
  omega

end Span

/-! ## The order of findings -/

namespace Finding

/-- The findings of two lists in one list, by where they start. Findings that start at one place
stand in the order that they had, those of the first list before those of the second. -/
structure Merged (first second sorted : List Finding) : Prop where
  by_start : sorted.Pairwise fun f g => f.span.start ≤ g.span.start
  ties : ∀ start, sorted.filter (·.span.start == start) =
    first.filter (·.span.start == start) ++ second.filter (·.span.start == start)

theorem pairwise_sortByStart (fs : List Finding) :
    (sortByStart fs).Pairwise fun f g => f.span.start ≤ g.span.start := by
  have hsorted : (sortByStart fs).Pairwise fun f g => decide (f.span.start ≤ g.span.start) :=
    List.pairwise_mergeSort (fun f g h => by simpa using Nat.le_trans)
      (fun f g => by simpa using Nat.le_total _ _) fs
  simpa using hsorted

/-- Sorting keeps the order of the findings that start at one place. -/
theorem filter_sortByStart (fs : List Finding) (start : Nat) :
    (sortByStart fs).filter (·.span.start == start) = fs.filter (·.span.start == start) := by
  have hties : (fs.filter (·.span.start == start)).Pairwise fun f g =>
      decide (f.span.start ≤ g.span.start) := by
    refine List.pairwise_of_forall_mem_list fun f hf g hg => ?_
    simp only [List.mem_filter, beq_iff_eq] at hf hg
    simp [hf.2, hg.2]
  have hsub := List.sublist_mergeSort (fun f g h => by simpa using Nat.le_trans)
    (fun f g => by simpa using Nat.le_total _ _) hties List.filter_sublist
  have hfilter := hsub.filter (·.span.start == start)
  rw [List.filter_filter] at hfilter
  simp only [Bool.and_self] at hfilter
  exact (hfilter.eq_of_length ((List.mergeSort_perm fs _).filter _).length_eq.symm).symm

theorem merged_sortByStart (first second : List Finding) :
    Merged first second (sortByStart (first ++ second)) :=
  ⟨pairwise_sortByStart _, fun start => by rw [filter_sortByStart, List.filter_append]⟩

end Finding

namespace Setup

open Block

/-! ## The logic block of a file -/

/-- The block that a file is converted by: the first logic block of a file that splits without a
fault and has no logic block in the new style. -/
structure IsLogicBlock (source : String) (script : Block) : Prop where
  splits : (split source).error? = none
  first : ∃ earlier later, (split source).blocks = earlier ++ script :: later ∧
    script.kind = .script ∧ ∀ b ∈ earlier, b.kind ≠ .script
  old : ∀ b ∈ (split source).blocks, b.kind = .script → b.hasAttribute "setup" = false

variable {source : String} {script : Block}

theorem IsLogicBlock.ofKind? (h : IsLogicBlock source script) :
    Block.ofKind? (split source).blocks .script = some script := by
  obtain ⟨earlier, later, hblocks, hkind, hearlier⟩ := h.first
  rw [Block.ofKind?, hblocks, List.find?_append,
    List.find?_eq_none.2 fun b hb => by simpa using hearlier b hb]
  simp [hkind]

theorem isLogicBlock_of_ofKind? (hsplits : (split source).error? = none)
    (hfirst : Block.ofKind? (split source).blocks .script = some script)
    (hold : (Block.ofKind (split source).blocks .script).any (·.hasAttribute "setup") = false) :
    IsLogicBlock source script := by
  obtain ⟨hkind, earlier, later, hblocks, hearlier⟩ := List.find?_eq_some_iff_append.1 hfirst
  refine ⟨hsplits, ⟨earlier, later, hblocks, by simpa using hkind, fun b hb => ?_⟩,
    fun b hb hscript => ?_⟩
  · simpa using hearlier b hb
  · have hb' := List.any_eq_false.1 hold b (List.mem_filter.2 ⟨hb, by simpa using hscript⟩)
    simpa using hb'

/-- The file covers the content of its logic block. -/
theorem IsLogicBlock.covers (h : IsLogicBlock source script)
    (hsize : byteLength source.toList < Span.limit) :
    script.contentSpan.Covers source.toList script.content.toList := by
  have hmem : script ∈ (split source).blocks := List.mem_of_find?_eq_some h.ofKind?
  obtain ⟨passed, hscan⟩ := split_scan hsize
  obtain ⟨earlier, opening, closing, after, hsource, hlaid⟩ := (hscan.laidOut hsize).1 script hmem
  exact hlaid.contentSpan_covers hsource

/-! ## The outcomes of a file -/

/-- What the logic block of a file becomes on its own. -/
def convertContent (script : Block) (o : Options) : Except ScriptError Converted :=
  convertScript script.content (Script.Lang.ofAttr script.lang?) o

/-- The converted file with these blocks, where the logic block becomes `c`. -/
def convertedAround (blocks : List Block) (script : Block) (c : Converted) : Converted :=
  ⟨fileText (renderBlocks c.code blocks), c.findings.map (·.shift script.contentSpan.start)⟩

/-- A file with a logic block becomes what the block becomes, at its place. -/
theorem IsLogicBlock.convertFile_eq (h : IsLogicBlock source script) (o : Options) :
    convertFile source o = match convertContent script o with
      | .error fault => .error (.script (fault.shift script.contentSpan.start))
      | .ok c => .ok (.converted (convertedAround (split source).blocks script c)) := by
  have hold : (Block.ofKind (split source).blocks .script).any (·.hasAttribute "setup") =
      false := by
    refine List.any_eq_false.2 fun b hb => ?_
    obtain ⟨hb, hkind⟩ := List.mem_filter.1 hb
    simpa using h.old b hb (by simpa using hkind)
  have hblock : convertFile source o =
      (convertBlocks (split source).blocks script o).map .converted := by
    simp [convertFile, h.splits, h.ofKind?, hold]
  rw [hblock]
  unfold convertBlocks convertContent
  cases convertScript script.content (Script.Lang.ofAttr script.lang?) o with
  | error fault | ok c => rfl

/-- A file is faulty, is skipped or has a logic block. -/
theorem convertFile_cases (source : String) (o : Options) :
    (∃ e, (split source).error? = some e ∧ convertFile source o = .error (.blocks e)) ∨
      ((split source).error? = none ∧ ∃ reason, convertFile source o = .ok (.skipped reason)) ∨
      ∃ script, IsLogicBlock source script := by
  cases herror : (split source).error? with
  | some e => exact .inl ⟨e, rfl, by simp [convertFile, herror]⟩
  | none =>
    cases hfirst : Block.ofKind? (split source).blocks .script with
    | none => exact .inr (.inl ⟨rfl, .noScript, by simp [convertFile, herror, hfirst]⟩)
    | some script =>
      cases hold : (Block.ofKind (split source).blocks .script).any (·.hasAttribute "setup") with
      | true => exact .inr (.inl ⟨rfl, .alreadySetup, by simp [convertFile, herror, hfirst, hold]⟩)
      | false => exact .inr (.inr ⟨script, isLogicBlock_of_ofKind? herror hfirst hold⟩)

variable {o : Options}

theorem convertFile_eq_blocks_iff {e : BlockError} :
    convertFile source o = .error (.blocks e) ↔ (split source).error? = some e := by
  rcases convertFile_cases source o with ⟨e', herror, h⟩ | ⟨herror, reason, h⟩ | ⟨script, hscript⟩
  · simp [herror, h]
  · simp [herror, h]
  · cases hcontent : convertContent script o with
    | error fault | ok c => simp [hscript.convertFile_eq, hcontent, hscript.splits]

theorem convertFile_eq_script_iff {e : ScriptError} :
    convertFile source o = .error (.script e) ↔
      ∃ script fault, IsLogicBlock source script ∧ convertContent script o = .error fault ∧
        e = fault.shift script.contentSpan.start := by
  constructor
  · intro h
    rcases convertFile_cases source o with ⟨e', -, h'⟩ | ⟨-, reason, h'⟩ | ⟨script, hscript⟩
    · cases h.symm.trans h'
    · cases h.symm.trans h'
    · cases hcontent : convertContent script o with
      | error fault =>
        simp only [hscript.convertFile_eq, hcontent, Except.error.injEq,
          FileError.script.injEq] at h
        exact ⟨script, fault, hscript, hcontent, h.symm⟩
      | ok c => simp [hscript.convertFile_eq, hcontent] at h
  · rintro ⟨script, fault, hscript, hcontent, rfl⟩
    simp [hscript.convertFile_eq, hcontent]

theorem convertFile_eq_converted_iff {c : Converted} :
    convertFile source o = .ok (.converted c) ↔
      ∃ script converted, IsLogicBlock source script ∧ convertContent script o = .ok converted ∧
        c = convertedAround (split source).blocks script converted := by
  constructor
  · intro h
    rcases convertFile_cases source o with ⟨e', -, h'⟩ | ⟨-, reason, h'⟩ | ⟨script, hscript⟩
    · cases h.symm.trans h'
    · cases h.symm.trans h'
    · cases hcontent : convertContent script o with
      | error fault => simp [hscript.convertFile_eq, hcontent] at h
      | ok converted =>
        simp only [hscript.convertFile_eq, hcontent, Except.ok.injEq,
          Outcome.converted.injEq] at h
        exact ⟨script, converted, hscript, hcontent, h.symm⟩
  · rintro ⟨script, converted, hscript, hcontent, rfl⟩
    simp [hscript.convertFile_eq, hcontent]

theorem ScriptError.span_shift (e : ScriptError) (offset : Nat) :
    (e.shift offset).span = e.span.shift offset := by
  cases e <;> rfl

theorem ScriptError.message_shift (e : ScriptError) (offset : Nat) :
    (e.shift offset).message = e.message := by
  cases e with
  | notModule fault | decorator fault => rfl

/-- What a file says about places, for every outcome. A fault of the blocks is given as it is. A
fault of the logic block and the findings about it are those of its content, moved by the offset of
the content, and the findings are in order: those about the tables and those about the writing, by
where they start. A moved place shows what the place shows in the content. -/
theorem convertFile_points_into_file (source : String) (o : Options)
    (hsize : byteLength source.toList < Span.limit) :
    (∀ e, convertFile source o = .error (.blocks e) ↔ (split source).error? = some e) ∧
      (∀ e, convertFile source o = .error (.script e) ↔
        ∃ script fault, IsLogicBlock source script ∧ convertContent script o = .error fault ∧
          e = fault.shift script.contentSpan.start) ∧
      (∀ c, convertFile source o = .ok (.converted c) →
        ∃ script converted t, IsLogicBlock source script ∧
          convertContent script o = .ok converted ∧
          c.findings = converted.findings.map (·.shift script.contentSpan.start) ∧
          scriptTables script.content (Script.Lang.ofAttr script.lang?) o = .ok t ∧
          Finding.Merged t.findings
            (writeParts (Scope.ofTables script.content.toList t) t).findings
            converted.findings) ∧
      (∀ (fault : ScriptError) offset, (fault.shift offset).span = fault.span.shift offset ∧
        (fault.shift offset).message = fault.message) ∧
      ∀ script, IsLogicBlock source script → ∀ (span : Span) text,
        span.slice script.content = some text →
          (span.shift script.contentSpan.start).slice source = some text ∧
            span.shift script.contentSpan.start =
              ⟨span.start + script.contentSpan.start, span.stop + script.contentSpan.start⟩ := by
  refine ⟨fun e => convertFile_eq_blocks_iff, fun e => convertFile_eq_script_iff, fun c h => ?_,
    fun fault offset => ⟨fault.span_shift offset, fault.message_shift offset⟩,
    fun script hscript span text htext => ?_⟩
  · obtain ⟨script, converted, hscript, hcontent, rfl⟩ := convertFile_eq_converted_iff.1 h
    obtain ⟨t, htables, rfl⟩ := convertScript_eq_ok.1 hcontent
    exact ⟨script, _, t, hscript, hcontent, rfl, htables, Finding.merged_sortByStart _ _⟩
  · obtain ⟨chars, hchars, rfl⟩ := Option.map_eq_some_iff.1 htext
    have hinner := Span.covers_of_slice? hchars
    have houter := hscript.covers hsize
    exact ⟨(houter.shift hsize hinner).slice, houter.shift_eq hsize hinner⟩

/-- Two findings that start at one place, behind a character of two bytes. -/
def tiedSource : String :=
  "é<script>@Component export default class A \x7b f() \x7b this.a`é`; \x7d \x7d</script>"

/-- The logic block of `tiedSource`. -/
def tiedBlock : Block :=
  ⟨"script", ⟨2, 76⟩, ⟨10, 67⟩,
    "@Component export default class A \x7b f() \x7b this.a`é`; \x7d \x7d", []⟩

/-- The finding about the tables comes first, and both point at their text in the file. -/
theorem tied_findings_point_into_file :
    byteLength tiedSource.toList < Span.limit ∧
      ∃ c, convertFile tiedSource {} = .ok (.converted c) ∧
        c.findings.map (fun f => (f.cause, f.span.slice tiedSource)) =
          [(.undeclared "a", some "this.a"), (.replacedExpr "tagged template", some "this.a`é`")] ∧
        ∃ script converted t, IsLogicBlock tiedSource script ∧
          convertContent script {} = .ok converted ∧
          c.findings = converted.findings.map (·.shift script.contentSpan.start) ∧
          scriptTables script.content (Script.Lang.ofAttr script.lang?) {} = .ok t ∧
          Finding.Merged t.findings
            (writeParts (Scope.ofTables script.content.toList t) t).findings
            converted.findings := by
  have hsize : byteLength tiedSource.toList < Span.limit := by decide +kernel
  have hblocks : split tiedSource = ⟨[tiedBlock], []⟩ := by decide +kernel
  have hblock : IsLogicBlock tiedSource tiedBlock := by
    refine ⟨by rw [hblocks]; rfl, ⟨[], [], by rw [hblocks]; rfl, rfl, nofun⟩, fun b hb _ => ?_⟩
    rw [hblocks] at hb
    cases List.mem_singleton.1 hb
    rfl
  obtain ⟨t, ht, hfindings⟩ := exists_ok_of_any (x := scriptTables tiedBlock.content .javaScript {})
    (p := fun t => t.findings ++ (writeParts (Scope.ofTables tiedBlock.content.toList t) t).findings
      == [⟨.undeclared "a", ⟨42, 48⟩⟩, ⟨.replacedExpr "tagged template", ⟨42, 52⟩⟩])
    (by decide +kernel)
  have hfile := convertFile_eq_converted_iff.2
    ⟨tiedBlock, _, hblock, convertScript_eq_ok.2 ⟨t, ht, rfl⟩, rfl⟩
  refine ⟨hsize, _, hfile, ?_, (convertFile_points_into_file tiedSource {} hsize).2.2.1 _ hfile⟩
  have hsorted : (convertTables tiedBlock.content.toList "vue" t).findings =
      [⟨.undeclared "a", ⟨42, 48⟩⟩, ⟨.replacedExpr "tagged template", ⟨42, 52⟩⟩] := by
    rw [convertTables, eq_of_beq hfindings]
    exact List.mergeSort_of_pairwise (by decide)
  show (List.map _ (List.map _ (convertTables _ _ t).findings)) = _
  rw [hsorted]
  decide +kernel

end Setup

end ScriptSetup
