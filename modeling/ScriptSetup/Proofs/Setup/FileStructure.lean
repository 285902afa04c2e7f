import ScriptSetup.Proofs.Block.Reemission
import ScriptSetup.Proofs.Result

/-!
# The blocks of a converted file

A converted file has the blocks of its source, in the same order and of the same shape, but for
the first logic block: that has `setup` in front of its attributes and the converted body as its
content. This holds exactly when the body does not hold a closing tag of the block, which the
conversion does not look for: a text that the source spells with an escape is written plainly.
-/

set_option autoImplicit false

namespace ScriptSetup.Setup

open Block

variable {b : Block} {blocks : List Block} {body : String}

/-! ## The blocks that are meant -/

/-- A logic block in the new style: `setup` in front of its attributes, and a new content. -/
def setupForm (body : String) (b : Block) : Block :=
  { b with
    attributes := ⟨"setup", .bare, default⟩ :: b.attributes
    content := "\n" ++ body ++ "\n" }

/-- The blocks with the first logic block in the new style. -/
def withSetup (body : String) : List Block → List Block
  | [] => []
  | b :: rest => if b.kind = .script then setupForm body b :: rest else b :: withSetup body rest

theorem name_of_kind_script (h : b.kind = .script) : b.name = "script" := by
  unfold Block.kind Kind.ofTag at h
  split at h
  · cases h
  · assumption
  · cases h
  · cases h

theorem render_setupForm (body : String) (h : b.kind = .script) :
    (setupForm body b).render = setupBlock body b.attributes := by
  have hsetup : (Attribute.render ⟨"setup", .bare, default⟩).toList = " setup".toList := rfl
  have hopen : "<script setup".toList = '<' :: ("script".toList ++ " setup".toList) := by decide
  have hstart : ">\n".toList = '>' :: "\n".toList := by decide
  have hstop : "\n</script>".toList = "\n".toList ++ closeTag "script".toList := by decide
  apply String.toList_inj.1
  rw [render_toList (setupForm body b)]
  unfold setupBlock
  simp only [setupForm, name_of_kind_script h, renderAttributes_cons, hsetup, String.toList_append,
    hopen, hstart, hstop, List.append_assoc, List.cons_append]

/-- The text of a converted file is that of the blocks that are meant. -/
theorem renderBlocks_eq (body : String) (blocks : List Block) :
    renderBlocks body blocks = (withSetup body blocks).map Block.render := by
  induction blocks with
  | nil => rfl
  | cons b blocks ih =>
    by_cases hkind : b.kind = .script
    · simp [renderBlocks, withSetup, hkind, render_setupForm body hkind]
    · simp [renderBlocks, withSetup, hkind, ih]

theorem mem_withSetup (h : b ∈ withSetup body blocks) :
    b ∈ blocks ∨ ∃ script ∈ blocks, script.kind = .script ∧ b = setupForm body script := by
  induction blocks with
  | nil => simp [withSetup] at h
  | cons first rest ih =>
    by_cases hkind : first.kind = .script
    · simp only [withSetup, hkind, if_true, List.mem_cons] at h
      rcases h with rfl | h
      · exact Or.inr ⟨first, List.mem_cons_self, hkind, rfl⟩
      · exact Or.inl (List.mem_cons_of_mem first h)
    · simp only [withSetup, hkind, if_false, List.mem_cons] at h
      rcases h with rfl | h
      · exact Or.inl List.mem_cons_self
      · rcases ih h with h | ⟨script, hscript, hrest⟩
        · exact Or.inl (List.mem_cons_of_mem first h)
        · exact Or.inr ⟨script, List.mem_cons_of_mem first hscript, hrest⟩

theorem setupForm_mem_withSetup {script : Block} (body : String)
    (h : Block.ofKind? blocks .script = some script) :
    setupForm body script ∈ withSetup body blocks := by
  induction blocks with
  | nil => simp [Block.ofKind?] at h
  | cons first rest ih =>
    by_cases hkind : first.kind = .script
    · have hfirst : first = script := by simpa [Block.ofKind?, hkind] using h
      subst hfirst
      simp [withSetup, hkind]
    · have hrest : Block.ofKind? rest .script = some script := by
        simpa [Block.ofKind?, hkind] using h
      simp [withSetup, hkind, ih hrest]

/-! ## When they can be written -/

/-- The body ends the logic block that it is written into. -/
def endsEarly (body : String) : Bool :=
  holdsCloseTag "script".toList ("\n" ++ body ++ "\n").toList

theorem setupForm_writable (hb : b.Writable) (hkind : b.kind = .script)
    (hbody : endsEarly body = false) : (setupForm body b).Writable := by
  refine ⟨hb.name_starts, hb.name_chars, ?_, ?_⟩
  · refine List.forall_mem_cons.2 ⟨⟨?_, ?_, by simp⟩, hb.attributes⟩
    · show "setup".toList ≠ []
      decide
    · exact List.all_eq_true.1 (show "setup".toList.all isTagNameChar = true by decide)
  · intro rest
    have hname := name_of_kind_script hkind
    simp only [setupForm, hname]
    exact findClose_of_not_holdsCloseTag (by decide) (by decide) hbody rest

/-- A block that can be written and does not nest holds no closing tag of its own. -/
theorem not_holdsCloseTag_of_writable (hb : b.Writable) (hname : b.name.toList ≠ nestingTag) :
    holdsCloseTag b.name.toList b.content.toList = false := by
  have hcloses := hb.content_closes []
  have hnested : (b.name.toList == nestingTag) = false := by simpa using hname
  rw [hnested] at hcloses
  have hlt := not_mem_of_name_chars hb.name_chars (c := '<') (by decide)
  exact not_holdsCloseTag_of_findClose hlt hcloses

/-! ## Files in the new style -/

theorem hasAttribute_of_mem_pairs {name : String} {value : AttributeValue}
    (h : (name, value) ∈ b.attributes.map Attribute.pair) : b.hasAttribute name = true := by
  obtain ⟨a, ha, hpair⟩ := List.mem_map.1 h
  have hname : a.name = name := congrArg Prod.fst hpair
  rw [Block.hasAttribute, Block.attribute?, List.find?_isSome]
  exact ⟨a, ha, by simpa using hname⟩

/-- A file with a logic block in the new style is skipped. -/
theorem convertFile_of_setup {source : String} (o : Options) (herror : (split source).error? = none)
    (hb : b ∈ (split source).blocks) (hkind : b.kind = .script)
    (hsetup : b.hasAttribute "setup" = true) :
    convertFile source o = .ok (.skipped .alreadySetup) := by
  have hany : (Block.ofKind (split source).blocks .script).any (·.hasAttribute "setup") =
      true := by
    refine List.any_eq_true.2 ⟨b, ?_, hsetup⟩
    exact List.mem_filter.2 ⟨hb, by simpa using hkind⟩
  cases hfirst : Block.ofKind? (split source).blocks .script with
  | none =>
    have hnone := List.find?_eq_none.1 hfirst b hb
    simp [hkind] at hnone
  | some script => simp [convertFile, herror, hfirst, hany]

/-- What a conversion of a file comes from. -/
theorem convertFile_eq_converted {source : String} {o : Options} {c : Converted}
    (h : convertFile source o = .ok (.converted c)) :
    ∃ script converted, Block.ofKind? (split source).blocks .script = some script ∧
      convertScript script.content (Script.Lang.ofAttr script.lang?) o = .ok converted ∧
      c.code = fileText ((withSetup converted.code (split source).blocks).map Block.render) := by
  unfold convertFile at h
  simp only at h
  split at h
  · cases h
  · split at h
    · cases h
    · rename_i script hscript
      split at h
      · cases h
      · unfold convertBlocks at h
        simp only at h
        split at h
        · cases h
        · rename_i converted hconverted
          cases h
          exact ⟨script, converted, hscript, hconverted, by rw [renderBlocks_eq]⟩

/-! ## Conversion keeps the blocks -/

/-- The text splits without a fault into blocks of the given shapes. -/
def SplitsInto (text : String) (blocks : List Block) : Prop :=
  (split text).errors = [] ∧ (split text).blocks.map Block.shape = blocks.map Block.shape

theorem splitsInto_withSetup (hblocks : ∀ b ∈ blocks, b.Writable) (hbody : endsEarly body = false)
    (hsize : Text.byteLength (fileText ((withSetup body blocks).map Block.render)).toList <
      Span.limit) :
    SplitsInto (fileText ((withSetup body blocks).map Block.render)) (withSetup body blocks) := by
  have hwritable : ∀ b ∈ withSetup body blocks, b.Writable := by
    intro b hb
    rcases mem_withSetup hb with hb | ⟨script, hscript, hkind, rfl⟩
    · exact hblocks b hb
    · exact setupForm_writable (hblocks script hscript) hkind hbody
  obtain ⟨blocks', hsplit, hshapes⟩ := split_fileText hwritable hsize
  rw [SplitsInto, hsplit]
  exact ⟨rfl, hshapes⟩

theorem exists_setup_of_splitsInto {text : String} {script : Block}
    (hscript : Block.ofKind? blocks .script = some script)
    (h : SplitsInto text (withSetup body blocks)) :
    ∃ b ∈ (split text).blocks, b.kind = .script ∧ b.hasAttribute "setup" = true ∧
      b.content = "\n" ++ body ++ "\n" := by
  have hmem : (setupForm body script).shape ∈ (split text).blocks.map Block.shape := by
    rw [h.2]
    exact List.mem_map_of_mem (setupForm_mem_withSetup body hscript)
  obtain ⟨b, hb, hshape⟩ := List.mem_map.1 hmem
  obtain ⟨hname, hattributes, hcontent⟩ := shape_eq_iff.1 hshape
  refine ⟨b, hb, ?_, ?_, hcontent⟩
  · have hkind : script.kind = .script := by simpa using List.find?_some hscript
    rw [Block.kind, hname]
    exact hkind
  · have hpair : ("setup", AttributeValue.bare) ∈ b.attributes.map Attribute.pair := by
      rw [hattributes]
      exact List.mem_cons_self
    exact hasAttribute_of_mem_pairs hpair

/-- A converted file has the blocks of its source, the first logic block in the new style, and is
seen to be converted, exactly when the converted body holds no closing tag of the block. -/
theorem convertFile_keeps_blocks_iff {source : String} {o : Options} {c : Converted}
    (h : convertFile source o = .ok (.converted c))
    (hsize : Text.byteLength c.code.toList < Span.limit) :
    ∃ script converted, Block.ofKind? (split source).blocks .script = some script ∧
      convertScript script.content (Script.Lang.ofAttr script.lang?) o = .ok converted ∧
      ((SplitsInto c.code (withSetup converted.code (split source).blocks) ∧
          ∀ o', convertFile c.code o' = .ok (.skipped .alreadySetup)) ↔
        endsEarly converted.code = false) := by
  obtain ⟨script, converted, hscript, hconverted, hcode⟩ := convertFile_eq_converted h
  refine ⟨script, converted, hscript, hconverted, ?_⟩
  constructor
  · rintro ⟨hsplits, -⟩
    obtain ⟨b, hb, hkind, -, hcontent⟩ := exists_setup_of_splitsInto hscript hsplits
    have hname := name_of_kind_script hkind
    have hnot := not_holdsCloseTag_of_writable (split_writable c.code b hb)
      (by rw [hname]; decide)
    rw [hname, hcontent] at hnot
    exact hnot
  · intro hbody
    have hsplits : SplitsInto c.code (withSetup converted.code (split source).blocks) := by
      rw [hcode] at hsize ⊢
      exact splitsInto_withSetup (split_writable source) hbody hsize
    refine ⟨hsplits, fun o' => ?_⟩
    obtain ⟨b, hb, hkind, hsetup, -⟩ := exists_setup_of_splitsInto hscript hsplits
    exact convertFile_of_setup o' (by rw [Split.error?, hsplits.1]; rfl) hb hkind hsetup

/-- A class with a field and a method that uses it, behind a style. -/
def counterSource : String :=
  "<style/><script a='\"'>@Component export default class A \x7b n = 1; " ++
    "up() \x7b this.n++; \x7d \x7d</script>"

/-- Both blocks are kept. -/
theorem convertFile_keeps_blocks_of_counter :
    ∃ c, convertFile counterSource {} = .ok (.converted c) ∧
      ∃ script converted, Block.ofKind? (split counterSource).blocks .script = some script ∧
        convertScript script.content (Script.Lang.ofAttr script.lang?) {} = .ok converted ∧
        ((SplitsInto c.code (withSetup converted.code (split counterSource).blocks) ∧
            ∀ o', convertFile c.code o' = .ok (.skipped .alreadySetup)) ↔
          endsEarly converted.code = false) := by
  have hok : convertFile counterSource {} =
      .ok (.converted ⟨"<style></style>\n\n<script setup a='\"'>\nlet n = 1;\n\n" ++
        "function up() \x7b\n  n++;\n\x7d\n</script>\n", []⟩) :=
    eq_ok_of_toOption (by decide +kernel)
  exact ⟨_, hok, convertFile_keeps_blocks_iff hok (by decide +kernel)⟩

theorem split_of_toList {source : String} {cs : List Char} (h : source.toList = cs) :
    split source = splitFrom cs (cs.length + 1) 0 cs := h ▸ rfl

/-- An event name that is spelled with an escape ends the converted block: the converted file
cannot be split. -/
theorem converted_event_name_ends_block :
    ∃ code, convertFile
        ("<script>@Component export default class A \x7b " ++
          "@Emit('<\\/script>') go() \x7b\x7d \x7d</script>") {} = .ok (.converted ⟨code, []⟩) ∧
      convertFile code {} = .error (.blocks ⟨.unclosedBlock "Emits", ⟨85, 92⟩⟩) := by
  refine ⟨"<script setup>\ninterface Emits \x7b\n  (e: '</script>'): void,\n\x7d\n" ++
    "const emit = defineEmits<Emits>();\n\nfunction go() \x7b\n  emit('</script>');\n\x7d\n" ++
    "</script>\n", eq_ok_of_toOption (by decide +kernel), ?_⟩
  have herror : (split ("<script setup>\ninterface Emits \x7b\n  (e: '</script>'): void,\n\x7d\n" ++
      "const emit = defineEmits<Emits>();\n\nfunction go() \x7b\n  emit('</script>');\n\x7d\n" ++
      "</script>\n")).error? = some ⟨.unclosedBlock "Emits", ⟨85, 92⟩⟩ := by
    rw [split_of_toList (toList_append_ofList (toList_append_ofList String.toList_ofList))]
    decide +kernel
  rw [convertFile, herror]

end ScriptSetup.Setup
