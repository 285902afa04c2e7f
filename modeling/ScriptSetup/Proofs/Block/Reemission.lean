import ScriptSetup.Proofs.Block.Places
import ScriptSetup.Setup.File

/-!
# Blocks that are written again

A block that was read can be written, and a file of written blocks is split into blocks of the
same shape: the same names, attributes and contents in the same order. Only places differ. This
takes a file of fewer than `Span.limit` bytes: in a longer one the scan loses its place.
-/

set_option autoImplicit false

namespace ScriptSetup

open Text

namespace Block

variable {b : Block} {before cs rest : List Char} {blocks : List Block}

/-- What a block says, wherever it stands. -/
structure Shape where
  kind : Kind
  name : String
  attributes : List (String × AttributeValue)
  content : String
  deriving DecidableEq, Repr

/-- The block without its places. -/
def shape (b : Block) : Shape :=
  ⟨b.kind, b.name, b.attributes.map Attribute.pair, b.content⟩

theorem shape_eq_iff {c : Block} : b.shape = c.shape ↔
      b.name = c.name ∧ b.attributes.map Attribute.pair = c.attributes.map Attribute.pair ∧
        b.content = c.content := by
  simp only [shape, kind, Shape.mk.injEq]
  constructor
  · rintro ⟨-, hname, hattributes, hcontent⟩
    exact ⟨hname, hattributes, hcontent⟩
  · rintro ⟨hname, hattributes, hcontent⟩
    exact ⟨by rw [hname], hname, hattributes, hcontent⟩

/-- The block can be written: its name and attributes are read as such, and the search for its
closing tag ends behind its content. -/
structure Writable (b : Block) : Prop where
  name_starts : b.name.toList.head?.any startsTagName = true
  name_chars : ∀ c ∈ b.name.toList, isTagNameChar c = true
  attributes : ∀ a ∈ b.attributes, a.Writable
  content_closes : ∀ rest,
    findClose b.name.toList (b.name.toList == nestingTag) ⟨0, none⟩
        (b.content.toList ++ closeTag b.name.toList ++ rest) =
      some ⟨b.content.toList, closeTag b.name.toList, rest⟩

/-! ## One block -/

/-- Every block that is read can be written. -/
theorem read_writable {source : List Char} {start : Nat}
    (hstart : cs.head?.any startsTagName = true) (h : read source start cs = .ok b) :
    b.Writable := by
  have hchars : ∀ c ∈ cs.takeWhile isTagNameChar, isTagNameChar c = true :=
    List.all_eq_true.1 List.all_takeWhile
  have hgt := not_mem_of_name_chars hchars (c := '>') (by decide)
  simp only [read] at h
  split at h
  · cases h
  · rename_i header hheader
    have hattributes := Header.read_writable hheader
    split at h
    · cases h
      refine ⟨?_, ?_, hattributes, ?_⟩
      · simpa using takeWhile_starts hstart
      · simpa using hchars
      · intro rest'
        simpa using findClose_here hgt _ rest'
    · split at h
      · cases h
      · rename_i closed hclosed
        cases h
        refine ⟨?_, ?_, hattributes, ?_⟩
        · simpa using takeWhile_starts hstart
        · simpa using hchars
        · intro rest'
          have hlt := not_mem_of_name_chars hchars (c := '<') (by decide)
          simpa using findClose_closeTag hlt hgt hclosed rest'

/-- The characters of a written block after its first `<`. -/
theorem render_toList (b : Block) :
    b.render.toList = '<' :: (b.name.toList ++ ((renderAttributes b.attributes).toList ++
      '>' :: (b.content.toList ++ closeTag b.name.toList))) := by
  simp [render, renderParts, closeTag]

/-- A written block is read with its shape, up to its end. -/
theorem read_render (hb : b.Writable)
    (hsize : byteLength (before ++ (b.render.toList ++ rest)) < Span.limit)
    (hcs : b.render.toList ++ rest = '<' :: cs) :
    ∃ b', read (before ++ '<' :: cs) (byteLength before) cs = .ok b' ∧ b'.shape = b.shape ∧
      b'.span.stop = byteLength (before ++ b.render.toList) := by
  have hends := endsName_renderAttributes b.attributes
    (b.content.toList ++ closeTag b.name.toList ++ rest)
  obtain ⟨header, hheader, hattributes, hself, hstop⟩ :=
    Header.read_renderAttributes (byteLength before) b.name
      (byteLength before + 1 + byteLength b.name.toList) hb.attributes
      (b.content.toList ++ closeTag b.name.toList ++ rest)
  -- the text up to the `>` of the opening tag, and the rest of the written block
  let opening := '<' :: (b.name.toList ++ (renderAttributes b.attributes).toList ++ ['>'])
  have hrender : b.render.toList = opening ++ (b.content.toList ++ closeTag b.name.toList) := by
    simp [render_toList, opening]
  have hwhole : before ++ '<' :: cs =
      before ++ opening ++ (b.content.toList ++ closeTag b.name.toList ++ rest) := by
    simp [← hcs, hrender]
  have hcs' : cs = b.name.toList ++ ((renderAttributes b.attributes).toList ++
      '>' :: (b.content.toList ++ closeTag b.name.toList ++ rest)) := by
    rw [hrender] at hcs
    simpa [opening] using (List.cons.inj hcs).2.symm
  have hlt : byteLength (before ++ b.render.toList) < Span.limit := by
    rw [← List.append_assoc] at hsize
    exact Nat.lt_of_le_of_lt (byteLength_le_append _ _) hsize
  have hopening : header.stop = byteLength (before ++ opening) := by
    rw [hrender, ← List.append_assoc] at hlt
    have hlength : byteLength before + 1 + byteLength b.name.toList +
        byteLength (renderAttributes b.attributes).toList + 1 = byteLength (before ++ opening) := by
      simp [opening, show '>'.utf8Size = 1 from rfl, Nat.add_assoc]
    rw [hstop, hlength, Nat.mod_eq_of_lt (Nat.lt_of_le_of_lt (byteLength_le_append _ _) hlt)]
  subst hcs'
  have hresume : resume (before ++ opening ++ (b.content.toList ++ closeTag b.name.toList ++ rest))
      header.stop = b.content.toList ++ closeTag b.name.toList ++ rest := by
    rw [hopening, resume_append]
  simp only [read, takeWhile_name hb.name_chars hends, dropWhile_name hb.name_chars hends,
    String.ofList_toList, hheader, hself, hwhole, hresume, hb.content_closes rest,
    Bool.false_eq_true, if_false]
  refine ⟨_, rfl, shape_eq_iff.2 ⟨rfl, hattributes, rfl⟩, ?_⟩
  have hend : header.stop + byteLength b.content.toList + byteLength (closeTag b.name.toList) =
      byteLength (before ++ b.render.toList) := by
    rw [hopening, hrender]
    simp [Nat.add_assoc]
  rw [Span.ofOffsets, hend, Nat.mod_eq_of_lt hlt]

/-! ## A whole file -/

/-- Every block of a component file can be written. -/
theorem splitFrom_writable (source : List Char) (steps offset : Nat) (cs : List Char) :
    ∀ b ∈ (splitFrom source steps offset cs).blocks, b.Writable := by
  fun_induction splitFrom source steps offset cs with
  | case1 | case2 | case4 | case5 => simp
  | case3 steps offset cs _ comment rest _ ih => exact ih
  | case6 steps offset cs _ hstart block hread stop later ih =>
    exact List.forall_mem_cons.2 ⟨read_writable hstart hread, ih⟩
  | case7 steps offset cs _ _ ih | case8 steps offset c cs _ ih => exact ih

theorem split_writable (source : String) : ∀ b ∈ (split source).blocks, b.Writable :=
  splitFrom_writable _ _ _ _

/-- A written block is the first block of the text that it starts. -/
theorem scan_render {passed : List Span} {s : Split} (hb : b.Writable)
    (hsize : byteLength (before ++ (b.render.toList ++ rest)) < Span.limit)
    (hmore : Scan (before ++ b.render.toList) rest passed s) :
    ∃ b' : Block, b'.shape = b.shape ∧ Scan before (b.render.toList ++ rest) (b'.span :: passed)
      ⟨b' :: s.blocks, s.errors⟩ := by
  obtain ⟨text, htext⟩ : ∃ text, b.render.toList = '<' :: text := ⟨_, render_toList b⟩
  have hall : b.render.toList ++ rest = '<' :: (text ++ rest) := by rw [htext]; rfl
  obtain ⟨b', hread, hshape, hstop⟩ := read_render hb hsize hall
  refine ⟨b', hshape, ?_⟩
  rw [htext] at hstop hmore
  have hstarts : (text ++ rest).head?.any startsTagName = true := by
    have hname := hb.name_starts
    rw [render_toList] at htext
    rw [← (List.cons.inj htext).2]
    cases hchars : b.name.toList with
    | nil => simp [hchars] at hname
    | cons c cs => simpa [hchars] using hname
  exact hall ▸ .block hstarts hread rfl hstop hmore

/-- A file of written blocks is split without a fault into blocks of the same shape. -/
theorem scan_fileText (hblocks : ∀ b ∈ blocks, b.Writable) (before : List Char)
    (hsize : byteLength (before ++ (Setup.fileText (blocks.map render)).toList) < Span.limit) :
    ∃ passed blocks', Scan before (Setup.fileText (blocks.map render)).toList passed ⟨blocks', []⟩ ∧
      blocks'.map shape = blocks.map shape := by
  induction blocks generalizing before with
  | nil => exact ⟨_, _, .plain (by decide) .done, rfl⟩
  | cons b blocks ih =>
    obtain ⟨hb, hblocks⟩ := List.forall_mem_cons.1 hblocks
    cases blocks with
    | nil =>
      have htext : (Setup.fileText ([b].map render)).toList = b.render.toList ++ ['\n'] := by
        simp [Setup.fileText, join]
      rw [htext] at hsize ⊢
      obtain ⟨b', hshape, hscan⟩ := scan_render hb hsize (.plain (by decide) .done)
      exact ⟨_, _, hscan, by rw [List.map_cons, hshape]; rfl⟩
    | cons next blocks =>
      have htext : (Setup.fileText ((b :: next :: blocks).map render)).toList =
          b.render.toList ++ '\n' :: '\n' ::
            (Setup.fileText ((next :: blocks).map render)).toList := by
        simp [Setup.fileText, join]
      rw [htext] at hsize ⊢
      obtain ⟨passed, later, hmore, hshapes⟩ :=
        ih hblocks (before ++ b.render.toList ++ ['\n'] ++ ['\n']) (by simpa using hsize)
      obtain ⟨b', hshape, hscan⟩ :=
        scan_render hb hsize (.plain (by decide) (.plain (by decide) hmore))
      exact ⟨_, _, hscan, by rw [List.map_cons, hshapes, hshape]; rfl⟩

theorem split_fileText (hblocks : ∀ b ∈ blocks, b.Writable)
    (hsize : byteLength (Setup.fileText (blocks.map render)).toList < Span.limit) :
    ∃ blocks', split (Setup.fileText (blocks.map render)) = ⟨blocks', []⟩ ∧
      blocks'.map shape = blocks.map shape := by
  obtain ⟨passed, blocks', hscan, hshapes⟩ := scan_fileText hblocks [] hsize
  exact ⟨blocks', hscan.split_eq, hshapes⟩

/-! ## Writing twice -/

/-- What is written for a block of this shape. -/
def Shape.render (s : Shape) : String :=
  renderParts s.name (renderAttributes (s.attributes.map fun p => ⟨p.1, p.2, default⟩)) s.content

/-- Places do not show in what is written. -/
theorem render_shape (b : Block) : b.shape.render = b.render := by
  have hattributes : (b.attributes.map Attribute.pair).map
      (fun p => Attribute.render ⟨p.1, p.2, default⟩) = b.attributes.map Attribute.render := by
    rw [List.map_map]
    rfl
  simp only [Shape.render, render, shape, renderAttributes, ← hattributes, List.map_map]
  rfl

theorem map_render_eq_of_map_shape_eq {blocks' : List Block}
    (h : blocks.map shape = blocks'.map shape) : blocks.map render = blocks'.map render := by
  have hrender : (fun b : Block => b.shape.render) = render := funext render_shape
  have hmap (bs : List Block) : bs.map render = (bs.map shape).map Shape.render := by
    rw [List.map_map, ← hrender]
    rfl
  rw [hmap, hmap, h]

/-- A written block is the only block of its own text. -/
theorem split_render (hb : b.Writable) (hsize : byteLength b.render.toList < Span.limit) :
    ∃ b' : Block, split b.render = ⟨[b'], []⟩ ∧ b'.shape = b.shape := by
  rw [← List.append_nil b.render.toList] at hsize
  obtain ⟨b', hshape, hscan⟩ := @scan_render b [] [] _ _ hb hsize .done
  rw [List.append_nil] at hscan
  exact ⟨b', hscan.split_eq, hshape⟩

/-- The blocks of a file can be written and read again, where what is written is short enough:
each by itself, and all of them as one file, which is written as the same text from then on. -/
theorem split_reemitted (source : String) :
    (∀ b ∈ (split source).blocks, byteLength b.render.toList < Span.limit →
      ∃ b', split b.render = ⟨[b'], []⟩ ∧ b'.shape = b.shape) ∧
      (byteLength (Setup.fileText ((split source).blocks.map render)).toList < Span.limit →
        ∃ blocks, split (Setup.fileText ((split source).blocks.map render)) = ⟨blocks, []⟩ ∧
          blocks.map shape = (split source).blocks.map shape ∧
          Setup.fileText (blocks.map render) =
            Setup.fileText ((split source).blocks.map render)) := by
  refine ⟨fun b hb => split_render (split_writable source b hb), fun hsize => ?_⟩
  obtain ⟨blocks, hsplit, hshapes⟩ := split_fileText (split_writable source) hsize
  exact ⟨blocks, hsplit, hshapes, by rw [map_render_eq_of_map_shape_eq hshapes]⟩

/-- A tag that closes itself and one with other quotes and blanks are written in one form. -/
theorem two_blocks_reemitted :
    ∃ blocks, split (Setup.fileText ((split "<a b='c'/><d></d >").blocks.map render)) =
        ⟨blocks, []⟩ ∧
      blocks.map shape = (split "<a b='c'/><d></d >").blocks.map shape ∧
      Setup.fileText (blocks.map render) =
        Setup.fileText ((split "<a b='c'/><d></d >").blocks.map render) :=
  (split_reemitted "<a b='c'/><d></d >").2 (by decide +kernel)

theorem render_longBlock (n : Nat) (span contentSpan : Span) :
    render ⟨"a", span, contentSpan, String.ofList (longContent n), []⟩ =
      String.ofList (longSource n) := by
  refine String.toList_inj.1 ?_
  simp [render_toList, longSource, renderAttributes, join]

/-- A block that is too long is written as its own file, and that file has a fault. -/
theorem overlong_block_rejected : ∃ b ∈ (split overlong).blocks, b.render = overlong ∧
    ∀ b', split b.render ≠ ⟨[b'], []⟩ := by
  have hrender := render_longBlock Span.limit ⟨0, 9⟩ ⟨3, 5⟩
  refine ⟨_, split_overlong ▸ List.mem_singleton_self _, hrender, fun b' h => ?_⟩
  rw [hrender, ← overlong, split_overlong] at h
  cases h

end Block

end ScriptSetup
