import ScriptSetup.Block.Split

/-!
# Where the content of a block ends

The search for a closing tag looks ahead, but never past the `<` of the tag that it finds: a name
holds no `<`, and no tag name ends at one. So what follows a content can be exchanged for a plain
closing tag, and the search ends at the same place.
-/

set_option autoImplicit false

namespace ScriptSetup.Block

open Text

variable {name cs opening : List Char} {r : Closed} {nested : Bool} {state : CloseSearch}

/-- The closing tag of a block as it is written. -/
def closeTag (name : List Char) : List Char :=
  '<' :: '/' :: name ++ ['>']

/-- A closing tag of this name stands in the text. -/
def holdsCloseTag (name : List Char) : List Char → Bool
  | [] => false
  | c :: cs => atTag ('<' :: '/' :: name) (c :: cs) || holdsCloseTag name cs

theorem atTag_iff :
    atTag opening cs = true ↔ ∃ after, cs = opening ++ after ∧ endsTagName after = true := by
  rw [atTag, Bool.and_eq_true, List.isPrefixOf_iff_prefix]
  constructor
  · rintro ⟨⟨after, rfl⟩, hends⟩
    exact ⟨after, rfl, by simpa using hends⟩
  · rintro ⟨after, rfl, hends⟩
    exact ⟨List.prefix_append _ _, by simpa using hends⟩

/-- A text holds a closing tag when `</name` stands in it with `>`, `/` or white space behind. -/
theorem holdsCloseTag_iff {content : List Char} : holdsCloseTag name content = true ↔
      ∃ before after, content = before ++ ('<' :: '/' :: name) ++ after ∧
        endsTagName after = true := by
  induction content with
  | nil => simp [holdsCloseTag]
  | cons c content ih =>
    rw [holdsCloseTag, Bool.or_eq_true, atTag_iff, ih]
    constructor
    · rintro (⟨after, heq, hends⟩ | ⟨before, after, heq, hends⟩)
      · exact ⟨[], after, by simpa using heq, hends⟩
      · exact ⟨c :: before, after, by simp [heq], hends⟩
    · rintro ⟨before, after, heq, hends⟩
      cases before with
      | nil => exact Or.inl ⟨after, by simpa using heq, hends⟩
      | cons b before =>
        have htail : content = before ++ ('<' :: '/' :: name) ++ after := by
          have hboth := heq
          simp only [List.cons_append, List.cons.injEq] at hboth
          exact hboth.2
        exact Or.inr ⟨before, after, htail, hends⟩

/-! ## Looking ahead -/

/-- Whether a name ends in front of a `<` does not depend on what follows the `<`. -/
theorem isPrefixOf_endsTagName_append_lt (hopening : '<' ∉ opening) (w x : List Char) :
    (opening.isPrefixOf (w ++ '<' :: x) && endsTagName ((w ++ '<' :: x).drop opening.length)) =
      (opening.isPrefixOf w && endsTagName (w.drop opening.length)) := by
  induction opening generalizing w with
  | nil =>
    cases w with
    | nil => simp [endsTagName, isBlankChar]
    | cons d w => simp [endsTagName]
  | cons a opening ih =>
    obtain ⟨ha, hopening⟩ := not_or.1 (fun h => hopening (List.mem_cons.2 h))
    cases w with
    | nil => simp [List.isPrefixOf, Ne.symm ha]
    | cons d w =>
      simp only [List.cons_append, List.isPrefixOf, List.length_cons, List.drop_succ_cons,
        Bool.and_assoc, ih hopening w]

/-- A tag that starts in a text is seen in the text alone when a `<` follows. -/
theorem atTag_append_lt {w : List Char} (hopening : '<' ∉ opening) (hw : w ≠ []) (x : List Char) :
    atTag ('<' :: opening) (w ++ '<' :: x) = atTag ('<' :: opening) w := by
  cases w with
  | nil => exact absurd rfl hw
  | cons d w =>
    have h := isPrefixOf_endsTagName_append_lt hopening w x
    simp only [atTag, List.cons_append, List.isPrefixOf, List.length_cons, List.drop_succ_cons,
      Bool.and_assoc, h]

/-! ## One step of the search -/

/-- Where the search stands after the character `c`, or nothing when the block ends here. -/
def closeStep (name : List Char) (nested : Bool) (state : CloseSearch) (c : Char)
    (cs : List Char) : Option CloseSearch :=
  match state.inTag with
  | some slash =>
    if c = '>' then some ⟨if slash then state.depth else state.depth + 1, none⟩
    else some { state with inTag := some (c == '/') }
  | none =>
    if atTag ('<' :: '/' :: name) (c :: cs) then
      if state.depth = 0 then none else some { state with depth := state.depth - 1 }
    else if nested && atTag ('<' :: name) (c :: cs) then some { state with inTag := some false }
    else some state

theorem findClose_cons (name : List Char) (nested : Bool) (state : CloseSearch) (c : Char)
    (cs : List Char) :
    findClose name nested state (c :: cs) =
      match closeStep name nested state c cs with
      | none => closeHere (c :: cs)
      | some next =>
        (findClose name nested next cs).map fun r => { r with content := c :: r.content } := by
  obtain ⟨depth, inTag⟩ := state
  cases inTag with
  | some slash =>
    by_cases hc : c = '>'
    · simp [findClose, closeStep, hc]
    · simp [findClose, closeStep, hc]
  | none =>
    rw [findClose]
    simp only [closeStep]
    split
    · split
      · rfl
      · rfl
    · split
      · rfl
      · rfl

/-- A block ends only at a closing tag of its name. -/
theorem atTag_of_closeStep_eq_none {c : Char} (h : closeStep name nested state c cs = none) :
    state = ⟨0, none⟩ ∧ atTag ('<' :: '/' :: name) (c :: cs) = true := by
  obtain ⟨depth, inTag⟩ := state
  cases inTag with
  | some slash =>
    simp only [closeStep] at h
    split at h
    · cases h
    · cases h
  | none =>
    simp only [closeStep] at h
    split at h
    · rename_i htag
      split at h
      · rename_i hdepth
        exact ⟨by rw [hdepth], htag⟩
      · cases h
    · split at h
      · cases h
      · cases h

/-- A block ends at the first character, or the search goes on after it. -/
theorem findClose_cons_eq_some {c : Char} (h : findClose name nested state (c :: cs) = some r) :
    (∃ next inner, closeStep name nested state c cs = some next ∧
        findClose name nested next cs = some inner ∧
        r = { inner with content := c :: inner.content }) ∨
      state = ⟨0, none⟩ ∧ atTag ('<' :: '/' :: name) (c :: cs) = true ∧
        closeHere (c :: cs) = some r := by
  rw [findClose_cons] at h
  split at h
  · next hstep =>
    obtain ⟨hstate, htag⟩ := atTag_of_closeStep_eq_none hstep
    exact .inr ⟨hstate, htag, h⟩
  · next next hstep =>
    obtain ⟨inner, hinner, rfl⟩ := Option.map_eq_some_iff.1 h
    exact .inl ⟨next, inner, hstep, hinner, rfl⟩

/-- A step does not look past the next `<`. -/
theorem closeStep_append_lt (hname : '<' ∉ name) (nested : Bool) (state : CloseSearch) (c : Char)
    (w x y : List Char) : closeStep name nested state c (w ++ '<' :: x) =
      closeStep name nested state c (w ++ '<' :: y) := by
  have hslash : '<' ∉ '/' :: name := by simp [hname]
  have hcons (z : List Char) : c :: (w ++ '<' :: z) = (c :: w) ++ '<' :: z := rfl
  simp only [closeStep, hcons, atTag_append_lt hslash (List.cons_ne_nil c w),
    atTag_append_lt hname (List.cons_ne_nil c w)]

/-! ## The whole search -/

theorem closeHere_content (h : closeHere cs = some r) :
    r.content = [] ∧ r.tag ≠ [] ∧ cs = r.tag ++ r.rest := by
  unfold closeHere at h
  split at h
  · cases h
  · rename_i c rest hdrop
    cases h
    have hsplit := List.takeWhile_append_dropWhile (p := (· != '>')) (l := cs)
    rw [hdrop] at hsplit
    exact ⟨rfl, by simp, by simpa using hsplit.symm⟩

theorem closeHere_closeTag (hname : '>' ∉ name) (rest : List Char) :
    closeHere (closeTag name ++ rest) = some ⟨[], closeTag name, rest⟩ := by
  have hne : ∀ c ∈ '<' :: '/' :: name, (c != '>') = true := by
    intro c hc
    have hc' : c ≠ '>' := by
      rintro rfl
      simp [hname] at hc
    simpa using hc'
  have hcs : closeTag name ++ rest = ('<' :: '/' :: name) ++ '>' :: rest := by simp [closeTag]
  rw [closeHere, hcs, List.dropWhile_append_of_pos hne, List.takeWhile_append_of_pos hne]
  simp [closeTag]

/-- Outside inner blocks the search ends at a written closing tag. -/
theorem findClose_here (hname : '>' ∉ name) (nested : Bool) (rest : List Char) :
    findClose name nested ⟨0, none⟩ (closeTag name ++ rest) =
      some ⟨[], closeTag name, rest⟩ := by
  have hcs : closeTag name ++ rest = '<' :: ('/' :: name ++ '>' :: rest) := by simp [closeTag]
  have htag : atTag ('<' :: '/' :: name) ('<' :: ('/' :: name ++ '>' :: rest)) = true :=
    atTag_iff.2 ⟨'>' :: rest, rfl, rfl⟩
  have hstep : closeStep name nested ⟨0, none⟩ '<' ('/' :: name ++ '>' :: rest) = none := by
    rw [closeStep, htag]
    rfl
  rw [hcs, findClose_cons, hstep, ← hcs]
  exact closeHere_closeTag hname rest

/-- The search splits the text: content, closing tag and what follows. -/
theorem findClose_eq_append (h : findClose name nested state cs = some r) :
    ∃ tag, cs = r.content ++ '<' :: tag ++ r.rest ∧ r.tag = '<' :: tag := by
  induction cs generalizing state r with
  | nil => simp [findClose] at h
  | cons c cs ih =>
    rcases findClose_cons_eq_some h with ⟨next, inner, -, hinner, rfl⟩ | ⟨-, hat, h⟩
    · obtain ⟨tag, hcs, htag⟩ := ih hinner
      exact ⟨tag, by simp [hcs], htag⟩
    · obtain ⟨after, hafter, -⟩ := atTag_iff.1 hat
      obtain ⟨hcontent, htag, hcs⟩ := closeHere_content h
      have hc : c = '<' := (List.cons.inj hafter).1
      obtain ⟨d, tag, hd⟩ := List.exists_cons_of_ne_nil htag
      rw [hd, List.cons_append] at hcs
      have hdc : d = '<' := (List.cons.inj hcs).1.symm.trans hc
      subst hdc
      exact ⟨tag, by simp [hcontent, hcs], hd⟩

/-- The search ends at the same place when a plain closing tag stands where it ended. -/
theorem findClose_closeTag (hlt : '<' ∉ name) (hgt : '>' ∉ name)
    (h : findClose name nested state cs = some r) (rest : List Char) :
    findClose name nested state (r.content ++ closeTag name ++ rest) =
      some ⟨r.content, closeTag name, rest⟩ := by
  induction cs generalizing state r with
  | nil => simp [findClose] at h
  | cons c cs ih =>
    rcases findClose_cons_eq_some h with ⟨next, inner, hstep, hinner, rfl⟩ | ⟨rfl, -, h⟩
    · obtain ⟨tag, hcs, -⟩ := findClose_eq_append hinner
      have hnext : closeStep name nested state c (inner.content ++ closeTag name ++ rest) =
          some next := by
        rw [hcs, List.append_assoc, List.cons_append] at hstep
        rw [← hstep, closeTag, List.append_assoc, List.cons_append, List.cons_append]
        exact closeStep_append_lt hlt nested state c inner.content _ _
      show findClose name nested state (c :: (inner.content ++ closeTag name ++ rest)) = _
      rw [findClose_cons, hnext]
      simp only [ih hinner, Option.map_some]
    · rw [(closeHere_content h).1, List.nil_append]
      exact findClose_here hgt nested rest

/-! ## Blocks that do not nest -/

theorem closeStep_of_not_atTag {c : Char} (h : atTag ('<' :: '/' :: name) (c :: cs) = false) :
    closeStep name false ⟨0, none⟩ c cs = some ⟨0, none⟩ := by
  simp [closeStep, h]

/-- A content without a closing tag ends at the closing tag behind it. -/
theorem findClose_of_not_holdsCloseTag {content : List Char} (hlt : '<' ∉ name) (hgt : '>' ∉ name)
    (h : holdsCloseTag name content = false) (rest : List Char) :
    findClose name false ⟨0, none⟩ (content ++ closeTag name ++ rest) =
      some ⟨content, closeTag name, rest⟩ := by
  induction content with
  | nil => exact findClose_here hgt false rest
  | cons c content ih =>
    rw [holdsCloseTag, Bool.or_eq_false_iff] at h
    have hnot : atTag ('<' :: '/' :: name) (c :: (content ++ closeTag name ++ rest)) = false := by
      rw [← h.1, closeTag, List.append_assoc, List.cons_append, List.cons_append,
        ← List.cons_append]
      exact atTag_append_lt (by simp [hlt]) (List.cons_ne_nil c content) _
    show findClose name false ⟨0, none⟩ (c :: (content ++ closeTag name ++ rest)) = _
    rw [findClose_cons, closeStep_of_not_atTag hnot]
    simp only [ih h.2, Option.map_some]

/-- The content of a block that does not nest holds no closing tag. -/
theorem not_holdsCloseTag_of_findClose (hlt : '<' ∉ name)
    (h : findClose name false ⟨0, none⟩ cs = some r) : holdsCloseTag name r.content = false := by
  induction cs generalizing r with
  | nil => simp [findClose] at h
  | cons c cs ih =>
    cases htag : atTag ('<' :: '/' :: name) (c :: cs) with
    | true =>
      have hnone : closeStep name false ⟨0, none⟩ c cs = none := by simp [closeStep, htag]
      rw [findClose_cons, hnone] at h
      rw [(closeHere_content h).1]
      rfl
    | false =>
      rw [findClose_cons, closeStep_of_not_atTag htag] at h
      obtain ⟨inner, hinner, rfl⟩ := Option.map_eq_some_iff.1 h
      obtain ⟨tag, hcs, -⟩ := findClose_eq_append hinner
      rw [holdsCloseTag, Bool.or_eq_false_iff]
      refine ⟨?_, ih hinner⟩
      rw [← htag, hcs, List.append_assoc, List.cons_append, ← List.cons_append]
      exact (atTag_append_lt (by simp [hlt]) (List.cons_ne_nil c inner.content) _).symm

end ScriptSetup.Block
