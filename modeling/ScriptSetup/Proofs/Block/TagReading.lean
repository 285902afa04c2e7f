import ScriptSetup.Proofs.Block.Tag

/-!
# What one token of an opening tag does

Reading an opening tag is a run over its tokens. `tagStep` is what a token in the middle of the
tag does, `tagEnd` is the answer at the token where reading stops, and `readFrom_cons` puts the two
together. Whatever holds of a whole tag follows from these by induction along the text.

The first such result says where everything stands: the text of the tag comes right before what is
left over, and each attribute covers a part of it that starts with its name.
-/

set_option autoImplicit false

namespace ScriptSetup

open Text

/-! ## Places in a text -/

/-- Below the limit offsets are kept as they are. -/
theorem Span.ofOffsets_eq {start stop : Nat} (hle : start ≤ stop) (hstop : stop < Span.limit) :
    Span.ofOffsets start stop = ⟨start, stop⟩ := by
  rw [ofOffsets, Nat.mod_eq_of_lt (Nat.lt_of_le_of_lt hle hstop), Nat.mod_eq_of_lt hstop]

/-- The span covers `text` in the source. -/
def Span.Covers (s : Span) (source text : List Char) : Prop :=
  ∃ before after, source = before ++ text ++ after ∧
    s = ⟨byteLength before, byteLength before + byteLength text⟩

theorem Text.dropBytes_append (before after : List Char) :
    dropBytes (before ++ after) (byteLength before) = some after := by
  induction before with
  | nil => cases after <;> simp [dropBytes]
  | cons c before ih =>
    have hpos := c.utf8Size_pos
    have hne : byteLength (c :: before) ≠ 0 := by
      rw [byteLength_cons]
      omega
    rw [List.cons_append, dropBytes, if_neg hne, byteLength_cons, if_pos (Nat.le_add_right _ _),
      Nat.add_sub_cancel_left, ih]

theorem Text.takeBytes_append (text after : List Char) :
    takeBytes (text ++ after) (byteLength text) = some text := by
  induction text with
  | nil => cases after <;> simp [takeBytes]
  | cons c text ih =>
    have hpos := c.utf8Size_pos
    have hne : byteLength (c :: text) ≠ 0 := by
      rw [byteLength_cons]
      omega
    rw [List.cons_append, takeBytes, if_neg hne, byteLength_cons, if_pos (Nat.le_add_right _ _),
      Nat.add_sub_cancel_left, ih]
    rfl

namespace Span.Covers

variable {s : Span} {source text : List Char}

theorem slice? (h : s.Covers source text) : s.slice? source = some text := by
  obtain ⟨before, after, rfl, rfl⟩ := h
  rw [Span.slice?, if_pos (Nat.le_add_right _ _), List.append_assoc, dropBytes_append,
    Nat.add_sub_cancel_left]
  exact takeBytes_append text after

theorem slice {source : String} (h : s.Covers source.toList text) :
    s.slice source = some (String.ofList text) := by
  rw [Span.slice, h.slice?]
  rfl

theorem start_le (h : s.Covers source text) : s.start ≤ s.stop := by
  obtain ⟨before, after, rfl, rfl⟩ := h
  exact Nat.le_add_right _ _

theorem stop_le (h : s.Covers source text) : s.stop ≤ byteLength source := by
  obtain ⟨before, after, rfl, rfl⟩ := h
  simp only [byteLength_append]
  omega

end Span.Covers

namespace Block

/-! ## One step -/

/-- What a token in the middle of a tag does to the attributes and to the pending `=`, or nothing
when reading stops at it. -/
def tagStep (t : TagToken) (attributes : List Attribute) (pending : Bool) :
    Option (List Attribute × Bool) :=
  match t.kind, pending with
  | .name, false => some (⟨String.ofList t.text, .bare, t.span⟩ :: attributes, false)
  | .equals, false => if attributes.isEmpty then none else some (attributes, true)
  | .name, true | .doubleQuoted, true | .singleQuoted, true =>
    some (giveValue t attributes, false)
  | _, _ => none

/-- The answer at the token where reading stops. -/
def tagEnd (start : Nat) (name : String) (attributes : List Attribute) (pending : Bool)
    (t : TagToken) : Except BlockError Header :=
  match t.kind, pending with
  | .eof, _ => .error ⟨.unterminatedTag name, .ofOffsets start t.span.stop⟩
  | .close, false => .ok ⟨attributes.reverse, t.span.stop, false⟩
  | .selfClose, false => .ok ⟨attributes.reverse, t.span.stop, true⟩
  | _, _ => .error ⟨.invalidAttribute t.found name, t.span⟩

namespace Header

variable {start : Nat} {name : String} {attributes : List Attribute} {pending : Bool}

theorem readFrom_cons (start : Nat) (name : String) (attributes : List Attribute)
    (pending : Bool) (t : TagToken) (more : List TagToken) :
    readFrom start name attributes pending (t :: more) =
      match tagStep t attributes pending with
      | some (attributes, pending) => readFrom start name attributes pending more
      | none => tagEnd start name attributes pending t := by
  obtain ⟨kind, span, text⟩ := t
  cases pending with
  | true => cases kind <;> simp [readFrom, tagStep, tagEnd]
  | false =>
    cases kind with
    | equals => cases attributes <;> simp [readFrom, tagStep, tagEnd]
    | _ => simp [readFrom, tagStep, tagEnd]

/-- Reading never stops with success but at a token that closes the tag. -/
theorem tagEnd_eq_ok {t : TagToken} {h : Header}
    (hend : tagEnd start name attributes pending t = .ok h) :
    pending = false ∧ h.attributes = attributes.reverse ∧ h.stop = t.span.stop ∧
      ((t.kind = .close ∧ h.selfClosing = false) ∨
        (t.kind = .selfClose ∧ h.selfClosing = true)) := by
  obtain ⟨kind, span, text⟩ := t
  cases pending with
  | true => cases kind <;> simp [tagEnd] at hend
  | false =>
    cases kind with
    | close =>
      cases hend
      exact ⟨rfl, rfl, rfl, Or.inl ⟨rfl, rfl⟩⟩
    | selfClose =>
      cases hend
      exact ⟨rfl, rfl, rfl, Or.inr ⟨rfl, rfl⟩⟩
    | _ => simp [tagEnd] at hend

/-- A fault in a tag is at the token where reading stops, or spans the whole tag up to the end of
the text. -/
theorem tagEnd_eq_error {t : TagToken} {e : BlockError}
    (hend : tagEnd start name attributes pending t = .error e) :
    (t.kind = .eof ∧ e.span = .ofOffsets start t.span.stop) ∨
      (t.kind ≠ .eof ∧ e.span = t.span) := by
  obtain ⟨kind, span, text⟩ := t
  cases kind with
  | eof =>
    simp only [tagEnd, Except.error.injEq] at hend
    subst hend
    exact Or.inl ⟨rfl, rfl⟩
  | _ =>
    refine Or.inr ⟨by simp, ?_⟩
    cases pending <;> simp only [tagEnd, Except.error.injEq, reduceCtorEq] at hend <;>
      rw [← hend]

end Header

/-! ## Where attributes stand -/

/-- The attribute covers a part of `text` that starts with its name; `text` starts at `offset`. -/
def Attribute.At (a : Attribute) (offset : Nat) (text : List Char) : Prop :=
  ∃ before own after, text = before ++ own ++ after ∧ a.name.toList <+: own ∧
    a.span =
      .ofOffsets (offset + byteLength before) (offset + byteLength before + byteLength own)

theorem Attribute.At.append {a : Attribute} {offset : Nat} {text : List Char}
    (h : a.At offset text) (more : List Char) : a.At offset (text ++ more) := by
  obtain ⟨before, own, after, rfl, hname, hspan⟩ := h
  exact ⟨before, own, after ++ more, by simp, hname, hspan⟩

theorem tagStep_at {t : TagToken} {attributes attributes' : List Attribute}
    {pending pending' : Bool} {offset : Nat} {passed : List Char}
    (hstep : tagStep t attributes pending = some (attributes', pending'))
    (hspan : t.span = .ofOffsets (offset + byteLength passed)
      (offset + byteLength passed + byteLength t.text))
    (hattributes : ∀ a ∈ attributes, a.At offset passed) :
    ∀ a ∈ attributes', a.At offset (passed ++ t.text) := by
  have hold : ∀ a ∈ attributes, a.At offset (passed ++ t.text) :=
    fun a ha => (hattributes a ha).append t.text
  have hgive : ∀ a ∈ giveValue t attributes, a.At offset (passed ++ t.text) := by
    cases attributes with
    | nil => simp [giveValue]
    | cons last earlier =>
      refine List.forall_mem_cons.2 ⟨?_, fun a ha => hold a (List.mem_cons_of_mem last ha)⟩
      -- the attribute now reaches up to the end of its value
      obtain ⟨before, own, after, rfl, hname, hlast⟩ := hattributes last List.mem_cons_self
      refine ⟨before, own ++ after ++ t.text, [], by simp, ?_, ?_⟩
      · rw [List.append_assoc]
        exact hname.trans (List.prefix_append own _)
      · simp only [hlast, hspan, Span.ofOffsets, byteLength_append, Nat.add_assoc]
  obtain ⟨kind, span, text⟩ := t
  cases pending with
  | true =>
    cases kind with
    | name | doubleQuoted | singleQuoted =>
      cases hstep
      exact hgive
    | _ => simp [tagStep] at hstep
  | false =>
    cases kind with
    | name =>
      cases hstep
      refine List.forall_mem_cons.2 ⟨⟨passed, text, [], by simp, ?_, hspan⟩, hold⟩
      simp
    | equals =>
      simp only [tagStep] at hstep
      split at hstep
      · cases hstep
      · cases hstep
        exact hold
    | _ => simp [tagStep] at hstep

/-! ## Where a tag stands -/

/-- What is known of a tag that was read: its text starts at `offset`. -/
structure Header.At (h : Header) (offset : Nat) (text : List Char) : Prop where
  stop : h.stop = (offset + byteLength text) % Span.limit
  ends : ∃ inner, text = inner ++ if h.selfClosing then ['/', '>'] else ['>']
  attributes : ∀ a ∈ h.attributes, a.At offset text

namespace Header

theorem readFrom_at {start : Nat} {name : String} {attributes : List Attribute} {pending : Bool}
    {offset : Nat} (passed : List Char) {cs : List Char} {h : Header}
    (hattributes : ∀ a ∈ attributes, a.At offset passed)
    (hr : readFrom start name attributes pending
      (TagToken.lex (offset + byteLength passed) cs) = .ok h) :
    ∃ text rest, passed ++ cs = text ++ rest ∧ h.At offset text := by
  generalize hoffset : offset + byteLength passed = place at hr
  obtain ⟨ps, hlexes, hlex⟩ := TagToken.exists_lexes place cs
  rw [hlex] at hr
  clear hlex
  induction hlexes generalizing attributes pending passed with
  | eof place =>
    rw [List.map_singleton, readFrom_cons] at hr
    cases pending <;> simp [tagStep, tagEnd] at hr
  | @blank place c cs ps _ _ ih =>
    obtain ⟨text, rest, htext, hat⟩ := ih (passed ++ [c])
      (fun a ha => (hattributes a ha).append [c]) (by simp [← hoffset, Nat.add_assoc]) hr
    exact ⟨text, rest, by simpa using htext, hat⟩
  | @token place kind token rest ps hstands _ ih =>
    rw [List.map_cons, readFrom_cons] at hr
    split at hr
    · rename_i attributes' pending' hstep
      have hattributes' := tagStep_at hstep (by rw [hoffset]) hattributes
      obtain ⟨text, rest', htext, hat⟩ := ih (passed ++ token) hattributes'
        (by simp [← hoffset, Nat.add_assoc]) hr
      exact ⟨text, rest', by rw [← htext, List.append_assoc], hat⟩
    · obtain ⟨-, hattrs, hstop, hkind⟩ := tagEnd_eq_ok hr
      refine ⟨passed ++ token, rest, by rw [List.append_assoc], ?_, ⟨passed, ?_⟩, ?_⟩
      · rw [hstop]
        simp [Span.ofOffsets, ← hoffset, Nat.add_assoc]
      · rw [hstands.text_of_closing hkind]
      · intro a ha
        rw [hattrs, List.mem_reverse] at ha
        exact (hattributes a ha).append token

/-- What follows the name of a block is the rest of its opening tag, and then what is left. -/
theorem read_at {start offset : Nat} {name : String} {cs : List Char} {h : Header}
    (hr : read start name offset cs = .ok h) :
    ∃ text rest, cs = text ++ rest ∧ h.At offset text := by
  simpa using readFrom_at [] (by simp) hr

/-- A fault in a tag that opens at `start` is inside the text, from the `<` of the tag on. -/
theorem readFrom_error {before : List Char} (passed : List Char) {cs : List Char} {name : String}
    {attributes : List Attribute} {pending : Bool} {e : BlockError}
    (hsize : byteLength (before ++ passed ++ cs) < Span.limit)
    (hr : readFrom (byteLength before) name attributes pending
      (TagToken.lex (byteLength (before ++ passed)) cs) = .error e) :
    byteLength before ≤ e.span.start ∧
      ∃ text, e.span.Covers (before ++ passed ++ cs) text := by
  generalize hplace : byteLength (before ++ passed) = place at hr
  obtain ⟨ps, hlexes, hlex⟩ := TagToken.exists_lexes place cs
  rw [hlex] at hr
  clear hlex
  induction hlexes generalizing attributes pending passed with
  | eof place =>
    rw [List.map_singleton, readFrom_cons] at hr
    have hend : tagEnd (byteLength before) name attributes pending
        ⟨.eof, .ofOffsets place place, []⟩ = .error e := by
      cases pending <;> simpa [tagStep] using hr
    rw [byteLength_append, hplace, byteLength_nil, Nat.add_zero] at hsize
    have hle : byteLength before ≤ place := by
      rw [← hplace, byteLength_append]
      exact Nat.le_add_right _ _
    rcases tagEnd_eq_error hend with ⟨-, hspan⟩ | ⟨hkind, -⟩
    · rw [Span.ofOffsets_eq (Nat.le_refl _) hsize, Span.ofOffsets_eq hle hsize] at hspan
      rw [hspan]
      refine ⟨Nat.le_refl _, passed, before, [], by simp, ?_⟩
      simp [← hplace]
    · exact absurd rfl hkind
  | @blank place c cs ps _ _ ih =>
    obtain ⟨hstart, text, hcovers⟩ := ih (passed ++ [c]) (by simpa using hsize)
      (by simp [← hplace, Nat.add_assoc]) hr
    exact ⟨hstart, text, by simpa using hcovers⟩
  | @token place kind token rest ps _ _ ih =>
    rw [List.map_cons, readFrom_cons] at hr
    split at hr
    · obtain ⟨hstart, text, hcovers⟩ := ih (passed ++ token) (by simpa using hsize)
        (by simp [← hplace, Nat.add_assoc]) hr
      exact ⟨hstart, text, by simpa using hcovers⟩
    · have hstop : place + byteLength token < Span.limit := by
        rw [byteLength_append, hplace, byteLength_append] at hsize
        omega
      have htoken := Span.ofOffsets_eq (Nat.le_add_right place (byteLength token)) hstop
      have hle : byteLength before ≤ place := by
        rw [← hplace, byteLength_append]
        exact Nat.le_add_right _ _
      simp only [htoken] at hr
      rcases tagEnd_eq_error hr with ⟨hkind, hspan⟩ | ⟨-, hspan⟩
      · rw [hspan, Span.ofOffsets_eq (Nat.le_trans hle (Nat.le_add_right _ _)) hstop]
        refine ⟨Nat.le_refl _, passed ++ token, before, rest, by simp, ?_⟩
        simp only [← hplace, byteLength_append, Nat.add_assoc]
      · rw [hspan]
        refine ⟨hle, token, before ++ passed, rest, (List.append_assoc _ _ _).symm, ?_⟩
        rw [hplace]

end Header

end Block

end ScriptSetup
