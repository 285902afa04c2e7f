import Mathlib.Data.List.Infix
import ScriptSetup.Proofs.Block.Locality

/-!
# Templates inside templates

The content of a template block is markup that may hold further templates. `Markup` is such a
content as a tree, with tags as they are written. Splitting the file that holds it should give the
markup back as the content of one block.

The search for the closing tag does not read the tags inside. It counts what it takes for an
opening or a closing tag, and an opening tag goes to the first `>`, which may stand in the value of
an attribute. `survey` is what the search notes along a text. It notes nothing in texts and a
closing tag once, so the markup comes back exactly when the notes that its opening tags give are
balanced. This is so when no value holds a `>`.
-/

set_option autoImplicit false

namespace ScriptSetup.Block

open Text

/-! ## Markup -/

/-- Text in which no tag of a template starts. -/
structure PlainText where
  chars : List Char
  no_open : ¬ ('<' :: nestingTag) <:+: chars
  no_close : ¬ ('<' :: '/' :: nestingTag) <:+: chars

/-- White space in a tag. -/
structure TagGap where
  chars : List Char
  blank : ∀ c ∈ chars, isTagBlank c = true

/-- The value of an attribute as it is written. -/
inductive WrittenValue where
  | none
  /-- between double quotes -/
  | double (value : List Char) (h : '"' ∉ value)
  /-- between single quotes -/
  | single (value : List Char) (h : '\'' ∉ value)

/-- The value itself. -/
def WrittenValue.value : WrittenValue → List Char
  | none => []
  | double value _ | single value _ => value

/-- An attribute as it is written, with the white space before it and around the `=`. -/
structure WrittenAttribute where
  gap : TagGap
  gap_ne : gap.chars ≠ []
  name : List Char
  name_ne : name ≠ []
  name_chars : ∀ c ∈ name, isTagNameChar c = true
  beforeEquals : TagGap
  afterEquals : TagGap
  value : WrittenValue

def WrittenAttribute.chars (a : WrittenAttribute) : List Char :=
  a.gap.chars ++ a.name ++
    match a.value with
    | .none => []
    | .double value _ =>
      a.beforeEquals.chars ++ '=' :: (a.afterEquals.chars ++ '"' :: (value ++ ['"']))
    | .single value _ =>
      a.beforeEquals.chars ++ '=' :: (a.afterEquals.chars ++ '\'' :: (value ++ ['\'']))

/-- What stands in an opening tag between its name and its end. -/
structure TagBody where
  attributes : List WrittenAttribute
  gap : TagGap

def TagBody.chars (b : TagBody) : List Char :=
  b.attributes.flatMap WrittenAttribute.chars ++ b.gap.chars

/-- How an opening tag ends, with a template or an empty one. -/
def tagEnding : Bool → List Char
  | false => ['>']
  | true => ['/', '>']

/-- Texts and templates in turn. -/
inductive Markup where
  | text (before : PlainText)
  /-- `<template …>`, what it holds, `</template>` and what follows -/
  | template (before : PlainText) (tag : TagBody) (children after : Markup)
  /-- `<template …/>` and what follows -/
  | empty (before : PlainText) (tag : TagBody) (after : Markup)

namespace Markup

def chars : Markup → List Char
  | text before => before.chars
  | template before tag children after =>
    before.chars ++ ('<' :: nestingTag ++ (tag.chars ++ tagEnding false)) ++
      (children.chars ++ (closeTag nestingTag ++ after.chars))
  | empty before tag after =>
    before.chars ++ ('<' :: nestingTag ++ (tag.chars ++ tagEnding true)) ++ after.chars

/-- The attributes of all tags. -/
def attributes : Markup → List WrittenAttribute
  | text _ => []
  | template _ tag children after => tag.attributes ++ children.attributes ++ after.attributes
  | empty _ tag after => tag.attributes ++ after.attributes

/-- The file whose one template has this content. -/
def file (m : Markup) : String :=
  "<template>" ++ String.ofList m.chars ++ "</template>"

/-- The file splits into one block without a fault, a template with the markup as its content. -/
def SplitsWhole (m : Markup) : Prop :=
  ∃ b, split m.file = ⟨[b], []⟩ ∧ b.kind = .template ∧ b.content = String.ofList m.chars

end Markup

variable {c : Char} {w cs x : List Char} {inTag : Option Bool}

/-! ## What the search notes -/

/-- A tag that the search for the closing tag of a template takes note of. -/
inductive TagNote where
  | opened | closed
  deriving DecidableEq, Repr

/-- How many templates are open behind these tags, unless more are closed than opened. -/
def depthAfter : Nat → List TagNote → Option Nat
  | depth, [] => some depth
  | depth, .opened :: notes => depthAfter (depth + 1) notes
  | 0, .closed :: _ => none
  | depth + 1, .closed :: notes => depthAfter depth notes

theorem depthAfter_append (depth : Nat) (notes more : List TagNote) :
    depthAfter depth (notes ++ more) =
      (depthAfter depth notes).bind fun depth' => depthAfter depth' more := by
  fun_induction depthAfter depth notes with
  | case1 depth => rfl
  | case2 depth notes ih => exact ih
  | case3 notes => rfl
  | case4 depth notes ih => exact ih

/-- One character of the search: whether it is inside an opening tag then, and what it notes. -/
def noteStep (inTag : Option Bool) (c : Char) (cs : List Char) : Option Bool × List TagNote :=
  match inTag with
  | some slash =>
    if c = '>' then (none, if slash then [] else [.opened]) else (some (c == '/'), [])
  | none =>
    if atTag ('<' :: '/' :: nestingTag) (c :: cs) then (none, [.closed])
    else if atTag ('<' :: nestingTag) (c :: cs) then (some false, [])
    else (none, [])

/-- The search along `w`, in front of `x`. -/
def survey (inTag : Option Bool) : List Char → List Char → Option Bool × List TagNote
  | [], _ => (inTag, [])
  | c :: w, x =>
    let step := noteStep inTag c (w ++ x)
    let later := survey step.1 w x
    (later.1, step.2 ++ later.2)

theorem survey_cons (inTag : Option Bool) (c : Char) (w x : List Char) :
    survey inTag (c :: w) x =
      ((survey (noteStep inTag c (w ++ x)).1 w x).1,
        (noteStep inTag c (w ++ x)).2 ++ (survey (noteStep inTag c (w ++ x)).1 w x).2) :=
  rfl

theorem survey_append (inTag : Option Bool) (w v x : List Char) :
    survey inTag (w ++ v) x =
      ((survey (survey inTag w (v ++ x)).1 v x).1,
        (survey inTag w (v ++ x)).2 ++ (survey (survey inTag w (v ++ x)).1 v x).2) := by
  induction w generalizing inTag with
  | nil => rfl
  | cons c w ih => simp only [List.cons_append, survey_cons, List.append_assoc, ih]

/-- One text after another. -/
theorem survey_append_of_eq {mid : Option Bool} {v : List Char} {notes : List TagNote}
    (h : survey inTag w (v ++ x) = (mid, notes)) :
    survey inTag (w ++ v) x = ((survey mid v x).1, notes ++ (survey mid v x).2) := by
  rw [survey_append, h]

/-! ## The search for the closing tag -/

theorem closeStep_nestingTag (depth : Nat) (inTag : Option Bool) (c : Char) (cs : List Char) :
    closeStep nestingTag true ⟨depth, inTag⟩ c cs =
      (depthAfter depth (noteStep inTag c cs).2).map (⟨·, (noteStep inTag c cs).1⟩) := by
  cases inTag with
  | some slash =>
    by_cases hc : c = '>'
    · cases slash <;> simp [closeStep, noteStep, hc, depthAfter]
    · simp [closeStep, noteStep, hc, depthAfter]
  | none =>
    simp only [closeStep, noteStep, Bool.true_and]
    split
    · cases depth <;> simp [depthAfter]
    · split <;> simp [depthAfter]

/-- The search passes a text along which it does not run out of open templates. -/
theorem findClose_append_of_some {depth depth' : Nat}
    (h : depthAfter depth (survey inTag w x).2 = some depth') :
    findClose nestingTag true ⟨depth, inTag⟩ (w ++ x) =
      (findClose nestingTag true ⟨depth', (survey inTag w x).1⟩ x).map
        fun r => { r with content := w ++ r.content } := by
  induction w generalizing depth inTag with
  | nil =>
    cases h
    simp [survey]
  | cons c w ih =>
    rw [survey_cons, depthAfter_append] at h
    obtain ⟨mid, hmid, h⟩ := Option.bind_eq_some_iff.1 h
    rw [List.cons_append, findClose_cons, closeStep_nestingTag, hmid]
    simp only [Option.map_some, ih h, Option.map_map]
    rfl

/-- It stops inside a text along which it runs out of them. -/
theorem content_length_lt_of_none {depth : Nat} (h : depthAfter depth (survey inTag w x).2 = none)
    {r : Closed} (hr : findClose nestingTag true ⟨depth, inTag⟩ (w ++ x) = some r) :
    r.content.length < w.length := by
  induction w generalizing depth inTag r with
  | nil => cases h
  | cons c w ih =>
    rw [survey_cons, depthAfter_append] at h
    rw [List.cons_append, findClose_cons, closeStep_nestingTag] at hr
    cases hmid : depthAfter depth (noteStep inTag c (w ++ x)).2 with
    | none =>
      rw [hmid] at hr
      rw [(closeHere_content hr).1]
      exact Nat.succ_pos _
    | some mid =>
      rw [hmid] at hr h
      obtain ⟨inner, hinner, rfl⟩ := Option.map_eq_some_iff.1 hr
      exact Nat.succ_lt_succ (ih h hinner)

/-! ## Texts and tags -/

theorem atTag_eq_false_of_not_infix {opening : List Char} (h : ¬ opening <:+: cs) :
    atTag opening cs = false := by
  refine Bool.eq_false_iff.2 fun htag => h ?_
  obtain ⟨after, rfl, -⟩ := atTag_iff.1 htag
  exact (List.prefix_append opening after).isInfix

theorem noteStep_none (hclose : atTag ('<' :: '/' :: nestingTag) (c :: cs) = false)
    (hopen : atTag ('<' :: nestingTag) (c :: cs) = false) : noteStep none c cs = (none, []) := by
  simp [noteStep, hclose, hopen]

theorem noteStep_of_ne_lt (hc : c ≠ '<') (cs : List Char) : noteStep none c cs = (none, []) := by
  refine noteStep_none ?_ ?_
  · simp [atTag, List.isPrefixOf, Ne.symm hc]
  · simp [atTag, List.isPrefixOf, Ne.symm hc]

/-- Nothing is noted along a text. -/
theorem survey_text (hopen : ¬ ('<' :: nestingTag) <:+: w)
    (hclose : ¬ ('<' :: '/' :: nestingTag) <:+: w) (x : List Char) :
    survey none w ('<' :: x) = (none, []) := by
  induction w with
  | nil => rfl
  | cons c w ih =>
    have hstep : noteStep none c (w ++ '<' :: x) = (none, []) := by
      refine noteStep_none ?_ ?_
      · rw [← List.cons_append, atTag_append_lt (by decide) (List.cons_ne_nil c w)]
        exact atTag_eq_false_of_not_infix hclose
      · rw [← List.cons_append, atTag_append_lt (by decide) (List.cons_ne_nil c w)]
        exact atTag_eq_false_of_not_infix hopen
    have hlater := ih (fun h => hopen (List.infix_cons h)) (fun h => hclose (List.infix_cons h))
    rw [survey_cons, hstep, hlater]
    rfl

/-- A closing tag is noted once. -/
theorem survey_closeTag (x : List Char) :
    survey none (closeTag nestingTag) x = (none, [.closed]) := by
  have htag : atTag ('<' :: '/' :: nestingTag) (closeTag nestingTag ++ x) = true :=
    atTag_iff.2 ⟨'>' :: x, by simp [closeTag], rfl⟩
  have hstep : noteStep none '<' ('/' :: nestingTag ++ ['>'] ++ x) = (none, [.closed]) := by
    rw [noteStep, show '<' :: ('/' :: nestingTag ++ ['>'] ++ x) = closeTag nestingTag ++ x from rfl,
      htag]
    rfl
  -- the rest of the tag has no `<`
  have hrest : ∀ w : List Char, '<' ∉ w → survey none w x = (none, []) := by
    intro w hw
    induction w with
    | nil => rfl
    | cons c w ih =>
      obtain ⟨hc, hw⟩ := not_or.1 (fun h => hw (List.mem_cons.2 h))
      rw [survey_cons, noteStep_of_ne_lt (Ne.symm hc), ih hw]
      rfl
  rw [closeTag, List.cons_append, survey_cons, hstep, hrest _ (by decide)]
  rfl

/-- What the search notes along the rest of a tag does not depend on what follows its `>`. -/
theorem atTag_append_gt {opening : List Char} (hopening : '>' ∉ opening) (w x : List Char) :
    atTag opening (w ++ '>' :: x) = atTag opening (w ++ ['>']) := by
  induction opening generalizing w with
  | nil =>
    cases w with
    | nil | cons c w => rfl
  | cons a opening ih =>
    obtain ⟨ha, hopening⟩ := not_or.1 (fun h => hopening (List.mem_cons.2 h))
    cases w with
    | nil =>
      have ha' : (a == '>') = false := by simpa using Ne.symm ha
      simp [atTag, List.isPrefixOf, ha']
    | cons c w =>
      have h := ih hopening w
      simp only [atTag] at h
      simp only [atTag, List.cons_append, List.isPrefixOf, List.length_cons, List.drop_succ_cons,
        Bool.and_assoc, h]

theorem noteStep_append_gt (inTag : Option Bool) (c : Char) (w x : List Char) :
    noteStep inTag c (w ++ '>' :: x) = noteStep inTag c (w ++ ['>']) := by
  have hcons (y : List Char) : c :: (w ++ '>' :: y) = (c :: w) ++ '>' :: y := rfl
  simp only [noteStep, hcons]
  rw [atTag_append_gt (by decide) (c :: w) x, atTag_append_gt (by decide) (c :: w) x]

theorem survey_append_gt (inTag : Option Bool) (w x : List Char) :
    survey inTag (w ++ ['>']) x = (none, (survey inTag (w ++ ['>']) []).2) := by
  induction w generalizing inTag with
  | nil =>
    cases inTag with
    | none =>
      simp only [List.nil_append, survey_cons, noteStep_of_ne_lt (show '>' ≠ '<' by decide)]
      rfl
    | some slash => rfl
  | cons c w ih =>
    have hstep := noteStep_append_gt inTag c w x
    simp only [List.cons_append, survey_cons, List.append_assoc, List.nil_append, List.append_nil,
      hstep, ih]

/-- The name of an opening tag brings the search into the tag. -/
theorem survey_open {body : List Char} (hbody : endsTagName body = true) (x : List Char) :
    survey none ('<' :: nestingTag) (body ++ x) = (some false, []) := by
  have hne : body ≠ [] := by
    rintro rfl
    cases hbody
  obtain ⟨c, body, rfl⟩ := List.exists_cons_of_ne_nil hne
  have hopen : atTag ('<' :: nestingTag) ('<' :: (nestingTag ++ (c :: body ++ x))) = true :=
    atTag_iff.2 ⟨c :: body ++ x, rfl, hbody⟩
  have hclose :
      atTag ('<' :: '/' :: nestingTag) ('<' :: (nestingTag ++ (c :: body ++ x))) = false := rfl
  rw [survey_cons]
  have hstep : noteStep none '<' (nestingTag ++ (c :: body ++ x)) = (some false, []) := by
    simp only [noteStep, hclose, hopen, Bool.false_eq_true, if_false, if_true]
  rw [hstep]
  rfl

/-! ## Opening tags -/

/-- What the search notes along an opening tag. -/
def TagBody.notes (b : TagBody) (selfClosing : Bool) : List TagNote :=
  (survey (some false) (b.chars ++ tagEnding selfClosing) []).2

theorem isBlankChar_of_isTagBlank (h : isTagBlank c = true) : isBlankChar c = true := by
  simp only [isTagBlank, Bool.or_eq_true, beq_iff_eq] at h
  rcases h with (((rfl | rfl) | rfl) | rfl) | rfl <;> decide

theorem endsTagName_of_isTagBlank (h : isTagBlank c = true) (cs : List Char) :
    endsTagName (c :: cs) = true := by
  simp [endsTagName, isBlankChar_of_isTagBlank h]

theorem TagGap.endsTagName_append (g : TagGap) (h : endsTagName cs = true) :
    endsTagName (g.chars ++ cs) = true := by
  cases hg : g.chars with
  | nil => exact h
  | cons c gap => exact endsTagName_of_isTagBlank (g.blank c (by simp [hg])) _

/-- The name of the tag ends in front of its attributes. -/
theorem TagBody.endsTagName_chars (b : TagBody) (selfClosing : Bool) :
    endsTagName (b.chars ++ tagEnding selfClosing) = true := by
  obtain ⟨attributes, gap⟩ := b
  cases attributes with
  | nil => exact gap.endsTagName_append (by cases selfClosing <;> rfl)
  | cons a attributes =>
    obtain ⟨c, rest, hgap⟩ := List.exists_cons_of_ne_nil a.gap_ne
    have hc : isTagBlank c = true := a.gap.blank c (by simp [hgap])
    simp only [chars, List.flatMap_cons, WrittenAttribute.chars, hgap, List.cons_append]
    exact endsTagName_of_isTagBlank hc _

/-- An opening tag leaves the search outside of tags. -/
theorem survey_tag (b : TagBody) (selfClosing : Bool) (x : List Char) :
    survey none ('<' :: nestingTag ++ (b.chars ++ tagEnding selfClosing)) x =
      (none, b.notes selfClosing) := by
  obtain ⟨before, hending⟩ : ∃ before, tagEnding selfClosing = before ++ ['>'] := by
    cases selfClosing with
    | false => exact ⟨[], rfl⟩
    | true => exact ⟨['/'], rfl⟩
  rw [survey_append_of_eq (survey_open (b.endsTagName_chars selfClosing) x), TagBody.notes, hending,
    ← List.append_assoc, survey_append_gt]
  rfl

/-! ## Tags without `>` in their values -/

/-- Inside a tag the search only looks for `>`, and for the `/` before it. -/
theorem survey_inTag {slash : Bool} (hw : '>' ∉ w) (x : List Char) :
    survey (some slash) w x = (some ((w.getLast?.map (· == '/')).getD slash), []) := by
  induction w generalizing slash with
  | nil => rfl
  | cons c w ih =>
    obtain ⟨hc, hw⟩ := not_or.1 (fun h => hw (List.mem_cons.2 h))
    have hstep : noteStep (some slash) c (w ++ x) = (some (c == '/'), []) := by
      simp [noteStep, Ne.symm hc]
    rw [survey_cons, hstep, ih hw]
    cases hlast : w.getLast? with
    | none =>
      obtain rfl := List.getLast?_eq_none_iff.1 hlast
      rfl
    | some d => simp [List.getLast?_cons, hlast]

theorem WrittenAttribute.getLast?_chars (a : WrittenAttribute) :
    ∃ c, a.chars.getLast? = some c ∧ c ≠ '/' := by
  cases hv : a.value with
  | none =>
    obtain ⟨front, c, hname⟩ := (List.eq_nil_or_concat a.name).resolve_left a.name_ne
    rw [List.concat_eq_append] at hname
    refine ⟨c, by simp [chars, hv, hname], ?_⟩
    rintro rfl
    exact absurd (a.name_chars '/' (by simp [hname])) (by decide)
  | double value h => exact ⟨'"', by simp [chars, hv, List.getLast?_cons], by decide⟩
  | single value h => exact ⟨'\'', by simp [chars, hv, List.getLast?_cons], by decide⟩

theorem TagBody.getLast?_chars (b : TagBody) (h : b.chars.getLast? = some c) : c ≠ '/' := by
  obtain ⟨attributes, gap⟩ := b
  rcases List.eq_nil_or_concat gap.chars with hgap | ⟨front, d, hgap⟩
  · rcases List.eq_nil_or_concat attributes with rfl | ⟨before, a, rfl⟩
    · simp [chars, hgap] at h
    · obtain ⟨e, hlast, he⟩ := a.getLast?_chars
      simp only [chars, hgap, List.concat_eq_append, List.flatMap_append, List.flatMap_singleton,
        List.append_nil, List.getLast?_append, hlast, Option.some_or] at h
      exact Option.some.inj h ▸ he
  · rw [List.concat_eq_append] at hgap
    simp only [chars, hgap, ← List.append_assoc, List.getLast?_concat] at h
    rintro rfl
    obtain rfl := Option.some.inj h
    exact absurd (gap.blank '/' (by simp [hgap])) (by decide)

theorem TagGap.gt_not_mem (g : TagGap) : '>' ∉ g.chars :=
  fun h => absurd (g.blank '>' h) (by decide)

theorem WrittenAttribute.gt_not_mem {a : WrittenAttribute} (h : '>' ∉ a.value.value) :
    '>' ∉ a.chars := by
  have hname : '>' ∉ a.name := fun hmem => absurd (a.name_chars '>' hmem) (by decide)
  cases hv : a.value with
  | none => simp [chars, hv, a.gap.gt_not_mem, hname]
  | double value hq | single value hq =>
    rw [hv] at h
    simp [chars, hv, a.gap.gt_not_mem, hname, a.beforeEquals.gt_not_mem, a.afterEquals.gt_not_mem,
      show '>' ∉ value from h]

/-- The search sees a tag for what it is when no value in it holds a `>`. -/
theorem TagBody.notes_of_not_mem {b : TagBody} (h : ∀ a ∈ b.attributes, '>' ∉ a.value.value)
    (selfClosing : Bool) : b.notes selfClosing = if selfClosing then [] else [.opened] := by
  have hgt : '>' ∉ b.chars := by
    rw [chars, List.mem_append, List.mem_flatMap]
    rintro (⟨a, ha, hmem⟩ | hmem)
    · exact WrittenAttribute.gt_not_mem (h a ha) hmem
    · exact b.gap.gt_not_mem hmem
  have hslash : (b.chars.getLast?.map (· == '/')).getD false = false := by
    cases hlast : b.chars.getLast? with
    | none => rfl
    | some c => simpa using b.getLast?_chars hlast
  rw [notes, survey_append_of_eq (survey_inTag hgt _), hslash]
  cases selfClosing <;> rfl

/-! ## The whole markup -/

namespace Markup

/-- What the search notes along the markup: what it notes along each opening tag, and the closing
tags. -/
def notes : Markup → List TagNote
  | text _ => []
  | template _ tag children after =>
    tag.notes false ++ (children.notes ++ .closed :: after.notes)
  | empty _ tag after => tag.notes true ++ after.notes

theorem survey_chars (m : Markup) (x : List Char) :
    survey none m.chars ('<' :: x) = (none, m.notes) := by
  induction m generalizing x with
  | text before => exact survey_text before.no_open before.no_close x
  | template before tag children after ihChildren ihAfter =>
    rw [chars, List.append_assoc,
      survey_append_of_eq (survey_text before.no_open before.no_close _),
      survey_append_of_eq (survey_tag tag false _), survey_append_of_eq (ihChildren _),
      survey_append_of_eq (survey_closeTag _), ihAfter]
    rfl
  | empty before tag after ihAfter =>
    rw [chars, List.append_assoc,
      survey_append_of_eq (survey_text before.no_open before.no_close _),
      survey_append_of_eq (survey_tag tag true _), ihAfter]
    rfl

/-- Without a `>` in a value the search sees the templates as they are nested. -/
theorem depthAfter_notes {m : Markup} (h : ∀ a ∈ m.attributes, '>' ∉ a.value.value) (depth : Nat) :
    depthAfter depth m.notes = some depth := by
  induction m generalizing depth with
  | text before => rfl
  | template before tag children after ihChildren ihAfter =>
    simp only [attributes, List.mem_append] at h
    have htag := TagBody.notes_of_not_mem (fun a ha => h a (Or.inl (Or.inl ha))) false
    have hchildren := ihChildren (fun a ha => h a (Or.inl (Or.inr ha))) (depth + 1)
    have hafter := ihAfter (fun a ha => h a (Or.inr ha)) depth
    rw [notes, htag]
    show depthAfter (depth + 1) (children.notes ++ .closed :: after.notes) = some depth
    rw [depthAfter_append, hchildren]
    exact hafter
  | empty before tag after ihAfter =>
    simp only [attributes, List.mem_append] at h
    have htag := TagBody.notes_of_not_mem (fun a ha => h a (Or.inl ha)) true
    rw [notes, htag]
    exact ihAfter (fun a ha => h a (Or.inr ha)) depth

/-! ## The file -/

/-- Behind the closing tag of the file nothing closes an inner template that is still open. -/
theorem findClose_closeTag_of_open (depth : Nat) :
    findClose nestingTag true ⟨depth + 1, none⟩ (closeTag nestingTag) = none := by
  have hdepth : depthAfter (depth + 1) (survey none (closeTag nestingTag) []).2 = some depth := by
    rw [survey_closeTag]
    rfl
  rw [← List.append_nil (closeTag nestingTag), findClose_append_of_some hdepth]
  rfl

theorem survey_closing (m : Markup) :
    survey none m.chars (closeTag nestingTag) = (none, m.notes) :=
  m.survey_chars _

/-- The search gives the whole markup back when the notes along it are balanced. -/
theorem findClose_of_depthAfter {m : Markup} (h : depthAfter 0 m.notes = some 0) :
    findClose nestingTag true ⟨0, none⟩ (m.chars ++ closeTag nestingTag) =
      some ⟨m.chars, closeTag nestingTag, []⟩ := by
  have hdepth : depthAfter 0 (survey none m.chars (closeTag nestingTag)).2 = some 0 := by
    rwa [survey_closing]
  have hgt : '>' ∉ nestingTag := by decide
  have hhere := findClose_here hgt true []
  rw [List.append_nil] at hhere
  rw [findClose_append_of_some hdepth, survey_closing, hhere]
  simp

/-- It gives no other markup back. -/
theorem depthAfter_of_findClose {m : Markup} {r : Closed}
    (h : findClose nestingTag true ⟨0, none⟩ (m.chars ++ closeTag nestingTag) = some r)
    (hcontent : r.content = m.chars) : depthAfter 0 m.notes = some 0 := by
  have hnotes : (survey none m.chars (closeTag nestingTag)).2 = m.notes := by rw [survey_closing]
  cases hdepth : depthAfter 0 m.notes with
  | none =>
    rw [← hnotes] at hdepth
    have hlt := content_length_lt_of_none hdepth h
    rw [hcontent] at hlt
    exact absurd hlt (Nat.lt_irrefl _)
  | some depth =>
    cases depth with
    | zero => rfl
    | succ depth =>
      rw [← hnotes] at hdepth
      rw [findClose_append_of_some hdepth, survey_closing, findClose_closeTag_of_open] at h
      cases h

end Markup

/-- The template that opens a file. -/
theorem read_template (cs : List Char) :
    read ('<' :: (nestingTag ++ '>' :: cs)) 0 (nestingTag ++ '>' :: cs) =
      match findClose nestingTag true ⟨0, none⟩ cs with
      | none => .error ⟨.unclosedBlock "template", ⟨0, 10⟩⟩
      | some closed =>
        .ok ⟨"template", .ofOffsets 0 (10 + byteLength closed.content + byteLength closed.tag),
          .ofOffsets 10 (10 + byteLength closed.content), String.ofList closed.content, []⟩ := by
  have hname : ∀ c ∈ nestingTag, isTagNameChar c = true := List.all_eq_true.1 (by decide)
  have hends : EndsName ('>' :: cs) := by simp [EndsName, isTagNameChar]
  have hheader : Header.read 0 "template" 9 ('>' :: cs) = .ok ⟨[], 10, false⟩ := by
    rw [Header.read, TagToken.lex_close, Header.readFrom_cons]
    rfl
  have hlength : 0 + 1 + byteLength nestingTag = 9 := by decide
  have hstring : String.ofList nestingTag = "template" := by decide
  have hresume : resume ('<' :: (nestingTag ++ '>' :: cs)) 10 = cs :=
    resume_append ('<' :: nestingTag ++ ['>']) cs
  simp only [read, takeWhile_name hname hends, dropWhile_name hname hends, hlength, hstring,
    hheader, Bool.false_eq_true, if_false, beq_self_eq_true, hresume]
  cases findClose nestingTag true ⟨0, none⟩ cs <;> rfl

namespace Markup

theorem file_toList (m : Markup) :
    m.file.toList = '<' :: (nestingTag ++ '>' :: (m.chars ++ closeTag nestingTag)) := by
  have hopen : "<template>".toList = '<' :: (nestingTag ++ ['>']) := by decide
  have hclose : "</template>".toList = closeTag nestingTag := by decide
  rw [file, String.toList_append, String.toList_append, hopen, hclose, String.toList_ofList]
  simp only [List.cons_append, List.append_assoc, List.nil_append]

theorem splitsWhole_iff {m : Markup} (hsize : byteLength m.file.toList < Span.limit) :
    m.SplitsWhole ↔ depthAfter 0 m.notes = some 0 := by
  have hstart : (nestingTag ++ '>' :: (m.chars ++ closeTag nestingTag)).head?.any startsTagName =
    true := rfl
  have hread := read_template (m.chars ++ closeTag nestingTag)
  constructor
  · rintro ⟨b, hsplit, -, hcontent⟩
    obtain ⟨passed, hscan⟩ := split_scan hsize
    rw [file_toList, hsplit] at hscan
    rcases hscan.tag_cases hstart with ⟨b', later, hb', hblocks⟩ | ⟨e, -, hs⟩
    · obtain ⟨rfl, -⟩ := List.cons.inj hblocks
      cases hclosed : findClose nestingTag true ⟨0, none⟩ (m.chars ++ closeTag nestingTag) with
      | none =>
        rw [hclosed] at hread
        cases hread.symm.trans hb'
      | some r =>
        rw [hclosed] at hread
        cases hread.symm.trans hb'
        exact depthAfter_of_findClose hclosed (String.ofList_injective hcontent)
    · cases hs
  · intro hdepth
    rw [findClose_of_depthAfter hdepth] at hread
    rw [file_toList] at hsize
    have hstop : 10 + byteLength m.chars + byteLength (closeTag nestingTag) =
        byteLength ('<' :: (nestingTag ++ '>' :: (m.chars ++ closeTag nestingTag))) := by
      have hopen : byteLength ('<' :: nestingTag ++ ['>']) = 10 := by decide
      rw [Nat.add_assoc, ← byteLength_append, ← hopen, ← byteLength_append]
      simp
    have hscan := @Scan.block [] _ _ [] _ _ _ hstart hread (List.append_nil _).symm
      ((Nat.mod_eq_of_lt (hstop ▸ hsize)).trans hstop) .done
    rw [← file_toList] at hscan
    exact ⟨_, hscan.split_eq, rfl, rfl⟩

/-- The markup in a template comes back exactly when the search for the closing tag sees its
templates balanced, and so it does when no value of an attribute holds a `>`. -/
theorem nested_templates_split_iff (m : Markup) (hsize : byteLength m.file.toList < Span.limit) :
    (m.SplitsWhole ↔ depthAfter 0 m.notes = some 0) ∧
      ((∀ a ∈ m.attributes, '>' ∉ a.value.value) → m.SplitsWhole) :=
  ⟨splitsWhole_iff hsize, fun h => (splitsWhole_iff hsize).2 (depthAfter_notes h 0)⟩

/-- A template that holds text and an empty template, with values that hold tags. -/
theorem slot_template_splits :
    let gap : TagGap := ⟨[], nofun⟩
    let space : TagGap := ⟨[' '], List.all_eq_true.1 (by decide)⟩
    let slot : TagBody := ⟨[⟨space, by decide, "v-if".toList, by decide,
      List.all_eq_true.1 (by decide), gap, gap, .double "a < b / c".toList (by decide)⟩], gap⟩
    let hidden : TagBody := ⟨[⟨space, by decide, "x".toList, by decide,
      List.all_eq_true.1 (by decide), space, space, .single "<template".toList (by decide)⟩], space⟩
    let inner : Markup := .empty ⟨"1 ".toList, by decide, by decide⟩ hidden
      (.text ⟨" 2".toList, by decide, by decide⟩)
    let m : Markup := .template ⟨[], by decide, by decide⟩ slot inner
      (.text ⟨"\n".toList, by decide, by decide⟩)
    String.ofList m.chars =
        "<template v-if=\"a < b / c\">1 <template x = '<template' /> 2</template>\n" ∧
      (∀ a ∈ m.attributes, '>' ∉ a.value.value) ∧ m.SplitsWhole :=
  ⟨by decide, by decide +kernel,
    (nested_templates_split_iff _ (by decide +kernel)).2 (by decide +kernel)⟩

/-- A `/>` in a value ends the tag for the search, which then takes the closing tag inside for the
one of the block. -/
theorem value_ends_tag :
    let gap : TagGap := ⟨[], nofun⟩
    let space : TagGap := ⟨[' '], List.all_eq_true.1 (by decide)⟩
    let tag : TagBody := ⟨[⟨space, by decide, "a".toList, by decide,
      List.all_eq_true.1 (by decide), gap, gap, .double "/>".toList (by decide)⟩], gap⟩
    let m : Markup := .template ⟨[], by decide, by decide⟩ tag
      (.text ⟨"x".toList, by decide, by decide⟩) (.text ⟨[], by decide, by decide⟩)
    m.file = "<template><template a=\"/>\">x</template></template>" ∧ ¬ m.SplitsWhole ∧
      split m.file =
        ⟨[⟨"template", ⟨0, 39⟩, ⟨10, 28⟩, "<template a=\"/>\">x", []⟩], []⟩ := by
  intro gap space tag m
  refine ⟨by decide, ?_, by decide +kernel⟩
  rw [splitsWhole_iff (by decide +kernel)]
  decide +kernel

end Markup

end ScriptSetup.Block
