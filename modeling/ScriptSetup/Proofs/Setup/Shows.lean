import ScriptSetup.Text.Lines

/-!
# Texts that show others

`Shows ps text` says that the texts `ps` stand in `text`, one after another.
-/

set_option autoImplicit false

namespace ScriptSetup.Setup

/-- The texts stand in the text, one after another. -/
inductive Shows : List String → String → Prop where
  | nil (text : String) : Shows [] text
  | cons {p : String} {ps : List String} {rest : String} (before : String) (h : Shows ps rest) :
    Shows (p :: ps) (before ++ p ++ rest)

namespace Shows

variable {ps qs : List String} {a b : String}

theorem single (p : String) : Shows [p] p := by
  have h := cons (p := p) "" (nil "")
  rwa [String.empty_append, String.append_empty] at h

theorem prepend (before : String) (h : Shows ps a) : Shows ps (before ++ a) := by
  cases h with
  | nil => exact nil _
  | cons before' h =>
    rw [← String.append_assoc, ← String.append_assoc]
    exact cons _ h

theorem append (ha : Shows ps a) (hb : Shows qs b) : Shows (ps ++ qs) (a ++ b) := by
  induction ha with
  | nil text => exact hb.prepend text
  | cons before h ih =>
    rw [String.append_assoc]
    exact cons before ih

theorem extend (h : Shows ps a) (after : String) : Shows ps (a ++ after) := by
  have h := h.append (nil after)
  rwa [List.append_nil] at h

theorem sublist {ps qs : List String} (h : Shows ps a) (hsub : qs.Sublist ps) : Shows qs a := by
  induction h generalizing qs with
  | nil text =>
    rw [List.sublist_nil.1 hsub]
    exact nil text
  | @cons p ps rest before h ih =>
    cases hsub with
    | cons _ hsub => exact (ih hsub).prepend (before ++ p)
    | cons_cons _ hsub => exact cons before (ih hsub)

theorem drop_before {before p : String} (h : Shows (qs ++ (before ++ p) :: ps) a) :
    Shows (qs ++ p :: ps) a := by
  induction qs generalizing a with
  | nil =>
    cases h with
    | cons start h =>
      rw [← String.append_assoc]
      exact cons (start ++ before) h
  | cons q qs ih =>
    cases h with
    | cons start h => exact cons start (ih h)

/-- What is shown is a part of the text. -/
theorem isInfix (h : Shows ps a) {p : String} (hp : p ∈ ps) : p.toList <:+: a.toList := by
  induction h with
  | nil => cases hp
  | @cons q qs rest before h ih =>
    rw [String.toList_append, String.toList_append]
    rcases List.mem_cons.1 hp with rfl | hp
    · exact ⟨before.toList, rest.toList, rfl⟩
    · exact (ih hp).trans (List.suffix_append ..).isInfix

/-- A line and what follows it. -/
theorem join_cons {sep line : String} {lines : List String} (hline : Shows ps line)
    (hlines : Shows qs (Text.join sep lines)) :
    Shows (ps ++ qs) (Text.join sep (line :: lines)) := by
  cases lines with
  | nil =>
    have h := hline.append hlines
    rwa [Text.join, String.append_empty] at h
  | cons next rest => exact (hline.extend sep).append hlines

theorem join_self (sep : String) (lines : List String) : Shows lines (Text.join sep lines) := by
  induction lines with
  | nil => exact .nil _
  | cons line lines ih => exact (Shows.single line).join_cons ih

theorem join {α : Type} {shown : α → List String} {text : α → String} {as : List α} (sep : String)
    (h : ∀ a ∈ as, Shows (shown a) (text a)) :
    Shows (as.flatMap shown) (Text.join sep (as.map text)) := by
  induction as with
  | nil => exact nil _
  | cons a as ih =>
    obtain ⟨ha, has⟩ := List.forall_mem_cons.1 h
    exact ha.join_cons (ih has)

/-- What one of the lines shows, all of them show. -/
theorem join_of_mem {lines : List String} (sep : String) (h : Shows ps a) (ha : a ∈ lines) :
    Shows ps (Text.join sep lines) := by
  induction lines with
  | nil => cases ha
  | cons line lines ih =>
    rcases List.mem_cons.1 ha with rfl | ha
    · rw [← List.append_nil ps]
      exact h.join_cons (.nil _)
    · exact (Shows.nil line).join_cons (ih ha)

end Shows

end ScriptSetup.Setup
