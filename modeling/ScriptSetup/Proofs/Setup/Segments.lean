import ScriptSetup.Proofs.Setup.Capture

/-!
# The segments of a document

A document is filled in the order in which its parts are written and read in the order of its
segments. Each segment of the document of a component has the pieces of one part, and nothing
that was written is missing.
-/

set_option autoImplicit false

namespace ScriptSetup.Setup

open Component Written

namespace Document

variable (d : Document) (s seg : Segment)

theorem segment_push (piece : String) :
    (d.push s piece).segment seg = d.segment seg ++ if s = seg then [piece] else [] := by
  rw [segment, push, List.filter_append, List.map_append]
  by_cases h : s = seg
  · simp [segment, h]
  · simp [segment, h]

theorem segment_extend (pieces : List String) :
    (d.extend s pieces).segment seg = d.segment seg ++ if s = seg then pieces else [] := by
  induction pieces generalizing d with
  | nil => simp [extend]
  | cons piece pieces ih =>
    have hstep : d.extend s (piece :: pieces) = (d.push s piece).extend s pieces := rfl
    rw [hstep, ih, segment_push]
    by_cases h : s = seg
    · simp [h]
    · simp [h]

end Document

/-- The pieces of each segment of the document of a component. -/
def segmentPieces (framework : String) (t : Tables) (w : Written Parts) : Segment → List String
  | .imports => t.imports.map importText
    ++ (frameworkImport framework (frameworkNames t (firstUses w.templateRefs))).toList
  | .separator =>
    if t.imports.isEmpty && (frameworkNames t (firstUses w.templateRefs)).isEmpty then [] else [""]
  | .inputs => w.value.inputs
  | .events => w.value.events
  | .observers => w.value.watchers
  | .reactiveFields => w.value.refs ++ (firstUses w.templateRefs).map templateRefBinding
  | .computedAccessors => w.value.accessors
  | .body => w.value.body

theorem isNone_frameworkImport (framework : String) (names : List String) :
    (frameworkImport framework names).isNone = names.isEmpty := by
  cases names with
  | nil | cons name names => rfl

/-- Every part is in its segment. -/
theorem segment_document (framework : String) (t : Tables) (w : Written Parts) (seg : Segment) :
    (document framework t w).segment seg = segmentPieces framework t w seg := by
  rw [document]
  simp only [List.isEmpty_map, isNone_frameworkImport]
  split
  · rename_i hnone
    simp only [Document.segment_extend]
    cases seg <;> simp [segmentPieces, hnone, Document.segment, Document.empty]
  · rename_i hsome
    simp only [Document.segment_push, Document.segment_extend]
    cases seg <;> simp [segmentPieces, hsome, Document.segment, Document.empty]

end ScriptSetup.Setup
