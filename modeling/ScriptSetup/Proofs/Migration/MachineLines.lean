import ScriptSetup.Migration.Report
import ScriptSetup.Proofs.Component.TableFindings
import ScriptSetup.Proofs.Setup.FilePlaces
import ScriptSetup.Proofs.Setup.PartDrafts

/-!
# Notices on one line

The format for machines puts each notice on a line of its own. Most words of a notice are fixed,
but some are taken over from the file: names of members, which may be string literals, decorators,
the source of an import, and what stands in a tag where it may not, which is the rest of the file
after a quote that is not closed. There is one line for each notice exactly when none of these
texts has a line feed.
-/

set_option autoImplicit false

namespace ScriptSetup

open Text

/-! ## Lines -/

theorem isMultiline_append (a b : String) :
    isMultiline (a ++ b) = (isMultiline a || isMultiline b) := by
  simp [isMultiline, hasChar]

theorem isMultiline_eq_false_iff {text : String} :
    isMultiline text = false ↔ '\n' ∉ text.toList := by
  simp [isMultiline, hasChar]

/-- A literal is known by its characters. -/
theorem isMultiline_ofList {cs : List Char} (h : '\n' ∉ cs) :
    isMultiline (String.ofList cs) = false := by
  rwa [isMultiline_eq_false_iff, String.toList_ofList]

/-- The text has this many lines, each ended by a line feed. -/
def IsLines (n : Nat) (text : String) : Prop :=
  ∃ lines : List (List Char), lines.length = n ∧ (∀ line ∈ lines, '\n' ∉ line) ∧
    text.toList = lines.flatMap (· ++ ['\n'])

theorem count_flatMap_lines (lines : List (List Char)) :
    (lines.flatMap (· ++ ['\n'])).count '\n' = lines.length + lines.flatten.count '\n' := by
  induction lines with
  | nil => rfl
  | cons line lines ih =>
    simp only [List.flatMap_cons, List.flatten_cons, List.count_append, ih, List.length_cons,
      List.count_singleton_self]
    omega

theorem count_flatten_eq_zero_iff {lines : List (List Char)} :
    lines.flatten.count '\n' = 0 ↔ ∀ line ∈ lines, '\n' ∉ line := by
  simp only [List.count_eq_zero, List.mem_flatten, not_exists, not_and]

theorem IsLines.count_eq {n : Nat} {text : String} (h : IsLines n text) :
    text.toList.count '\n' = n := by
  obtain ⟨lines, hlength, hlines, htext⟩ := h
  rw [htext, count_flatMap_lines, count_flatten_eq_zero_iff.2 hlines, hlength, Nat.add_zero]

theorem isLines_iff {text : String} {lines : List (List Char)}
    (htext : text.toList = lines.flatMap (· ++ ['\n'])) :
    IsLines lines.length text ↔ ∀ line ∈ lines, '\n' ∉ line := by
  constructor
  · intro h
    have hcount := h.count_eq
    rw [htext, count_flatMap_lines] at hcount
    exact count_flatten_eq_zero_iff.1 (by omega)
  · intro h
    exact ⟨lines, rfl, h, htext⟩

/-! ## What a notice takes over -/

/-- The texts of the source in the words of a finding. -/
def FindingCause.taken : FindingCause → List String
  | replacedExpr _ | replacedStmt _ | noEquivalent _ | mixins | removedExport => []
  | setterOnly name | undeclared name => [name]
  | droppedDecorator name member => [name, member]
  | removedImport source => [source]

/-- What a finding calls a piece of code fits on a line. -/
def FindingCause.hasPlainPhrase : FindingCause → Bool
  | replacedExpr what | replacedStmt what | noEquivalent what => !isMultiline what
  | mixins | setterOnly _ | droppedDecorator _ _ | undeclared _ | removedExport
  | removedImport _ => true

theorem FindingCause.isMultiline_message {cause : FindingCause}
    (h : cause.hasPlainPhrase = true) :
    isMultiline cause.message = cause.taken.any isMultiline := by
  -- the literals are named, so that each is looked at as a list of characters
  cases cause with
  | replacedExpr what | replacedStmt what =>
    have hwhat : isMultiline what = false := by simpa [hasPlainPhrase] using h
    show isMultiline (what ++ " was replaced by a placeholder") = false
    rw [isMultiline_append, hwhat, isMultiline_ofList]
    · rfl
    · decide
  | noEquivalent what =>
    have hwhat : isMultiline what = false := by simpa [hasPlainPhrase] using h
    show isMultiline (what ++ " has no <script setup> equivalent") = false
    rw [isMultiline_append, hwhat, isMultiline_ofList]
    · rfl
    · decide
  | mixins | removedExport => exact isMultiline_ofList (by decide)
  | setterOnly name =>
    show isMultiline ("computed `" ++ name ++ "` has a setter but no getter") = _
    rw [isMultiline_append, isMultiline_append, isMultiline_ofList, isMultiline_ofList]
    · rfl
    all_goals decide
  | removedImport source =>
    show isMultiline ("removed import of '" ++ source ++ "'") = _
    rw [isMultiline_append, isMultiline_append, isMultiline_ofList, isMultiline_ofList]
    · rfl
    all_goals decide
  | undeclared name =>
    show isMultiline ("`this." ++ name ++ "` is not declared by the class and becomes a bare `" ++
      name ++ "`") = (isMultiline name || false)
    simp only [isMultiline_append]
    rw [isMultiline_ofList, isMultiline_ofList, isMultiline_ofList]
    · cases isMultiline name <;> rfl
    all_goals decide
  | droppedDecorator name member =>
    show isMultiline ("@" ++ name ++ " on `" ++ member ++ "` was dropped") =
      (isMultiline name || (isMultiline member || false))
    simp only [isMultiline_append]
    rw [isMultiline_ofList, isMultiline_ofList, isMultiline_ofList]
    · cases isMultiline name <;> rfl
    all_goals decide

/-- The text of the source in the words of a fault. -/
def BlockFault.taken : BlockFault → List String
  | invalidAttribute found _ => [found]
  | unterminatedTag _ | unclosedBlock _ | unterminatedComment => []

/-- The tag that a fault is about. -/
def BlockFault.tagName : BlockFault → String
  | unterminatedTag name | unclosedBlock name | invalidAttribute _ name => name
  | unterminatedComment => ""

theorem BlockFault.isMultiline_message {fault : BlockFault}
    (h : isMultiline fault.tagName = false) :
    isMultiline fault.message = fault.taken.any isMultiline := by
  cases fault with
  | unterminatedTag name =>
    show isMultiline ("unterminated tag: <" ++ name) = false
    rw [isMultiline_append, show isMultiline name = false from h, isMultiline_ofList]
    · rfl
    · decide
  | unclosedBlock name =>
    show isMultiline ("unclosed block: <" ++ name ++ "> has no matching </" ++ name ++ ">") = false
    simp only [isMultiline_append, show isMultiline name = false from h]
    rw [isMultiline_ofList, isMultiline_ofList, isMultiline_ofList]
    · rfl
    all_goals decide
  | invalidAttribute found name =>
    show isMultiline ("invalid attribute: unexpected " ++ found ++ " in <" ++ name ++ ">") =
      (isMultiline found || false)
    simp only [isMultiline_append, show isMultiline name = false from h]
    rw [isMultiline_ofList, isMultiline_ofList, isMultiline_ofList]
    · cases isMultiline found <;> rfl
    all_goals decide
  | unterminatedComment => exact isMultiline_ofList (by decide)

namespace Block

theorem Header.tagName_of_readFrom_error {start : Nat} {name : String}
    {attributes : List Attribute} {pending : Bool} {tokens : List TagToken}
    {e : BlockError} (h : readFrom start name attributes pending tokens = .error e) :
    e.fault.tagName = name := by
  fun_induction readFrom start name attributes pending tokens with
  | case1 | case2 => cases h; rfl
  | case3 | case4 => cases h
  | case5 _ _ _ _ ih => exact ih h
  | case6 => cases Except.error.inj h; rfl
  | case7 _ _ _ _ _ ih | case8 _ _ _ _ ih | case9 _ _ _ _ ih | case10 _ _ _ _ ih => exact ih h
  | case11 => cases Except.error.inj h; rfl

theorem isMultiline_tagName_of_read {source cs : List Char} {start : Nat} {e : BlockError}
    (h : read source start cs = .error e) : isMultiline e.fault.tagName = false := by
  have hname : isMultiline (String.ofList (cs.takeWhile isTagNameChar)) = false := by
    rw [isMultiline_eq_false_iff, String.toList_ofList]
    intro hmem
    have hchar := List.all_eq_true.1 List.all_takeWhile '\n' hmem
    cases hchar
  simp only [read] at h
  split at h
  · rename_i e' hread
    cases h
    rw [Header.tagName_of_readFrom_error hread]
    exact hname
  · split at h
    · cases h
    · split at h
      · cases h
        exact hname
      · cases h

theorem isMultiline_tagName_of_splitFrom {source cs : List Char} {steps offset : Nat}
    {e : BlockError} (h : (splitFrom source steps offset cs).error? = some e) :
    isMultiline e.fault.tagName = false := by
  fun_induction splitFrom source steps offset cs with
  | case1 | case2 => cases h
  | case3 _ _ _ _ _ _ _ ih => exact ih h
  | case4 =>
    cases h
    rfl
  | case5 _ _ _ _ _ _ hread =>
    cases h
    exact isMultiline_tagName_of_read hread
  | case6 _ _ _ _ _ _ _ _ _ ih | case7 _ _ _ _ _ ih | case8 _ _ _ _ _ ih => exact ih h

end Block

namespace Setup

open Component

/-- The texts of the file in the words of an error. A syntax error has words of its own. -/
def FileError.taken : FileError → List String
  | .blocks e => e.fault.taken
  | .script (.notModule fault) => [fault.cause.message]
  | .script (.decorator malformed) => [malformed.member]

/-- The texts that are taken over into the notices about a conversion. -/
def takenTexts : Except FileError Outcome → List String
  | .ok (.converted c) => c.findings.flatMap (·.cause.taken)
  | .ok (.skipped _) => []
  | .error e => e.taken

theorem hasPlainPhrase_of_tables {source : List Char} {denied : List String}
    {items : List Script.ModuleItem} {t : Tables} (h : Tables.ofModule source denied items = .ok t)
    {f : Finding} (hf : f ∈ t.findings) : f.cause.hasPlainPhrase = true := by
  cases hcause : isMemberCause f.cause with
  | true =>
    cases hf' : f.cause with
    | replacedExpr | replacedStmt =>
      rw [hf'] at hcause
      cases hcause
    | noEquivalent what =>
      rw [hf'] at hcause
      exact hcause
    | _ => rfl
  | false =>
    have himport : f ∈ importFindings t.findings := List.mem_filter.2 ⟨hf, by rw [hcause]; rfl⟩
    rw [Tables.importFindings_ofModule h] at himport
    obtain ⟨decl, -, rfl⟩ := List.mem_map.1 himport
    rfl

theorem hasPlainPhrase_of_writing {cause : FindingCause} (h : isWritingCause cause = true) :
    cause.hasPlainPhrase = true := by
  cases cause with
  | replacedExpr what | replacedStmt what => exact h
  | noEquivalent what => cases h
  | _ => rfl

section

variable {source : String} {o : Options}

theorem hasPlainPhrase_of_converted {c : Converted}
    (h : convertFile source o = .ok (.converted c)) :
    ∀ f ∈ c.findings, f.cause.hasPlainPhrase = true := by
  obtain ⟨script, converted, -, hcontent, rfl⟩ := convertFile_eq_converted_iff.1 h
  obtain ⟨items, t, -, htables, rfl⟩ := convertScript_eq_ok_iff.1 hcontent
  intro f hf
  obtain ⟨found, hfound, rfl⟩ := List.mem_map.1 hf
  show found.cause.hasPlainPhrase = true
  rcases List.mem_append.1 ((List.mergeSort_perm _ _).mem_iff.1 hfound) with hfound | hfound
  · exact hasPlainPhrase_of_tables htables hfound
  · exact hasPlainPhrase_of_writing (writeParts_caused _ t found hfound)

theorem FileError.isMultiline_message {e : FileError} (h : convertFile source o = .error e) :
    isMultiline e.message = e.taken.any isMultiline := by
  match e with
  | .blocks e =>
    have hname := Block.isMultiline_tagName_of_splitFrom (convertFile_eq_blocks_iff.1 h)
    show isMultiline ("invalid component file: " ++ e.fault.message) = _
    rw [isMultiline_append, BlockFault.isMultiline_message hname, isMultiline_ofList]
    · rfl
    · decide
  | .script (.notModule fault) =>
    show isMultiline ("syntax error in logic block: " ++ fault.cause.message) =
      (isMultiline fault.cause.message || false)
    rw [isMultiline_append, Bool.or_false, isMultiline_ofList]
    · rfl
    · decide
  | .script (.decorator malformed) =>
    show isMultiline ("malformed @" ++ malformed.decorator.name ++ " on `" ++ malformed.member ++
      "`: " ++ malformed.fault.reason) = (isMultiline malformed.member || false)
    have hdecorator : isMultiline malformed.decorator.name = false := by
      cases malformed.decorator <;> exact isMultiline_ofList (by decide)
    have hreason : isMultiline malformed.fault.reason = false := by
      cases malformed.fault <;> exact isMultiline_ofList (by decide)
    simp only [isMultiline_append, hdecorator, hreason]
    rw [isMultiline_ofList, isMultiline_ofList, isMultiline_ofList]
    · cases isMultiline malformed.member <;> rfl
    all_goals decide

end

end Setup

namespace Migration

open Setup

/-! ## Notices in the format for machines -/

namespace Notice

/-- The notice without the line feed at its end. -/
def line (fileName : String) (index : LineIndex) (n : Notice) : String :=
  n.level.capitals ++ " " ++ fileName ++ ":" ++ place (index.position n.span.start) ++ ":" ++
    place (index.position n.span.stop) ++ " " ++ n.message ++ " (" ++ n.code ++ ")"

theorem machine_eq (fileName : String) (index : LineIndex) (n : Notice) :
    n.machine fileName index = n.line fileName index ++ "\n" := by
  rw [machine, line, show ")\n" = ")" ++ "\n" from rfl, ← String.append_assoc]

theorem isMultiline_number (k : Nat) : isMultiline (number k) = false := by
  rw [isMultiline_eq_false_iff]
  intro h
  have hdigits : (number k).toList = Nat.toDigits 10 k := String.toList_ofList
  rw [hdigits] at h
  cases Nat.isDigit_of_mem_toDigits (by decide) (by decide) h

theorem isMultiline_place (p : Position) : isMultiline (place p) = false := by
  rw [place, isMultiline_append, isMultiline_append, isMultiline_number, isMultiline_number]
  rfl

theorem isMultiline_line {fileName : String} (hname : isMultiline fileName = false)
    (index : LineIndex) {n : Notice} (hcode : isMultiline n.code = false) :
    isMultiline (n.line fileName index) = isMultiline n.message := by
  have hlevel : isMultiline n.level.capitals = false := by
    cases n.level <;> rfl
  simp only [line, isMultiline_append, isMultiline_place, hname, hcode, hlevel]
  cases isMultiline n.message <;> rfl

theorem isMultiline_code (outcome : Except FileError Outcome) :
    ∀ n ∈ ofOutcome outcome, isMultiline n.code = false := by
  intro n hn
  match outcome with
  | .ok (.converted c) =>
    obtain ⟨f, -, rfl⟩ := List.mem_map.1 hn
    show isMultiline f.code.text = false
    cases f.code <;> exact isMultiline_ofList (by decide)
  | .error e =>
    cases List.mem_singleton.1 hn
    show isMultiline (errorCode e) = false
    unfold errorCode
    split <;> exact isMultiline_ofList (by decide)

/-- A notice fits on a line when the texts that it takes over do. -/
theorem fit_iff (source : String) (o : Options) :
    (∀ n ∈ ofOutcome (convertFile source o), isMultiline n.message = false) ↔
      ∀ text ∈ takenTexts (convertFile source o), isMultiline text = false := by
  rcases h : convertFile source o with e | c | reason
  · have hmessage := FileError.isMultiline_message h
    simp only [ofOutcome, takenTexts, List.forall_mem_singleton]
    show isMultiline e.message = false ↔ _
    simp [hmessage]
  · simp only [ofOutcome, takenTexts, List.forall_mem_map, List.forall_mem_flatMap]
    refine forall₂_congr fun f hf => ?_
    have hmessage : isMultiline f.message = f.cause.taken.any isMultiline :=
      FindingCause.isMultiline_message (hasPlainPhrase_of_converted h f hf)
    show isMultiline f.message = false ↔ _
    simp [hmessage]
  · exact iff_of_true (List.forall_mem_nil _) (List.forall_mem_nil _)

end Notice

/-- In the format for machines there is one line for each notice about a file exactly when no text
that is taken over from the file has a line feed. -/
theorem machine_isLines_iff (source : String) (o : Options) {fileName : String}
    (hname : isMultiline fileName = false) :
    let outcome := convertFile source o
    let notices := Notice.ofOutcome outcome
    IsLines notices.length (Format.machine.render notices fileName source) ↔
      ∀ text ∈ takenTexts outcome, isMultiline text = false := by
  intro outcome notices
  let index := LineIndex.ofText source
  have htext : (Format.machine.render notices fileName source).toList =
      (notices.map fun n => (n.line fileName index).toList).flatMap (· ++ ['\n']) := by
    show (join "" (notices.map (Notice.machine fileName index))).toList = _
    rw [Block.join_empty_toList, List.map_map, ← List.flatMap_def, List.flatMap_map]
    refine congrArg notices.flatMap (funext fun n => ?_)
    show (n.machine fileName index).toList = _
    rw [Notice.machine_eq, String.toList_append]
    rfl
  have hlines := isLines_iff htext
  rw [List.length_map, List.forall_mem_map] at hlines
  rw [hlines, ← Notice.fit_iff]
  refine forall₂_congr fun n hn => ?_
  rw [← isMultiline_eq_false_iff,
    Notice.isMultiline_line hname index (Notice.isMultiline_code outcome n hn)]

/-- A component with a method that is decorated as a field, and has a string for its name. -/
def misplacedProp : String :=
  "<script>\n@Component export default class A \x7b @Prop 'no field'() \x7b\x7d \x7d\n</script>"

theorem machine_isLines_of_misplaced_prop :
    IsLines 1 (Format.machine.render (Notice.ofOutcome (convertFile misplacedProp {}))
      "A.vue" misplacedProp) := by
  have hlength : (Notice.ofOutcome (convertFile misplacedProp {})).length = 1 := by
    decide +kernel
  have hname : isMultiline "A.vue" = false := by decide
  have h := (machine_isLines_iff misplacedProp {} hname).2 (by decide +kernel)
  rwa [hlength] at h

/-- A quote that is not closed takes the rest of the file into the notice. -/
theorem machine_splits_open_quote :
    let source := "<a \"\n"
    let text := Format.machine.render (Notice.ofOutcome (convertFile source {})) "A.vue" source
    text = "ERROR A.vue:1:4:2:1 invalid component file: invalid attribute: unexpected " ++
        "\"\n in <a> (invalid-component)\n" ∧ ¬ IsLines 1 text := by
  have htext : Format.machine.render (Notice.ofOutcome (convertFile "<a \"\n" {})) "A.vue"
      "<a \"\n" = "ERROR A.vue:1:4:2:1 invalid component file: invalid attribute: unexpected " ++
        "\"\n in <a> (invalid-component)\n" := by
    decide +kernel
  refine ⟨htext, fun h => ?_⟩
  have hcount := h.count_eq
  rw [htext] at hcount
  revert hcount
  decide

end Migration

end ScriptSetup
