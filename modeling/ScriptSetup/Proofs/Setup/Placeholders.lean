import ScriptSetup.Proofs.Script.ModuleReaders
import ScriptSetup.Proofs.Setup.Marks
import ScriptSetup.Proofs.Setup.Segments
import ScriptSetup.Proofs.Setup.Shows

/-!
# No silent placeholder

Where code cannot be converted, a comment stands in its place. A `ScriptDraft` is a converted text
with holes for these comments, and `ScriptDraft.codeWith` fills them in. The converted text is the
draft filled with the usual comments. Each hole has a finding of its own within what it stands for,
and these are all findings about replaced code; so a text without such findings is the same for all
comments. Each comment stands in the text, after the ones before it.

What the drafts of single constructs need to know of a tree holds of every module that is read. Only
that types can be copied is not known: their spans may lie elsewhere when the text starts with a
byte order mark.
-/

set_option autoImplicit false

namespace ScriptSetup.Setup

open Script Component Written Text

/-! ## Texts that show others -/

namespace Shows

section

variable {α : Type} {shown : α → List String} {text : α → String} {as : List α}

theorem joinBody (h : ∀ a ∈ as, Shows (shown a) (text a)) :
    Shows (as.flatMap shown) (Document.joinBody (as.map text)) := by
  induction as with
  | nil => exact nil _
  | cons a as ih =>
    obtain ⟨ha, has⟩ := List.forall_mem_cons.1 h
    cases as with
    | nil =>
      rw [List.flatMap_singleton]
      exact ha
    | cons b rest =>
      rw [List.flatMap_cons]
      exact (ha.extend _).append (ih has)

/-- Texts without anything to show may be left out. -/
theorem flatMap_filter (keep : String → Bool)
    (hdrop : ∀ a ∈ as, keep (text a) = false → shown a = []) :
    (as.filter (keep ∘ text)).flatMap shown = as.flatMap shown := by
  induction as with
  | nil => rfl
  | cons a as ih =>
    obtain ⟨ha, has⟩ := List.forall_mem_cons.1 hdrop
    rw [List.flatMap_cons, ← ih has]
    cases hkeep : keep (text a) with
    | true => rw [List.filter_cons_of_pos (p := keep ∘ text) hkeep, List.flatMap_cons]
    | false =>
      rw [List.filter_cons_of_neg (by simp [hkeep]), ha hkeep, List.nil_append]

theorem of_filter (keep : String → Bool) {layout : List String → String}
    (hlayout : ∀ bs : List α, (∀ a ∈ bs, Shows (shown a) (text a)) →
      Shows (bs.flatMap shown) (layout (bs.map text)))
    (h : ∀ a ∈ as, Shows (shown a) (text a))
    (hdrop : ∀ a ∈ as, keep (text a) = false → shown a = []) :
    Shows (as.flatMap shown) (layout ((as.map text).filter keep)) := by
  rw [← flatMap_filter keep hdrop, List.filter_map]
  exact hlayout _ fun a ha => h a (List.mem_of_mem_filter ha)

end

end Shows

/-! ## Placeholders in texts -/

/-- The text cannot be mistaken for layout: it is longer than a semicolon and does not end with
white space. -/
structure Solid (p : String) : Prop where
  length : 1 < p.toList.length
  last : ∃ front c, p.toList = front ++ [c] ∧ isBlankChar c = false

theorem solid_exprPlaceholder : Solid exprPlaceholder :=
  ⟨by decide, (exprPlaceholder.toList).dropLast, '/', by decide, by decide⟩

theorem solid_stmtPlaceholder : Solid stmtPlaceholder :=
  ⟨by decide, (stmtPlaceholder.toList).dropLast, 'd', by decide, by decide⟩

namespace Shows

variable {ps : List String} {a : String}

theorem eq_nil_of_semicolon (h : Shows ps ";") (hps : ∀ p ∈ ps, Solid p) : ps = [] := by
  cases ps with
  | nil => rfl
  | cons p ps =>
    have hlength := (h.isInfix List.mem_cons_self).length_le
    exact absurd (hps p List.mem_cons_self).length (Nat.not_lt.2 hlength)

theorem eq_nil_of_blank (h : Shows ps a) (hps : ∀ p ∈ ps, Solid p) (ha : isBlank a = true) :
    ps = [] := by
  cases ps with
  | nil => rfl
  | cons p ps =>
    obtain ⟨front, c, hp, hc⟩ := (hps p List.mem_cons_self).last
    have hmem : c ∈ a.toList := (h.isInfix List.mem_cons_self).subset (by rw [hp]; simp)
    rw [List.all_eq_true.1 ha c hmem] at hc
    cases hc

end Shows

theorem dropBlankEnd_append {xs ys : List Char} {c : Char} (hc : isBlankChar c = false) :
    dropBlankEnd (xs ++ [c] ++ ys) = xs ++ [c] ++ dropBlankEnd ys := by
  rw [dropBlankEnd, dropBlankEnd, List.reverse_append, List.dropWhile_append]
  split
  · rename_i hempty
    rw [List.isEmpty_iff.1 hempty, List.reverse_append]
    simp [hc]
  · simp

/-- Cutting white space off the end hides no placeholder. -/
theorem Shows.trimEnd {ps : List String} {a : String} (h : Shows ps a) (hps : ∀ p ∈ ps, Solid p) :
    Shows ps (Text.trimEnd a) := by
  induction h with
  | nil => exact .nil _
  | @cons p ps rest before h ih =>
    obtain ⟨hp, hps⟩ := List.forall_mem_cons.1 hps
    obtain ⟨front, c, hlast, hc⟩ := hp.last
    have htrim : Text.trimEnd (before ++ p ++ rest) = before ++ p ++ Text.trimEnd rest := by
      apply String.toList_inj.1
      simp only [Text.trimEnd, String.toList_append, String.toList_ofList, hlast]
      rw [← List.append_assoc, dropBlankEnd_append hc]
    rw [htrim]
    exact .cons before (ih hps)

/-! ## Drafts show their holes -/

theorem Placeholder.Reported.solid {h : Placeholder} (hh : h.Reported) : Solid h.text := by
  rcases hh.text with htext | htext
  · exact htext ▸ solid_exprPlaceholder
  · exact htext ▸ solid_stmtPlaceholder

mutual

/-- Every hole of a sound draft is reported. -/
theorem draft_reported : ∀ {d : Draft}, d.Sound → ∀ h ∈ d.holes, h.Reported
  | .text _, _ => fun _ => nofun
  | .hole _, hd => List.forall_mem_singleton.2 hd
  | .append _ _, hd => List.forall_mem_append.2 ⟨draft_reported hd.1, draft_reported hd.2⟩
  | .object _ _, hd => drafts_reported hd
  | .unary _ arg, hd => @draft_reported arg hd
  | .hoisted _, hd => drafts_reported hd

theorem drafts_reported : ∀ {ds : List Draft}, draftsSound ds → ∀ h ∈ draftHoles ds, h.Reported
  | [], _ => fun _ => nofun
  | _ :: _, hds => List.forall_mem_append.2 ⟨draft_reported hds.1, drafts_reported hds.2⟩

end

/-- The texts of the placeholders of a draft. -/
def Draft.shown (d : Draft) : List String := d.holes.map Placeholder.text

/-- The text of a draft with the usual placeholders. -/
def Draft.code (d : Draft) : String := d.textWith Placeholder.text

theorem solid_of_mem_shown {d : Draft} (hd : d.Sound) : ∀ p ∈ d.shown, Solid p := by
  intro p hp
  obtain ⟨h, hh, rfl⟩ := List.mem_map.1 hp
  exact (draft_reported hd h hh).solid

theorem map_text_draftHoles (ds : List Draft) :
    (draftHoles ds).map Placeholder.text = ds.flatMap Draft.shown := by
  rw [draftHoles_eq_flatMap, List.map_flatMap]
  rfl

theorem shows_objectText {level : Nat} {ds : List Draft} (h : ∀ d ∈ ds, Shows d.shown d.code) :
    Shows (ds.flatMap Draft.shown) (objectText level (ds.map Draft.code)) := by
  rw [objectText]
  split
  · rename_i hempty
    obtain rfl := List.map_eq_nil_iff.1 (List.isEmpty_iff.1 hempty)
    exact .nil _
  · split
    · exact ((Shows.join ", " h).prepend _).extend _
    · have hlines : ∀ d ∈ ds, Shows d.shown (pad (level + 1) ++ d.code ++ ",") := fun d hd =>
        ((h d hd).prepend _).extend _
      rw [List.map_map]
      exact (((Shows.join "\n" hlines).prepend _).extend _).extend _ |>.extend _

theorem shows_unaryText {op : UnaryOp} {ps : List String} {arg : String} (h : Shows ps arg) :
    Shows ps (unaryText op arg) := by
  rw [unaryText.eq_def]
  split
  · exact h.prepend _
  · exact h.prepend _
  · exact h.prepend _
  · split
    · exact h.prepend _
    · exact h.prepend _
  · split
    · exact h.prepend _
    · exact h.prepend _
  · exact h.prepend _
  · exact h.prepend _

mutual

/-- A sound draft shows its placeholders. -/
theorem draft_shows : ∀ {d : Draft}, d.Sound → Shows d.shown d.code
  | .text s, _ => .nil s
  | .hole h, _ => .single h.text
  | .append a b, hd => by
    have h := (draft_shows (d := a) hd.1).append (draft_shows (d := b) hd.2)
    rwa [Draft.shown, Draft.shown, ← List.map_append] at h
  | .object level props, hd => by
    have h := @shows_objectText level props (drafts_show hd)
    rwa [← map_text_draftHoles, show props.map Draft.code = _ from
      (draftTexts_eq_map Placeholder.text props).symm] at h
  | .unary op arg, hd => shows_unaryText (draft_shows (d := arg) hd)
  | .hoisted lines, hd => by
    have hlines := drafts_show hd
    have hdrop : ∀ d ∈ lines, (d.code != ";") = false → d.shown = [] := by
      intro d hmem hsemicolon
      have hshows := hlines d hmem
      rw [show d.code = ";" by simpa using hsemicolon] at hshows
      exact hshows.eq_nil_of_semicolon
        (solid_of_mem_shown ((draftsSound_iff lines).1 hd d hmem))
    have h := Shows.of_filter (· != ";") (fun _ => Shows.join "\n") hlines hdrop
    rwa [← map_text_draftHoles,
      show lines.map Draft.code = _ from (draftTexts_eq_map Placeholder.text lines).symm] at h

theorem drafts_show : ∀ {ds : List Draft}, draftsSound ds → ∀ d ∈ ds, Shows d.shown d.code
  | [], _ => fun _ => nofun
  | _ :: _, hds => List.forall_mem_cons.2 ⟨draft_shows hds.1, drafts_show hds.2⟩

end

mutual

/-- Without holes it does not matter what placeholders look like. -/
theorem textWith_of_holes_eq_nil (fill fill' : Placeholder → String) : ∀ {d : Draft}, d.holes = [] →
    d.textWith fill = d.textWith fill'
  | .text _, _ | .dropped _, _ => rfl
  | .append a b, h => by
    obtain ⟨ha, hb⟩ := List.append_eq_nil_iff.1 h
    exact congrArg₂ (· ++ ·) (textWith_of_holes_eq_nil fill fill' ha)
      (textWith_of_holes_eq_nil fill fill' hb)
  | .object level _, h => congrArg (objectText level) (draftTexts_of_holes_eq_nil fill fill' h)
  | .unary op arg, h => congrArg (unaryText op) (@textWith_of_holes_eq_nil fill fill' arg h)
  | .hoisted _, h =>
    congrArg (fun lines : List String => Text.join "\n" (lines.filter (· != ";")))
      (draftTexts_of_holes_eq_nil fill fill' h)

theorem draftTexts_of_holes_eq_nil (fill fill' : Placeholder → String) : ∀ {ds : List Draft},
    draftHoles ds = [] → draftTexts fill ds = draftTexts fill' ds
  | [], _ => rfl
  | _ :: _, h => by
    obtain ⟨hd, hds⟩ := List.append_eq_nil_iff.1 h
    exact congrArg₂ List.cons (textWith_of_holes_eq_nil fill fill' hd)
      (draftTexts_of_holes_eq_nil fill fill' hds)

end

/-! ## The document -/

/-- The drafts of everything but the imports. -/
structure PartDrafts where
  inputs : List Draft
  events : List Draft
  watchers : List Draft
  refs : List Draft
  accessors : List Draft
  body : List Draft

/-- The drafts of the parts of a component, with these placeholders for its members. -/
def partDrafts (s : Scope) (t : Tables) (members : List Placeholder) : PartDrafts where
  inputs := inputDrafts s t.inputs
  events := eventDrafts s t.events
  watchers := t.watchers.map (watchDraft s)
  refs := t.refs.map (refDraft s)
  accessors := t.accessors.filterMap (computedDraft s)
  body := bodyDrafts s t.events t.body members

namespace PartDrafts

/-- All drafts, in the order of the document. -/
def all (d : PartDrafts) : List Draft :=
  d.inputs ++ d.events ++ d.watchers ++ d.refs ++ d.accessors ++ d.body

/-- All holes, in the order of the document. -/
def holes (d : PartDrafts) : List Placeholder := d.all.flatMap Draft.holes

/-- The parts with these placeholders. -/
def parts (fill : Placeholder → String) (d : PartDrafts) : Parts where
  inputs := d.inputs.map (Draft.textWith fill)
  events := d.events.map (Draft.textWith fill)
  watchers := d.watchers.map (Draft.textWith fill)
  accessors := d.accessors.map (Draft.textWith fill)
  body := d.body.map (Draft.textWith fill)
  refs := d.refs.map (Draft.textWith fill)

end PartDrafts

/-- What is written is as drafted, and the findings about replaced code are those of the holes. -/
theorem writeParts_drafted {s : Scope} {t : Tables} {members : List Placeholder}
    (h : Marks members t) (htext : ∀ h ∈ members, h.text = stmtPlaceholder) :
    (writeParts s t).value = (partDrafts s t members).parts Placeholder.text ∧
    ((t.findings ++ (writeParts s t).findings).filter isReplacement).Perm
      (reported (partDrafts s t members).holes) := by
  obtain ⟨hinputs, finputs, -⟩ := inputDeclarations_drafted s t.inputs
  obtain ⟨hevents, fevents, -⟩ := eventDeclarations_drafted s t.events
  obtain ⟨hwatchers, fwatchers, -⟩ := drafted_all (watchRegistration_drafted s) t.watchers
  obtain ⟨haccessors, faccessors, -⟩ := gives_all (computedBinding_drafted s) t.accessors
  obtain ⟨hrefs, frefs, -⟩ := drafted_all (refBinding_drafted s) t.refs
  obtain ⟨hbody, fbody⟩ := body_drafted s t.events h.body htext
  rw [flatMap_reported] at faccessors
  constructor
  · have hbindings := congrArg (List.filterMap id) haccessors
    rw [filterMap_texts] at hbindings
    show Parts.mk _ _ _ _ _ _ = _
    rw [hinputs, hevents, hwatchers, hbindings, hbody, hrefs]
    rfl
  · show ((t.findings ++ (_ ++ (_ ++ (_ ++ (_ ++ (_ ++ (_ ++ []))))))).filter isReplacement).Perm _
    simp only [List.filter_append, h.findings, finputs, fevents, fwatchers, faccessors, frefs,
      List.append_nil, PartDrafts.holes, PartDrafts.all, partDrafts,
      List.flatMap_append, reported_append]
    refine List.perm_iff_count.2 fun f => ?_
    have hcount := fbody.count_eq f
    simp only [List.count_append] at hcount ⊢
    omega

/-! ## Segments -/

/-- Leaving out blank pieces hides no placeholder. -/
theorem shows_solid {ds : List Draft} (hds : draftsSound ds) {layout : List String → String}
    (hlayout : ∀ ds : List Draft, (∀ d ∈ ds, Shows d.shown d.code) →
      Shows (ds.flatMap Draft.shown) (layout (ds.map Draft.code))) (after : String) :
    Shows (ds.flatMap Draft.shown)
      (if ((ds.map Draft.code).filter (!isBlank ·)).isEmpty then ""
      else layout ((ds.map Draft.code).filter (!isBlank ·)) ++ after) := by
  have hdrop : ∀ d ∈ ds, (!isBlank d.code) = false → d.shown = [] := by
    intro d hd hblank
    have hsound := (draftsSound_iff ds).1 hds d hd
    exact (draft_shows hsound).eq_nil_of_blank (solid_of_mem_shown hsound) (by simpa using hblank)
  have h := Shows.of_filter (!isBlank ·) hlayout (drafts_show hds) hdrop
  split
  · rename_i hempty
    rw [List.filter_map, List.isEmpty_map, List.isEmpty_iff] at hempty
    rw [← Shows.flatMap_filter (!isBlank ·) hdrop, hempty]
    exact .nil _
  · exact h.extend after

theorem shows_segmentText {ds : List Draft} (hds : draftsSound ds) {seg : Segment}
    (hseg : seg ≠ .separator) :
    Shows (ds.flatMap Draft.shown) (Document.segmentText seg (ds.map Draft.code)) := by
  cases seg with
  | separator => cases hseg rfl
  | body => exact shows_solid hds (fun _ => Shows.joinBody) "\n"
  | imports => exact shows_solid hds (fun _ => Shows.join "\n") "\n"
  | _ => exact shows_solid hds (fun _ => Shows.join "\n") "\n\n"

namespace PartDrafts

/-- The drafts of a segment. -/
def segment (d : PartDrafts) : Segment → List Draft
  | .inputs => d.inputs
  | .events => d.events
  | .observers => d.watchers
  | .reactiveFields => d.refs
  | .computedAccessors => d.accessors
  | .body => d.body
  | .imports | .separator => []

theorem flatMap_segment (d : PartDrafts) :
    Segment.all.flatMap (fun seg => (d.segment seg).flatMap Draft.shown) =
      d.holes.map Placeholder.text := by
  have hshown : Draft.shown = fun d => d.holes.map Placeholder.text := rfl
  simp [Segment.all, segment, holes, all, List.map_flatMap, hshown]

theorem shows_segmentPieces {d : PartDrafts} (hd : draftsSound d.all) (framework : String)
    (t : Tables) (templateRefs : List String) (findings : List Finding) (seg : Segment) :
    Shows ((d.segment seg).flatMap Draft.shown) (Document.segmentText seg
      (segmentPieces framework t ⟨d.parts Placeholder.text, templateRefs, findings⟩ seg)) := by
  simp only [all, draftsSound_iff, List.forall_mem_append] at hd
  simp only [← draftsSound_iff] at hd
  obtain ⟨⟨⟨⟨⟨hinputs, hevents⟩, hwatchers⟩, hrefs⟩, haccessors⟩, hbody⟩ := hd
  cases seg with
  | imports | separator => exact .nil _
  | inputs => exact shows_segmentText hinputs nofun
  | events => exact shows_segmentText hevents nofun
  | observers => exact shows_segmentText hwatchers nofun
  | computedAccessors => exact shows_segmentText haccessors nofun
  | body => exact shows_segmentText hbody nofun
  | reactiveFields =>
    -- the bindings of template references are drafts without holes
    let bindings := (firstUses templateRefs).map fun name => Draft.text (templateRefBinding name)
    have hbindings : draftsSound bindings :=
      (draftsSound_iff _).2 (List.forall_mem_map.2 fun name _ => trivial)
    have hall : draftsSound (d.refs ++ bindings) := by
      rw [draftsSound_iff] at hrefs hbindings ⊢
      exact List.forall_mem_append.2 ⟨hrefs, hbindings⟩
    have hcode : bindings.map Draft.code = (firstUses templateRefs).map templateRefBinding := by
      simp [bindings, Draft.code]
    have hshown : bindings.flatMap Draft.shown = [] := by
      simp [bindings, Draft.shown]
    have h := @shows_segmentText _ hall .reactiveFields nofun
    rwa [List.flatMap_append, hshown, List.append_nil, List.map_append, hcode] at h

end PartDrafts

/-! ## Converted texts -/

/-- The draft of a converted text. -/
structure ScriptDraft where
  framework : String
  tables : Tables
  templateRefs : List String
  parts : PartDrafts

/-- The draft of the converted form of a component. -/
def scriptDraft (source : List Char) (framework : String) (items : List ModuleItem) (t : Tables) :
    ScriptDraft where
  framework := framework
  tables := t
  templateRefs := (writeParts (Scope.ofTables source t) t).templateRefs
  parts := partDrafts (Scope.ofTables source t) t (modulePlaceholders items)

namespace ScriptDraft

/-- The converted text with these placeholders. -/
def codeWith (d : ScriptDraft) (fill : Placeholder → String) : String :=
  (document d.framework d.tables ⟨d.parts.parts fill, d.templateRefs, []⟩).render

/-- The placeholders of a converted text, in the order in which they stand. -/
def holes (d : ScriptDraft) : List Placeholder := d.parts.holes

theorem codeWith_of_holes_eq_nil {d : ScriptDraft} (h : d.holes = [])
    (fill fill' : Placeholder → String) : d.codeWith fill = d.codeWith fill' := by
  have htexts {ds : List Draft} (hds : ds.flatMap Draft.holes = []) :
      ds.map (Draft.textWith fill) = ds.map (Draft.textWith fill') := by
    rw [← draftTexts_eq_map, ← draftTexts_eq_map]
    exact draftTexts_of_holes_eq_nil fill fill' (by rwa [draftHoles_eq_flatMap])
  simp only [holes, PartDrafts.holes, PartDrafts.all, List.flatMap_append,
    List.append_eq_nil_iff] at h
  obtain ⟨⟨⟨⟨⟨hinputs, hevents⟩, hwatchers⟩, hrefs⟩, haccessors⟩, hbody⟩ := h
  rw [codeWith, codeWith, PartDrafts.parts, PartDrafts.parts, htexts hinputs, htexts hevents,
    htexts hwatchers, htexts hrefs, htexts haccessors, htexts hbody]

/-- The text shows all its placeholders. -/
theorem shows_codeWith {d : ScriptDraft} (h : draftsSound d.parts.all) :
    Shows (d.holes.map Placeholder.text) (d.codeWith Placeholder.text) := by
  have hsegments := Shows.join "" fun seg (_ : seg ∈ Segment.all) =>
    PartDrafts.shows_segmentPieces h d.framework d.tables d.templateRefs [] seg
  rw [PartDrafts.flatMap_segment] at hsegments
  simp only [codeWith, Document.render, segment_document]
  refine hsegments.trimEnd fun p hp => ?_
  obtain ⟨hole, hmem, rfl⟩ := List.mem_map.1 hp
  rw [PartDrafts.holes, ← draftHoles_eq_flatMap] at hmem
  exact (drafts_reported h hole hmem).solid

end ScriptDraft

/-- A converted text accounts for its placeholders. -/
structure AccountsFor (d : ScriptDraft) (converted : Converted) : Prop where
  /-- the text is the draft with the usual placeholders -/
  code : converted.code = d.codeWith Placeholder.text
  /-- each placeholder has a finding, within what it stands for -/
  reported : ∀ h ∈ d.holes, h.Reported
  /-- and each has its own -/
  findings : (converted.findings.filter isReplacement).Perm (Setup.reported d.holes)
  /-- without such findings it does not matter what placeholders look like -/
  independent : (∀ f ∈ converted.findings, f.code ∉ replacementCodes) →
    ∀ fill, d.codeWith fill = converted.code
  /-- all placeholders stand in the text -/
  shown : Shows (d.holes.map Placeholder.text) converted.code

theorem sound_partDrafts {s : Scope} {t : Tables} {members : List Placeholder}
    (hmarks : Marks members t) (hmembers : ∀ h ∈ members, h.Reported)
    (hnodes : NodesSound s.source t.nodes) : draftsSound (partDrafts s t members).all := by
  simp only [Tables.nodes, nodesSound_append] at hnodes
  obtain ⟨⟨⟨⟨⟨hrefs, hinputs⟩, haccessors⟩, hwatchers⟩, hevents⟩, hbody⟩ := hnodes
  have hentry {α : Type} {nodes : α → List Node} {as : List α} {a : α} (ha : a ∈ as)
      (h : NodesSound s.source (as.flatMap nodes)) : NodesSound s.source (nodes a) := fun n hn =>
    h n (List.mem_flatMap.2 ⟨a, ha, hn⟩)
  simp only [partDrafts, PartDrafts.all, draftsSound_iff, List.forall_mem_append,
    List.forall_mem_map, List.forall_mem_filterMap]
  refine ⟨⟨⟨⟨⟨(draftsSound_iff _).1 (sound_inputDrafts hinputs),
    (draftsSound_iff _).1 (sound_eventDrafts hevents)⟩, ?_⟩, ?_⟩, ?_⟩,
    (draftsSound_iff _).1 (sound_bodyDrafts hmarks.body hmembers hevents hbody)⟩
  · exact fun w hw => sound_watchDraft (hentry hw hwatchers)
  · exact fun f hf => sound_refDraft (hentry hf hrefs)
  · exact fun a ha d hd => sound_computedDraft (hentry ha haccessors) d hd

theorem accountsFor_of_drafted {d : ScriptDraft} {converted : Converted}
    (hsound : draftsSound d.parts.all) (hcode : converted.code = d.codeWith Placeholder.text)
    (hfindings : (converted.findings.filter isReplacement).Perm (reported d.holes)) :
    AccountsFor d converted := by
  have hreported : ∀ h ∈ d.holes, h.Reported := by
    intro h hh
    rw [ScriptDraft.holes, PartDrafts.holes, ← draftHoles_eq_flatMap] at hh
    exact drafts_reported hsound h hh
  refine ⟨hcode, hreported, hfindings, fun hnone fill => ?_, ?_⟩
  · have hholes : d.holes = [] := by
      refine List.eq_nil_iff_forall_not_mem.2 fun h hh => ?_
      obtain ⟨f, hf, hfcode, -⟩ := (hreported h hh).finding
      have hmem : f ∈ reported d.holes := List.mem_filterMap.2 ⟨h, hh, hf⟩
      exact hnone f (List.mem_of_mem_filter (hfindings.mem_iff.2 hmem)) hfcode
    rw [hcode]
    exact ScriptDraft.codeWith_of_holes_eq_nil hholes fill Placeholder.text
  · rw [hcode]
    exact ScriptDraft.shows_codeWith hsound

theorem convertTables_accountsFor {source : List Char} {denied : List String} {framework : String}
    {items : List ModuleItem} {t : Tables} (h : Tables.ofModule source denied items = .ok t)
    (hnodes : NodesSound source (moduleNodes items)) :
    AccountsFor (scriptDraft source framework items t) (convertTables source framework t) := by
  have hmarks := Marks.ofModule h
  have hmembers : ∀ h ∈ modulePlaceholders items, h.Reported := by
    intro h hh
    obtain ⟨what, span, rfl⟩ := mem_modulePlaceholders hh
    exact reported_replacedItem what span
  have htext : ∀ h ∈ modulePlaceholders items, h.text = stmtPlaceholder := by
    intro h hh
    obtain ⟨what, span, rfl⟩ := mem_modulePlaceholders hh
    rfl
  obtain ⟨hvalue, hfindings⟩ := @writeParts_drafted (Scope.ofTables source t) t _ hmarks htext
  refine accountsFor_of_drafted ?_ ?_ ?_
  · exact sound_partDrafts hmarks hmembers fun n hn => hnodes n (Tables.nodes_ofModule h hn)
  · show _ = (document framework t ⟨(partDrafts _ t _).parts Placeholder.text, _, []⟩).render
    rw [← hvalue]
    rfl
  · exact ((List.mergeSort_perm _ _).filter _).trans hfindings

/-- What is known of the trees that are read, and that types can be copied, is what drafts need. -/
theorem nodesSound_of_wellFormed {source : List Char} {nodes : List Node}
    (h : AllWellFormed nodes)
    (htypes : ∀ type, Node.type type ∈ nodes → (type.span.slice? source).isSome = true) :
    NodesSound source nodes := by
  intro n hn
  cases n with
  | expr e => exact h _ hn
  | type type => exact htypes type hn

/-- A module whose component can be classified and whose types can be copied is converted, and the
converted text accounts for its placeholders. -/
theorem convertScript_accounts_for_placeholders {source : String} {lang : Lang} {o : Options}
    {items : List ModuleItem} {t : Tables} (hitems : parseModule lang source = .ok items)
    (ht : Tables.ofModule source.toList o.denied items = .ok t)
    (htypes : ∀ type, Node.type type ∈ moduleNodes items →
      (type.span.slice? source.toList).isSome = true) :
    ∃ converted, convertScript source lang o = .ok converted ∧
      AccountsFor (scriptDraft source.toList o.framework items t) converted := by
  have htables : scriptTables source lang o = .ok t :=
    bind_eq_ok.2 ⟨items, mapError_eq_ok.2 hitems, mapError_eq_ok.2 ht⟩
  refine ⟨_, convertScript_eq_ok.2 ⟨t, htables, rfl⟩, ?_⟩
  have hnodes := nodesSound_of_wellFormed (parseModule_wellFormed hitems) htypes
  exact convertTables_accountsFor ht hnodes

/-- A component with code that cannot be converted in an observer, a computed value, the body and
the parameters of an event. -/
def replacedSource : String :=
  "@Component export default class A \x7b @Watch('a') b(c: T) \x7b super.b(); \x7d " ++
    "get d() \x7b return f`x`; \x7d [e] = 1; @Emit g(h = <V>class \x7b\x7d) \x7b\x7d " ++
    "i() \x7b super(1); \x7d \x7d"

/-- A type can be copied. -/
def isInSource (source : List Char) : Node → Bool
  | .type type => (type.span.slice? source).isSome
  | .expr _ => true

theorem replacedSource_accounted_for :
    ∃ items t converted, parseModule .typeScript replacedSource = .ok items ∧
      (scriptDraft replacedSource.toList "vue" items t).holes.map Placeholder.construct =
        [⟨120, 128⟩, ⟨58, 65⟩, ⟨88, 92⟩, ⟨96, 104⟩, ⟨120, 128⟩, ⟨139, 147⟩] ∧
      convertScript replacedSource .typeScript {} = .ok converted ∧
      AccountsFor (scriptDraft replacedSource.toList "vue" items t) converted := by
  obtain ⟨items, t, hitems, ht, -, htypes, h⟩ := exists_tables replacedSource .typeScript
    (toList_append_ofList (toList_append_ofList String.toList_ofList))
    (fun cs items t => (moduleNodes items).all (isInSource cs) = true ∧
      (scriptDraft cs "vue" items t).holes.map Placeholder.construct =
        [⟨120, 128⟩, ⟨58, 65⟩, ⟨88, 92⟩, ⟨96, 104⟩, ⟨120, 128⟩, ⟨139, 147⟩])
    (by decide +kernel)
  have htypes' : ∀ type, Node.type type ∈ moduleNodes items →
      (type.span.slice? replacedSource.toList).isSome = true := fun type htype =>
    List.all_eq_true.1 htypes _ htype
  obtain ⟨converted, hconverted, haccounts⟩ :=
    convertScript_accounts_for_placeholders hitems ht htypes'
  exact ⟨items, t, converted, hitems, h, hconverted, haccounts⟩

end ScriptSetup.Setup
