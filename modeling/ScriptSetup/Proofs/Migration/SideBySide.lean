import ScriptSetup.Proofs.Migration.Frame

/-!
# Files beside others

A run that does not write in place writes each converted file beside the one it was read from,
under the name that has the suffix in the place of what follows the last dot. Nothing keeps that
name apart from the names of other files. So the run only adds files exactly when no two files go
to one place, and no file goes to the place of one that was collected, unless that one has the
same content already.
-/

set_option autoImplicit false

namespace ScriptSetup.Migration

open Files

/-! ## Outputs -/

/-- The path at which a file of a plan is written, when it is not written in place. -/
def Plan.destination (plan : Plan) (t : Tree) (p : Path) : Except Files.Fault Path :=
  t.destination p.dropLast (fileStem (p.getLastD "") ++ plan.suffix)

/-- A file that is written beside another. -/
structure Output where
  source : Path
  destination : Path
  code : String
  deriving DecidableEq, Repr

/-- What is written beside a file: its code, when it can be read, is converted and can be
written. -/
def Plan.output? (plan : Plan) (access : Access) (t : Tree) (p : Path) : Option Output :=
  match (convertAt access t plan.options p).outcome, plan.destination t p with
  | .ok (.ok (.converted c)), .ok q => if (access.write q).isNone then some ⟨p, q, c.code⟩ else none
  | _, _ => none

/-- Everything that is written, in order. -/
def Plan.outputs (plan : Plan) (access : Access) (t : Tree) : List Output :=
  plan.files.filterMap (plan.output? access t)

/-- The tree with one more file. -/
def Output.add (t : Tree) (o : Output) : Tree :=
  t.put o.destination (.file o.code.toUTF8)

variable {access : Access} {t : Tree} {plan : Plan}

theorem Plan.output?_eq_some {p : Path} {o : Output} :
    plan.output? access t p = some o ↔ o.source = p ∧ plan.destination t p = .ok o.destination ∧
      access.write o.destination = none ∧
      ∃ c, (convertAt access t plan.options p).outcome = .ok (.ok (.converted c)) ∧
        c.code = o.code := by
  unfold output?
  split
  · rename_i c q hc hq
    rw [hc, hq]
    constructor
    · intro h
      split at h
      · rename_i hwrite
        cases h
        exact ⟨rfl, rfl, Option.isNone_iff_eq_none.1 hwrite, c, rfl, rfl⟩
      · cases h
    · rintro ⟨rfl, hq, hwrite, c', hc', hcode⟩
      cases hq
      cases hc'
      rw [if_pos (Option.isNone_iff_eq_none.2 hwrite), hcode]
  · rename_i hnone
    refine iff_of_false nofun ?_
    rintro ⟨-, hq, -, c, hc, -⟩
    exact hnone c o.destination hc hq

theorem Plan.mem_outputs {o : Output} : o ∈ plan.outputs access t ↔
    o.source ∈ plan.files ∧ plan.output? access t o.source = some o := by
  rw [outputs, List.mem_filterMap]
  constructor
  · rintro ⟨p, hp, ho⟩
    obtain ⟨rfl, -⟩ := output?_eq_some.1 ho
    exact ⟨hp, ho⟩
  · rintro ⟨hp, ho⟩
    exact ⟨_, hp, ho⟩

/-! ## One file -/

/-- A file is written when it has a destination that the system does not refuse. The directories
are those of the tree in which the run started, so the destination is the same. -/
theorem writeConverted_sideBySide (plan : Plan) (hwhole : access.WritesWhole) {now : Tree}
    (hsame : t.SameDirectories now) (p : Path) (code : String) :
    (∃ fault, writeConverted access now .sideBySide plan.suffix p code = (now, some fault) ∧
        ∀ q, plan.destination t p = .ok q → access.write q ≠ none) ∨
      ∃ q, plan.destination t p = .ok q ∧ access.write q = none ∧
        writeConverted access now .sideBySide plan.suffix p code =
          (now.put q (.file code.toUTF8), none) := by
  have hdestination (q : Path) : now.destination p.dropLast
      (fileStem (p.getLastD "") ++ plan.suffix) = .ok q ↔ plan.destination t p = .ok q :=
    ⟨Tree.destination_of_sameDirectories fun p => (hsame p).symm,
      Tree.destination_of_sameDirectories hsame⟩
  rw [writeConverted, Tree.writeText]
  cases hq : now.destination p.dropLast (fileStem (p.getLastD "") ++ plan.suffix) with
  | error fault =>
    refine .inl ⟨fault, rfl, fun q hq' => ?_⟩
    cases hq.symm.trans ((hdestination q).2 hq')
  | ok q =>
    have hq := (hdestination q).1 hq
    simp only [Tree.putEntry_of_writesWhole hwhole]
    cases hwrite : access.write q with
    | some fault =>
      refine .inl ⟨fault, rfl, fun q' hq' => ?_⟩
      cases hq.symm.trans hq'
      rw [hwrite]
      exact Option.some_ne_none _
    | none => exact .inr ⟨q, hq, hwrite, rfl⟩

/-- A file is reported as converted exactly when there is something to write, which is then
written. -/
theorem finishFile_sideBySide (plan : Plan) (hwhole : access.WritesWhole) {a : Arguments}
    (hmode : a.mode = .sideBySide) (hdry : a.dryRun = false) {now : Tree}
    (hsame : t.SameDirectories now) (s : Summary) (p : Path) :
    let done := finishFile access a plan.root plan.suffix now s (convertAt access t plan.options p)
    match plan.output? access t p with
    | some o => done.tree = o.add now ∧ done.report.status = .converted
    | none => done.tree = now ∧ done.report.status ≠ .converted := by
  intro done
  have hpath : (convertAt access t plan.options p).path = p := convertAt_path plan.options p
  cases ho : plan.output? access t p with
  | some o =>
    obtain ⟨-, hq, hwrite, c, hc, hcode⟩ := Plan.output?_eq_some.1 ho
    have hwritten : writeConverted access now a.mode plan.suffix p c.code = (o.add now, none) := by
      rw [hmode, hcode]
      rcases writeConverted_sideBySide plan hwhole hsame p o.code with
        ⟨fault, -, hnone⟩ | ⟨q, hq', -, hwritten⟩
      · exact absurd hwrite (hnone _ hq)
      · cases hq.symm.trans hq'
        exact hwritten
    simp only [done, finishFile, hpath, hc, hdry, hwritten]
    simp
  | none =>
    simp only [done, finishFile, hpath]
    match hr : (convertAt access t plan.options p).outcome with
    | .error fault => simp
    | .ok (.error e) => simp
    | .ok (.ok (.skipped reason)) => simp
    | .ok (.ok (.converted c)) =>
      rcases writeConverted_sideBySide plan hwhole hsame p c.code with
        ⟨fault, hwritten, -⟩ | ⟨q, hq, hwrite, -⟩
      · simp [hdry, hmode, hwritten]
      · have hsome : plan.output? access t p = some ⟨p, q, c.code⟩ :=
          Plan.output?_eq_some.2 ⟨rfl, hq, hwrite, c, hr, rfl⟩
        rw [ho] at hsome
        cases hsome

/-- What is written is no directory, so it leaves the directories. -/
theorem Output.sameDirectories_add {p : Path} {o : Output}
    (ho : plan.output? access t p = some o) {now : Tree} (hsame : t.SameDirectories now) :
    t.SameDirectories (o.add now) := by
  obtain ⟨-, hq, -⟩ := Plan.output?_eq_some.1 ho
  refine hsame.trans (Tree.sameDirectories_put _ ?_)
  rw [hsame]
  exact (Tree.destination_eq_ok hq).1

/-! ## All files -/

/-- The files are reported as converted that are written, and all that is written is added one
after the other. -/
theorem finishAll_sideBySide (plan : Plan) (hwhole : access.WritesWhole) {a : Arguments}
    (hmode : a.mode = .sideBySide) (hdry : a.dryRun = false) {now : Tree}
    (hsame : t.SameDirectories now) (s : Summary) (files : List Path) :
    let done := finishAll access a plan.root plan.suffix now s
      (files.map (convertAt access t plan.options))
    done.tree = (files.filterMap (plan.output? access t)).foldl (fun now o => o.add now) now ∧
      ∀ x ∈ files.zip done.report,
        x.2.status = .converted ↔ (plan.output? access t x.1).isSome := by
  induction files generalizing now s with
  | nil => simp [finishAll]
  | cons p rest ih =>
    have hfile := finishFile_sideBySide plan hwhole hmode hdry hsame s p
    simp only [List.map_cons, finishAll, List.zip_cons_cons, List.filterMap_cons]
    cases ho : plan.output? access t p with
    | some o =>
      simp only [ho] at hfile
      obtain ⟨htree, hstatus⟩ := hfile
      obtain ⟨hrest, hreports⟩ := ih (Output.sameDirectories_add ho hsame) _
      rw [htree]
      refine ⟨hrest, List.forall_mem_cons.2 ⟨?_, hreports⟩⟩
      simp [hstatus, ho]
    | none =>
      simp only [ho] at hfile
      obtain ⟨htree, hstatus⟩ := hfile
      obtain ⟨hrest, hreports⟩ := ih hsame _
      rw [htree]
      refine ⟨hrest, List.forall_mem_cons.2 ⟨?_, hreports⟩⟩
      simp [hstatus, ho]

/-- Away from all destinations nothing changes. -/
theorem get?_addAll_of_not_mem {outputs : List Output} (now : Tree) {q : Path}
    (hq : ∀ o ∈ outputs, o.destination ≠ q) :
    (outputs.foldl (fun now o => o.add now) now).get? q = now.get? q := by
  induction outputs generalizing now with
  | nil => rfl
  | cons o rest ih =>
    obtain ⟨ho, hrest⟩ := List.forall_mem_cons.1 hq
    rw [List.foldl_cons, ih _ hrest]
    exact Tree.get?_put_of_ne now _ ho.symm

/-- A destination holds the code that is written there, when only one code is. -/
theorem get?_addAll {outputs : List Output} (now : Tree) {q : Path} (hne : q ≠ []) {code : String}
    (hexists : ∃ o ∈ outputs, o.destination = q)
    (hcode : ∀ o ∈ outputs, o.destination = q → o.code = code) :
    (outputs.foldl (fun now o => o.add now) now).get? q = some (.file code.toUTF8) := by
  induction outputs generalizing now with
  | nil =>
    obtain ⟨o, ho, -⟩ := hexists
    cases ho
  | cons o rest ih =>
    obtain ⟨ho, hrest⟩ := List.forall_mem_cons.1 hcode
    rw [List.foldl_cons]
    by_cases hlater : ∃ o ∈ rest, o.destination = q
    · exact ih _ hlater hrest
    · have hhere : o.destination = q := by
        obtain ⟨o', ho', hq⟩ := hexists
        rcases List.mem_cons.1 ho' with rfl | ho'
        · exact hq
        · exact absurd ⟨o', ho', hq⟩ hlater
      rw [get?_addAll_of_not_mem _ fun o' ho' hq => hlater ⟨o', ho', hq⟩, Output.add, hhere,
        Tree.get?_put_self now _ hne, ho hhere]

/-! ## Runs -/

/-- The run has only added files: those that were collected are as they were, and each that is
reported as converted has its code at a place of its own. -/
structure OnlyAdds (access : Access) (t t' : Tree) (plan : Plan) (reports : List FileReport) :
    Prop where
  kept : ∀ p ∈ plan.files, t'.get? p = t.get? p
  written : ∀ p report, (p, report) ∈ plan.files.zip reports → report.status = .converted →
    ∃ source c q, t.textAt access p = .ok source ∧
      Setup.convertFile source plan.options = .ok (.converted c) ∧
      plan.destination t p = .ok q ∧ t'.get? q = some (.file c.code.toUTF8)
  apart : ∀ p report p' report', (p, report) ∈ plan.files.zip reports →
    (p', report') ∈ plan.files.zip reports → report.status = .converted →
    report'.status = .converted → p ≠ p' → plan.destination t p ≠ plan.destination t p'

/-- No two files are written to one place, and none to the place of a collected file with another
content. -/
structure OutputsApart (access : Access) (t : Tree) (plan : Plan) : Prop where
  others : ∀ o ∈ plan.outputs access t, ∀ o' ∈ plan.outputs access t,
    o.destination = o'.destination → o.source = o'.source
  sources : ∀ o ∈ plan.outputs access t, o.destination ∈ plan.files →
    t.get? o.destination = some (.file o.code.toUTF8)

section

variable {a : Arguments} (hwhole : access.WritesWhole) (hmode : a.mode = .sideBySide)
  (hdry : a.dryRun = false)

include hwhole hmode hdry

theorem Plan.carryOut_sideBySide (plan : Plan) (t : Tree) :
    (plan.carryOut access t a).tree = (plan.outputs access t).foldl (fun now o => o.add now) t ∧
      ∀ p report, (p, report) ∈ plan.files.zip (plan.carryOut access t a).report →
        (report.status = .converted ↔ ∃ o, plan.output? access t p = some o) := by
  have hsame : t.SameDirectories t := fun _ => rfl
  obtain ⟨htree, hreports⟩ := finishAll_sideBySide plan hwhole hmode hdry hsame _ plan.files
  refine ⟨htree, fun p report h => ?_⟩
  rw [← Option.isSome_iff_exists]
  exact hreports (p, report) h

/-- Each file that is written has its report. -/
theorem Plan.exists_report_of_mem_outputs {o : Output} (ho : o ∈ plan.outputs access t) :
    ∃ report, (o.source, report) ∈ plan.files.zip (plan.carryOut access t a).report ∧
      report.status = .converted := by
  obtain ⟨hsource, ho⟩ := Plan.mem_outputs.1 ho
  obtain ⟨report, hreport⟩ := plan.exists_report a t hsource
  exact ⟨report, hreport,
    ((plan.carryOut_sideBySide hwhole hmode hdry t).2 _ _ hreport).2 ⟨o, ho⟩⟩

theorem Plan.outputsApart_of_onlyAdds
    (h : OnlyAdds access t (plan.carryOut access t a).tree plan
      (plan.carryOut access t a).report) :
    OutputsApart access t plan := by
  refine ⟨fun o ho o' ho' hdestination => ?_, fun o ho hmem => ?_⟩
  · obtain ⟨report, hreport, hstatus⟩ := plan.exists_report_of_mem_outputs hwhole hmode hdry ho
    obtain ⟨report', hreport', hstatus'⟩ := plan.exists_report_of_mem_outputs hwhole hmode hdry ho'
    obtain ⟨-, hq, -⟩ := Plan.output?_eq_some.1 (Plan.mem_outputs.1 ho).2
    obtain ⟨-, hq', -⟩ := Plan.output?_eq_some.1 (Plan.mem_outputs.1 ho').2
    refine Classical.not_not.1 fun hne => ?_
    refine h.apart _ _ _ _ hreport hreport' hstatus hstatus' hne ?_
    rw [hq, hq', hdestination]
  · obtain ⟨report, hreport, hstatus⟩ := plan.exists_report_of_mem_outputs hwhole hmode hdry ho
    obtain ⟨-, hq, -, c, hc, hcode⟩ := Plan.output?_eq_some.1 (Plan.mem_outputs.1 ho).2
    obtain ⟨source, c', q, hsource, hc', hq', hwritten⟩ := h.written _ _ hreport hstatus
    obtain ⟨source', hsource', hconvert⟩ := convertAt_converted hc
    cases hsource.symm.trans hsource'
    cases hc'.symm.trans hconvert
    cases hq.symm.trans hq'
    rw [← h.kept _ hmem, hwritten, hcode]

theorem Plan.onlyAdds_of_outputsApart (h : OutputsApart access t plan) :
    OnlyAdds access t (plan.carryOut access t a).tree plan (plan.carryOut access t a).report := by
  obtain ⟨htree, hreports⟩ := plan.carryOut_sideBySide hwhole hmode hdry t
  -- only one code is written at each destination
  have hwritten {o : Output} (ho : o ∈ plan.outputs access t) :
      (plan.carryOut access t a).tree.get? o.destination = some (.file o.code.toUTF8) := by
    obtain ⟨-, hq, -⟩ := Plan.output?_eq_some.1 (Plan.mem_outputs.1 ho).2
    rw [htree]
    refine get?_addAll t (Tree.destination_eq_ok hq).2 ⟨o, ho, rfl⟩ fun o' ho' hdestination => ?_
    have hsource := h.others o' ho' o ho hdestination
    have hsome := (Plan.mem_outputs.1 ho').2
    rw [hsource, (Plan.mem_outputs.1 ho).2] at hsome
    rw [Option.some.inj hsome]
  have hmem {p : Path} {report : FileReport}
      (hreport : (p, report) ∈ plan.files.zip (plan.carryOut access t a).report)
      (hstatus : report.status = .converted) :
      ∃ o ∈ plan.outputs access t, o.source = p := by
    obtain ⟨o, ho⟩ := (hreports p report hreport).1 hstatus
    obtain ⟨rfl, -⟩ := Plan.output?_eq_some.1 ho
    exact ⟨o, Plan.mem_outputs.2 ⟨(List.of_mem_zip hreport).1, ho⟩, rfl⟩
  refine ⟨fun p hp => ?_, fun p report hreport hstatus => ?_,
    fun p report p' report' hreport hreport' hstatus hstatus' hne => ?_⟩
  · by_cases hdestination : ∃ o ∈ plan.outputs access t, o.destination = p
    · obtain ⟨o, ho, rfl⟩ := hdestination
      rw [hwritten ho, h.sources o ho hp]
    · rw [htree]
      exact get?_addAll_of_not_mem t fun o ho hq => hdestination ⟨o, ho, hq⟩
  · obtain ⟨o, ho, rfl⟩ := hmem hreport hstatus
    obtain ⟨-, hq, -, c, hc, hcode⟩ := Plan.output?_eq_some.1 (Plan.mem_outputs.1 ho).2
    obtain ⟨source, hsource, hconvert⟩ := convertAt_converted hc
    exact ⟨source, c, o.destination, hsource, hconvert, hq, hcode ▸ hwritten ho⟩
  · obtain ⟨o, ho, rfl⟩ := hmem hreport hstatus
    obtain ⟨o', ho', rfl⟩ := hmem hreport' hstatus'
    obtain ⟨-, hq, -⟩ := Plan.output?_eq_some.1 (Plan.mem_outputs.1 ho).2
    obtain ⟨-, hq', -⟩ := Plan.output?_eq_some.1 (Plan.mem_outputs.1 ho').2
    rw [hq, hq']
    exact fun heq => hne (h.others o ho o' ho' (Except.ok.inj heq))

end

/-- A run that does not write in place makes no copy. -/
theorem Plan.prepare_sideBySide (plan : Plan) {a : Arguments} (hmode : a.mode = .sideBySide) :
    plan.prepare access t a = (t, none) :=
  plan.prepare_of_not_needed (by simp [Arguments.needsBackup, hmode])

/-- A run beside the files stops before anything is changed, and a run that only shows what it
would write changes nothing. Any other leaves the collected files as they were, and each file that
it reports as converted in a place of its own, exactly when no two files are written to one place
and none to the place of a collected file with another content. The system writes the files that
it opens. -/
theorem run_onlyAdds_iff (access : Access) (hwhole : access.WritesWhole) (t : Tree)
    (workingDir : Path) (a : Arguments) (hmode : a.mode = .sideBySide) :
    (∀ t' e, run access t workingDir a = (t', .error e) → t' = t) ∧
    ∀ t' r, run access t workingDir a = (t', .ok r) →
      ∃ plan, Plan.make access t workingDir a = .ok plan ∧ (a.dryRun = true → t' = t) ∧
        (a.dryRun = false →
          (OnlyAdds access t t' plan r.reports ↔ OutputsApart access t plan)) := by
  refine ⟨fun t' e h => ?_, fun t' r h => ?_⟩
  · rcases run_eq_error h with rfl | ⟨plan, fault, -, hprepare, -⟩
    · rfl
    · cases (plan.prepare_sideBySide hmode).symm.trans hprepare
  · obtain ⟨plan, prepared, hplan, hprepare, rfl, rfl⟩ := run_eq_ok.1 h
    cases (plan.prepare_sideBySide hmode).symm.trans hprepare
    refine ⟨plan, hplan, fun hdry => ?_, fun hdry => ?_⟩
    · exact (finishAll_of_dryRun access plan.root plan.suffix t _ hdry _).1
    · exact ⟨plan.outputsApart_of_onlyAdds hwhole hmode hdry,
        plan.onlyAdds_of_outputsApart hwhole hmode hdry⟩

/-- A component is written beside itself, and stays as it was. -/
theorem run_adds_setup_file :
    let t := (Tree.empty.put ["a"] .directory).put ["a", "B.vue"] (.file "<script/>".toUTF8)
    let a : Arguments := { path := "/a", mode := .sideBySide }
    ∃ t' r plan, run {} t [] a = (t', .ok r) ∧ Plan.make {} t [] a = .ok plan ∧
      plan.files = [["a", "B.vue"]] ∧ OnlyAdds {} t t' plan r.reports := by
  intro t a
  obtain ⟨r, hr, -⟩ := exists_ok_of_any (x := (run {} t [] a).2) (p := fun _ => true)
    (by decide +kernel)
  obtain ⟨plan, hplan, hiff⟩ := (run_onlyAdds_iff {} (fun _ => rfl) t [] a rfl).2 _ r
    (Prod.ext rfl hr)
  obtain ⟨plan', hplan', hfiles⟩ := exists_ok_of_any (x := Plan.make {} t [] a)
    (p := fun plan => plan.files = [["a", "B.vue"]] ∧ (plan.outputs {} t).map
      (fun o => (o.source, o.destination)) = [(["a", "B.vue"], ["a", "B.setup.vue"])])
    (by decide +kernel)
  cases hplan.symm.trans hplan'
  obtain ⟨hfiles, houtputs⟩ := of_decide_eq_true hfiles
  have hmem {o : Output} (ho : o ∈ plan.outputs {} t) :
      o.source = ["a", "B.vue"] ∧ o.destination = ["a", "B.setup.vue"] := by
    have hpair : (o.source, o.destination) ∈ [(["a", "B.vue"], ["a", "B.setup.vue"])] :=
      houtputs ▸ List.mem_map_of_mem ho
    simpa using hpair
  refine ⟨_, r, plan, Prod.ext rfl hr, hplan, hfiles, (hiff.2 rfl).2 ⟨?_, ?_⟩⟩
  · intro o ho o' ho' _
    rw [(hmem ho).1, (hmem ho').1]
  · intro o ho hsource
    rw [hfiles, (hmem ho).2] at hsource
    simp at hsource

/-- Of two components, one has the name that the other is written under. It is lost, though both
are reported as converted. -/
theorem run_overwrites_component :
    let t := ((Tree.empty.put ["a"] .directory).put ["a", "B.vue"] (.file "<script/>".toUTF8)).put
      ["a", "B.setup.vue"] (.file "<script></script>".toUTF8)
    let a : Arguments := { path := "/a", mode := .sideBySide }
    ∃ t' r plan, run {} t [] a = (t', .ok r) ∧ Plan.make {} t [] a = .ok plan ∧
      r.reports.map (·.status) = [.converted, .converted] ∧ ["a", "B.setup.vue"] ∈ plan.files ∧
      t'.textAt {} ["a", "B.setup.vue"] = .ok "<script setup>\n\n</script>\n" ∧
      ¬ OnlyAdds {} t t' plan r.reports := by
  intro t a
  obtain ⟨r, hr, hstatus⟩ := exists_ok_of_any (x := (run {} t [] a).2)
    (p := fun r => r.reports.map (·.status) = [.converted, .converted]) (by decide +kernel)
  obtain ⟨plan, hplan, hfiles⟩ := exists_ok_of_any (x := Plan.make {} t [] a)
    (p := fun plan => ["a", "B.setup.vue"] ∈ plan.files) (by decide +kernel)
  have hmem := of_decide_eq_true hfiles
  have hlost : (run {} t [] a).1.textAt {} ["a", "B.setup.vue"] =
      .ok "<script setup>\n\n</script>\n" := eq_ok_of_toOption (by decide +kernel)
  have hbefore : t.textAt {} ["a", "B.setup.vue"] = .ok "<script></script>" :=
    eq_ok_of_toOption (by decide +kernel)
  refine ⟨_, r, plan, Prod.ext rfl hr, hplan, of_decide_eq_true hstatus, hmem, hlost, fun h => ?_⟩
  rw [Tree.textAt_congr {} (h.kept _ hmem), hbefore] at hlost
  exact absurd (Except.ok.inj hlost) (by decide)

end ScriptSetup.Migration
