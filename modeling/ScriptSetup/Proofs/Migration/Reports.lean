import Mathlib.Data.List.Forall2
import Mathlib.Data.List.Nodup
import ScriptSetup.Proofs.Migration.Frame
import ScriptSetup.Proofs.Setup.Shows

/-!
# What a run says

A run has one report for each of its files, and `ReportOf` says what it is, by what became of the
file. The counters go up with each file, and `Counted` says that they keep pace with the reports.
So the counters, the report in JSON and the exit status agree: `run_tallies`.

A file that fails is named together with a cause, but for one kind: a file that converts and cannot
be written is named in JSON only. `run_names_failures` says that this is the only gap, and
`run_hides_failed_write` shows one.
-/

set_option autoImplicit false

namespace ScriptSetup.Migration

open Files Text Setup

/-! ## Reports by what became of the files -/

/-- The report on a file, by what became of it. -/
inductive ReportOf (access : Files.Access) (a : Arguments) (root : Path) (suffix : String)
    (r : FileResult) : FileReport → Prop where
  | unreadable {fault : Files.Fault} (h : r.outcome = .error fault) :
    ReportOf access a root suffix r
      { fileName := relativeName root r.path, source := r.source, status := .failed
        unreadable? := some fault, reason? := some ("failed to read: " ++ fault.message) }
  | faulty {e : FileError} (h : r.outcome = .ok (.error e)) :
    ReportOf access a root suffix r
      { fileName := relativeName root r.path, source := r.source, status := .failed
        notices := [.ofError e] }
  | skipped {reason : SkipReason} (h : r.outcome = .ok (.ok (.skipped reason))) :
    ReportOf access a root suffix r
      { fileName := relativeName root r.path, source := r.source, status := .skipped
        reason? := some reason.text }
  | shown {c : Converted} (h : r.outcome = .ok (.ok (.converted c))) (hdry : a.dryRun = true) :
    ReportOf access a root suffix r
      { fileName := relativeName root r.path, source := r.source, status := .converted
        notices := c.findings.map .ofFinding, output? := some c.code }
  | written {c : Converted} (h : r.outcome = .ok (.ok (.converted c))) (hdry : a.dryRun = false) :
    ReportOf access a root suffix r
      { fileName := relativeName root r.path, source := r.source, status := .converted
        notices := c.findings.map .ofFinding }
  | unwritable {c : Converted} {fault : Files.Fault} {now : Tree}
    (h : r.outcome = .ok (.ok (.converted c))) (hdry : a.dryRun = false)
    (hwrite : (writeConverted access now a.mode suffix r.path c.code).2 = some fault) :
    ReportOf access a root suffix r
      { fileName := relativeName root r.path, source := r.source, status := .failed
        notices := c.findings.map .ofFinding
        reason? := some ("failed to write: " ++ fault.message) }

variable {access : Files.Access} {a : Arguments} {root : Path} {suffix : String}

theorem finishFile_reportOf (t : Tree) (s : Summary) (r : FileResult) :
    ReportOf access a root suffix r (finishFile access a root suffix t s r).report := by
  obtain ⟨p, source, outcome⟩ := r
  unfold finishFile
  match outcome with
  | .error fault => exact .unreadable rfl
  | .ok (.error e) => exact .faulty rfl
  | .ok (.ok (.skipped reason)) => exact .skipped rfl
  | .ok (.ok (.converted c)) =>
    cases hdry : a.dryRun with
    | true => exact .shown rfl hdry
    | false =>
      simp only [Bool.false_eq_true, if_false]
      split
      · exact .written rfl hdry
      · rename_i hwrite
        exact .unwritable rfl hdry (congrArg Prod.snd hwrite)

theorem finishAll_reportOf (t : Tree) (s : Summary) (results : List FileResult) :
    List.Forall₂ (ReportOf access a root suffix) results
      (finishAll access a root suffix t s results).report := by
  induction results generalizing t s with
  | nil => exact .nil
  | cons r rest ih => exact .cons (finishFile_reportOf t s r) (ih _ _)

/-- The files of a plan have their reports, in their order. -/
abbrev Plan.Reported (plan : Plan) (access : Files.Access) (t : Tree) (a : Arguments)
    (reports : List FileReport) : Prop :=
  List.Forall₂ (fun p report => ReportOf access a plan.root plan.suffix
    (convertAt access t plan.options p) report) plan.files reports

theorem ReportOf.fileName_eq {r : FileResult} {report : FileReport}
    (h : ReportOf access a root suffix r report) : report.fileName = relativeName root r.path := by
  cases h <;> rfl

theorem Plan.Reported.map_fileName {plan : Plan} {t : Tree} {reports : List FileReport}
    (h : plan.Reported access t a reports) :
    reports.map (·.fileName) = plan.files.map (relativeName plan.root) := by
  rw [← List.forall₂_eq_eq_eq, List.forall₂_map_left_iff, List.forall₂_map_right_iff]
  refine (h.imp fun p report hreport => ?_).flip
  rw [flip, hreport.fileName_eq, convertAt_path]

theorem Plan.carryOut_reported (plan : Plan) (t : Tree) :
    plan.Reported access t a (plan.carryOut access t a).report :=
  List.forall₂_map_left_iff.1 (finishAll_reportOf t _ _)

/-! ## Counters -/

/-- The counters have gone up by what the reports say. -/
structure Counted (before after : Summary) (reports : List FileReport) : Prop where
  converted : after.converted = before.converted + reports.countP (·.status == .converted)
  skipped : after.skipped = before.skipped + reports.countP (·.status == .skipped)
  failed : after.failed = before.failed + reports.countP (·.status == .failed)
  warnings : after.warnings =
    before.warnings + (reports.flatMap (·.notices)).countP (·.level == .warning)
  failOnWarnings : after.failOnWarnings = before.failOnWarnings

theorem countP_ofFinding (findings : List Finding) :
    (findings.map Notice.ofFinding).countP (·.level == .warning) =
      findings.countP (·.severity == .warning) := by
  rw [List.countP_map]
  refine List.countP_congr fun f _ => ?_
  simp only [Function.comp_apply, Notice.ofFinding]
  cases f.severity <;> decide

/-- Finishing a file counts it once, by what its report says. -/
theorem finishFile_counted (t : Tree) (s : Summary) (r : FileResult) :
    Counted s (finishFile access a root suffix t s r).summary
      [(finishFile access a root suffix t s r).report] := by
  obtain ⟨p, source, outcome⟩ := r
  unfold finishFile
  match outcome with
  | .error fault | .ok (.error e) | .ok (.ok (.skipped reason)) => exact ⟨rfl, rfl, rfl, rfl, rfl⟩
  | .ok (.ok (.converted c)) =>
    have hwarnings := (countP_ofFinding c.findings).symm
    rw [← List.append_nil (c.findings.map _)] at hwarnings
    cases a.dryRun with
    | true => exact ⟨rfl, rfl, rfl, congrArg (s.warnings + ·) hwarnings, rfl⟩
    | false =>
      simp only [Bool.false_eq_true, if_false]
      split
      · exact ⟨rfl, rfl, rfl, congrArg (s.warnings + ·) hwarnings, rfl⟩
      · exact ⟨rfl, rfl, rfl, congrArg (s.warnings + ·) hwarnings, rfl⟩

theorem Counted.append {s₁ s₂ s₃ : Summary} {reports reports' : List FileReport}
    (h : Counted s₁ s₂ reports) (h' : Counted s₂ s₃ reports') :
    Counted s₁ s₃ (reports ++ reports') where
  converted := by rw [h'.converted, h.converted, List.countP_append, Nat.add_assoc]
  skipped := by rw [h'.skipped, h.skipped, List.countP_append, Nat.add_assoc]
  failed := by rw [h'.failed, h.failed, List.countP_append, Nat.add_assoc]
  warnings := by
    rw [h'.warnings, h.warnings, List.flatMap_append, List.countP_append, Nat.add_assoc]
  failOnWarnings := h'.failOnWarnings.trans h.failOnWarnings

theorem finishAll_counted (t : Tree) (s : Summary) (results : List FileResult) :
    Counted s (finishAll access a root suffix t s results).summary
      (finishAll access a root suffix t s results).report := by
  induction results generalizing t s with
  | nil => exact ⟨rfl, rfl, rfl, rfl, rfl⟩
  | cons r rest ih => exact (finishFile_counted t s r).append (ih _ _)

/-- A run that goes through has a report for each file, and counts them. -/
theorem run_reported {t t' : Tree} {workingDir : Path} {r : RunResult}
    (h : run access t workingDir a = (t', .ok r)) :
    ∃ plan prepared, Plan.make access t workingDir a = .ok plan ∧
      plan.prepare access t a = (prepared, none) ∧ plan.Reported access prepared a r.reports ∧
      Counted { failOnWarnings := a.failOnWarnings } r.summary r.reports ∧
      r = .ofReports a r.summary r.reports := by
  obtain ⟨plan, prepared, hplan, hprepared, -, rfl⟩ := run_eq_ok.1 h
  exact ⟨plan, prepared, hplan, hprepared, plan.carryOut_reported prepared,
    finishAll_counted _ _ _, rfl⟩

/-! ## Names of files -/

/-- No name in the tree is empty or has a slash in it, as in every file system. -/
def HasPlainNames (t : Tree) : Prop :=
  ∀ x ∈ t.entries, ∀ name ∈ x.1, name ≠ "" ∧ '/' ∉ name.toList

/-- A path is its first name, and then nothing or a slash and the rest. -/
theorem toList_join_slash (name : String) (rest : List String) :
    (join "/" (name :: rest)).toList =
      name.toList ++ if rest = [] then [] else '/' :: (join "/" rest).toList := by
  cases rest with
  | nil => exact (List.append_nil _).symm
  | cons next rest => simp [join]

/-- Names without slashes can be told from the path that they make. -/
theorem join_slash_injective {as bs : List String}
    (has : ∀ name ∈ as, name ≠ "" ∧ '/' ∉ name.toList)
    (hbs : ∀ name ∈ bs, name ≠ "" ∧ '/' ∉ name.toList) (h : join "/" as = join "/" bs) :
    as = bs := by
  have hne {name : String} {rest : List String} (hname : name ≠ "") :
      join "/" (name :: rest) ≠ "" := by
    intro heq
    have hnil := congrArg String.toList heq
    rw [toList_join_slash] at hnil
    exact hname (String.toList_injective (List.append_eq_nil_iff.1 hnil).1)
  induction as generalizing bs with
  | nil =>
    cases bs with
    | nil => rfl
    | cons b bs => exact absurd h.symm (hne (hbs b List.mem_cons_self).1)
  | cons a as ih =>
    cases bs with
    | nil => exact absurd h (hne (has a List.mem_cons_self).1)
    | cons b bs =>
      obtain ⟨⟨-, ha⟩, has'⟩ := List.forall_mem_cons.1 has
      obtain ⟨⟨-, hb⟩, hbs'⟩ := List.forall_mem_cons.1 hbs
      -- the first name is what stands before the first slash
      have hfirst {name : String} {rest : List String} (hname : '/' ∉ name.toList) :
          (join "/" (name :: rest)).toList.takeWhile (· != '/') = name.toList := by
        rw [toList_join_slash, List.takeWhile_append_of_pos]
        · split <;> simp
        · intro c hc
          exact bne_iff_ne.2 fun heq => hname (heq ▸ hc)
      obtain rfl := String.toList_injective ((hfirst ha).symm.trans (h ▸ hfirst hb))
      have hlists := congrArg String.toList h
      rw [toList_join_slash, toList_join_slash] at hlists
      have hrest := List.append_cancel_left hlists
      split at hrest <;> split at hrest
      · rename_i hnil hnil'
        rw [hnil, hnil']
      · cases hrest
      · cases hrest
      · rw [ih has' hbs' (String.toList_injective (List.cons.inj hrest).2)]

theorem ordered_collectFiles (t : Tree) (target root backup : Path) (extensions : List String)
    (ignore : List (List Glob.Token)) :
    (collectFiles t target root backup extensions ignore).Pairwise (· < ·) := by
  unfold collectFiles
  split
  · exact List.pairwise_singleton _ _
  · have hnodup := nodup_collectFiles t target root backup extensions ignore
    rw [collectFiles, if_neg (by assumption)] at hnodup
    refine (pairwise_sortPaths _).imp₂ (fun p q hle hne => ?_) hnodup
    exact Classical.byContradiction fun hlt =>
      hne (Std.Trichotomous.trichotomous p q hlt hle)

/-- The files of a plan are in order, and have names of their own. -/
theorem Plan.files_ordered {t : Tree} {workingDir : Path} {plan : Plan}
    (h : Plan.make access t workingDir a = .ok plan) :
    plan.files.Pairwise (· < ·) ∧
      (HasPlainNames t → (plan.files.map (relativeName plan.root)).Nodup) := by
  obtain ⟨target, -, h⟩ := bind_eq_ok.1 h
  obtain ⟨config, -, h⟩ := bind_eq_ok.1 h
  obtain ⟨given, -, h⟩ := bind_eq_ok.1 h
  obtain ⟨always, -, h⟩ := bind_eq_ok.1 h
  obtain rfl := Except.ok.inj h
  refine ⟨ordered_collectFiles _ _ _ _ _ _, fun hnames => ?_⟩
  refine List.Nodup.map_on (fun p hp q hq heq => ?_) (nodup_collectFiles _ _ _ _ _ _)
  by_cases hfile : t.isFile target = true
  · simp only [collectFiles, if_pos hfile, List.mem_singleton] at hp hq
    rw [hp, hq]
  · simp only [collectFiles, if_neg hfile, mem_sortPaths, List.mem_map, List.mem_filter] at hp hq
    obtain ⟨x, ⟨hx, -⟩, rfl⟩ := hp
    obtain ⟨y, ⟨hy, -⟩, rfl⟩ := hq
    -- both paths go on from the target, and what follows has plain names
    have hplain {z : Path × Entry} (hz : z ∈ t.below target) :
        ∃ names, z.1 = target ++ names ∧ ∀ name ∈ names, name ≠ "" ∧ '/' ∉ name.toList := by
      obtain ⟨names, hpath⟩ := Tree.startsWith_of_mem_below hz
      refine ⟨names, hpath.symm, fun name hname => ?_⟩
      exact hnames z (List.mem_filter.1 hz).1 name (hpath ▸ List.mem_append_right _ hname)
    obtain ⟨xs, hxs, hxplain⟩ := hplain hx
    obtain ⟨ys, hys, hyplain⟩ := hplain hy
    simp only [relativeName, if_neg hfile, hxs, hys, List.drop_left] at heq
    rw [hxs, hys, join_slash_injective hxplain hyplain heq]

/-! ## Counting -/

/-- The text under a key of an object. -/
def textAt? (key : String) : Json.Value → Option String
  | .object members =>
    match members.lookup key with
    | some (.text s) => some s
    | _ => none
  | _ => none

theorem textAt?_status (report : FileReport) :
    textAt? "status" report.value = some report.status.text := rfl

theorem textAt?_type (fileName : String) (index : LineIndex) (n : Notice) :
    textAt? "type" (n.value fileName index) = some n.level.text := rfl

theorem countP_status (reports : List FileReport) (status : FileStatus) :
    (reports.map FileReport.value).countP (textAt? "status" · == some status.text) =
      reports.countP (·.status == status) := by
  rw [List.countP_map]
  refine List.countP_congr fun report _ => ?_
  rw [Function.comp_apply, textAt?_status]
  cases report.status <;> cases status <;> decide

/-- The notices in a report in JSON. -/
def noticeValues (reports : List FileReport) : List Json.Value :=
  reports.flatMap fun report => Notice.values report.notices report.fileName report.source

theorem countP_warnings (reports : List FileReport) :
    (noticeValues reports).countP (textAt? "type" · == some "Warning") =
      (reports.flatMap (·.notices)).countP (·.level == .warning) := by
  induction reports with
  | nil => rfl
  | cons report reports ih =>
    rw [noticeValues, List.flatMap_cons, List.countP_append, ← noticeValues, ih, Notice.values,
      List.countP_map, List.flatMap_cons, List.countP_append]
    refine congrArg (· + _) (List.countP_congr fun n _ => ?_)
    rw [Function.comp_apply, textAt?_type]
    cases n.level <;> decide

theorem countP_statuses (reports : List FileReport) :
    reports.countP (·.status == .converted) + reports.countP (·.status == .skipped) +
      reports.countP (·.status == .failed) = reports.length := by
  induction reports with
  | nil => rfl
  | cons report reports ih =>
    simp only [List.countP_cons, List.length_cons]
    cases report.status with
    | converted => simp only [beq_self_eq_true, if_true]; simp; omega
    | skipped | failed => simp; omega

theorem map_message_noticeValues (reports : List FileReport) :
    (noticeValues reports).map (textAt? "message") =
      (reports.flatMap (·.notices)).map (some ·.message) := by
  rw [noticeValues, List.map_flatMap, List.map_flatMap]
  simp only [Notice.values, List.map_map]
  rfl

theorem Counted.isFailure_iff {failOnWarnings : Bool} {s : Summary} {reports : List FileReport}
    (h : Counted { failOnWarnings } s reports) :
    s.isFailure = true ↔
      (∃ entry ∈ reports.map FileReport.value, textAt? "status" entry = some "failed") ∨
        failOnWarnings = true ∧ ∃ n ∈ noticeValues reports, textAt? "type" n = some "Warning" := by
  have hfailed := countP_status reports .failed
  have hwarnings := countP_warnings reports
  simp only [Summary.isFailure, h.failed, h.warnings, h.failOnWarnings, Nat.zero_add,
    Bool.or_eq_true, Bool.and_eq_true, decide_eq_true_eq, ← hfailed, ← hwarnings,
    List.countP_pos_iff, beq_iff_eq, FileStatus.text]

/-- The counters of a run, its report in JSON and its exit status agree. `entries` are the entries
of the files and `diagnostics` those of the notices. -/
structure Tallied (t : Tree) (a : Arguments) (plan : Plan) (r : RunResult)
    (entries diagnostics : List Json.Value) : Prop where
  total : r.summary.converted + r.summary.skipped + r.summary.failed = plan.files.length
  json : a.format = .json → r.out = (Json.Value.object
    [("files", .list entries), ("diagnostics", .list diagnostics)]).render 0 ++ "\n"
  /-- each file has its entry, in the order of the paths -/
  named : entries.map (textAt? "filename") = (plan.files.map (relativeName plan.root)).map some
  ordered : plan.files.Pairwise (· < ·)
  distinct : HasPlainNames t → (entries.map (textAt? "filename")).Nodup
  /-- the counters count the entries with each status -/
  converted : entries.countP (textAt? "status" · == some "converted") = r.summary.converted
  skipped : entries.countP (textAt? "status" · == some "skipped") = r.summary.skipped
  failed : entries.countP (textAt? "status" · == some "failed") = r.summary.failed
  /-- each notice has its entry, and the warnings among them are counted -/
  noticed : diagnostics.map (textAt? "message") =
    (r.reports.flatMap (·.notices)).map (some ·.message)
  warnings : diagnostics.countP (textAt? "type" · == some "Warning") = r.summary.warnings
  failure : r.summary.isFailure = true ↔
    (∃ entry ∈ entries, textAt? "status" entry = some "failed") ∨
      a.failOnWarnings = true ∧ ∃ n ∈ diagnostics, textAt? "type" n = some "Warning"

/-- Whatever the tree and the arguments are, a run that ends has one entry for each file, and its
counters and exit status are those of the entries. -/
theorem run_tallies {t t' : Tree} {workingDir : Path} {r : RunResult}
    (h : run access t workingDir a = (t', .ok r)) :
    ∃ plan prepared, Plan.make access t workingDir a = .ok plan ∧
      plan.prepare access t a = (prepared, none) ∧ plan.Reported access prepared a r.reports ∧
      Tallied t a plan r (r.reports.map FileReport.value) (noticeValues r.reports) := by
  obtain ⟨plan, prepared, hplan, hprepared, hreported, hcounted, hr⟩ := run_reported h
  obtain ⟨hordered, hdistinct⟩ := Plan.files_ordered hplan
  have hnamed : (r.reports.map FileReport.value).map (textAt? "filename") =
      (plan.files.map (relativeName plan.root)).map some := by
    rw [← hreported.map_fileName, List.map_map, List.map_map]
    rfl
  have hconverted := hcounted.converted
  have hskipped := hcounted.skipped
  have hfailed := hcounted.failed
  have hwarnings := hcounted.warnings
  rw [Nat.zero_add] at hconverted hskipped hfailed hwarnings
  refine ⟨plan, prepared, hplan, hprepared, hreported, ?_⟩
  exact
    { total := by
        rw [hconverted, hskipped, hfailed, countP_statuses, hreported.length_eq]
      json := fun hjson => by rw [hr, RunResult.ofReports, hjson]; rfl
      named := hnamed
      ordered := hordered
      distinct := fun hplain => hnamed ▸ (hdistinct hplain).map fun _ _ => Option.some.inj
      converted := (countP_status r.reports .converted).trans hconverted.symm
      skipped := (countP_status r.reports .skipped).trans hskipped.symm
      failed := (countP_status r.reports .failed).trans hfailed.symm
      noticed := map_message_noticeValues r.reports
      warnings := (countP_warnings r.reports).trans hwarnings.symm
      failure := hcounted.isFailure_iff }

theorem run_tallies_statuses :
    let t := (((Tree.empty.put ["a"] .directory).put ["a", "B.vue"] (.file "<script/>".toUTF8)).put
      ["a", "C.vue"] (.file "<script".toUTF8)).put ["a", "D.vue"] (.file "".toUTF8)
    let a : Arguments := { path := "/a", dryRun := true, format := .json }
    ∃ t' r plan, run {} t [] a = (t', .ok r) ∧ HasPlainNames t ∧
      r.reports.map (·.status) = [.converted, .failed, .skipped] ∧
      Tallied t a plan r (r.reports.map FileReport.value) (noticeValues r.reports) := by
  intro t a
  obtain ⟨r, hr, hstatus⟩ := exists_ok_of_any (x := (run {} t [] a).2)
    (p := fun r => r.reports.map (·.status) = [.converted, .failed, .skipped]) (by decide +kernel)
  have hrun : run {} t [] a = ((run {} t [] a).1, .ok r) := Prod.ext rfl hr
  obtain ⟨plan, prepared, -, -, -, h⟩ := run_tallies hrun
  have hplain : HasPlainNames t := by
    unfold HasPlainNames
    decide +kernel
  exact ⟨_, r, plan, hrun, hplain, of_decide_eq_true hstatus, h⟩

/-! ## Texts in JSON -/

/-- A text as it stands between quotes. -/
def escaped (s : String) : String := String.ofList (s.toList.flatMap Json.escapeChar)

theorem escaped_append (s t : String) : escaped (s ++ t) = escaped s ++ escaped t := by
  rw [escaped, String.toList_append, List.flatMap_append, String.ofList_append]
  rfl

theorem shows_quote (s : String) : Shows [escaped s] (Json.quote s) :=
  ((Shows.single (escaped s)).prepend "\"").extend "\""

variable {ps : List String} {level : Nat}

theorem shows_bracketed {before after : String} {items : List String}
    (h : Shows ps (join ",\n" (items.map (pad (level + 1) ++ ·)))) :
    Shows ps (Json.bracketed before after level items) := by
  unfold Json.bracketed
  split
  · rename_i hempty
    rw [List.isEmpty_iff.1 hempty] at h
    have h := h.prepend before
    rw [List.map_nil, join, String.append_empty] at h
    exact h.extend after
  · exact (((h.prepend (before ++ "\n")).extend "\n").extend (pad level)).extend after

theorem renderAll_eq_map (items : List Json.Value) :
    Json.Value.renderAll level items = items.map (Json.Value.render level) := by
  induction items with
  | nil => rfl
  | cons item items ih => rw [Json.Value.renderAll, ih, List.map_cons]

theorem renderMembers_eq_map (members : List (String × Json.Value)) :
    Json.Value.renderMembers level members =
      members.map fun x => Json.quote x.1 ++ ": " ++ x.2.render level := by
  induction members with
  | nil => rfl
  | cons x members ih => rw [Json.Value.renderMembers, ih, List.map_cons]

/-- A list shows what its items show. -/
theorem shows_list {items : List Json.Value} {v : Json.Value} (hv : v ∈ items)
    (h : Shows ps (v.render (level + 1))) : Shows ps ((Json.Value.list items).render level) := by
  rw [Json.Value.render, renderAll_eq_map]
  refine shows_bracketed ((h.prepend (pad (level + 1))).join_of_mem _ ?_)
  exact List.mem_map_of_mem (List.mem_map_of_mem hv)

/-- An object shows what its members show. -/
theorem shows_member {members : List (String × Json.Value)} {x : String × Json.Value}
    (hx : x ∈ members) (h : Shows ps (x.2.render (level + 1))) :
    Shows ps ((Json.Value.object members).render level) := by
  rw [Json.Value.render, renderMembers_eq_map]
  have h := (h.prepend (Json.quote x.1 ++ ": ")).prepend (pad (level + 1))
  exact shows_bracketed (h.join_of_mem _ (List.mem_map_of_mem (List.mem_map_of_mem hx)))

/-- The text in a value that is one. -/
def ownTexts : Json.Value → List String
  | .text s => [escaped s]
  | _ => []

theorem shows_ownTexts (v : Json.Value) : Shows (ownTexts v) (v.render level) := by
  cases v with
  | text s => exact shows_quote s
  | _ => exact .nil _

/-- An object shows the texts in it, in their order. -/
theorem shows_object (members : List (String × Json.Value)) :
    Shows (members.flatMap (ownTexts ·.2)) ((Json.Value.object members).render level) := by
  rw [Json.Value.render, renderMembers_eq_map]
  refine shows_bracketed ?_
  rw [List.map_map]
  exact .join _ fun x _ => ((shows_ownTexts x.2).prepend _).prepend _

/-! ## Failures -/

theorem standardOut_of_ne {f : Format} (hwords : f ≠ .json) (reports : List FileReport)
    (s : Summary) : FileReport.standardOut f reports s =
      join "" (reports.map (FileReport.out f)) ++ s.text ++ "\n" := by
  cases f with
  | json => exact absurd rfl hwords
  | _ => rfl

theorem standardError_of_ne {f : Format} (hwords : f ≠ .json) (reports : List FileReport) :
    FileReport.standardError f reports = join "" (reports.map FileReport.err) := by
  cases f with
  | json => exact absurd rfl hwords
  | _ => rfl

/-- Why a file fails. -/
inductive CauseOf (access : Files.Access) (a : Arguments) (suffix : String) (r : FileResult) :
    String → Prop where
  | unreadable {fault : Files.Fault} (h : r.outcome = .error fault) :
    CauseOf access a suffix r fault.message
  | faulty {e : FileError} (h : r.outcome = .ok (.error e)) : CauseOf access a suffix r e.message
  | unwritable {c : Converted} {fault : Files.Fault} {now : Tree}
    (h : r.outcome = .ok (.ok (.converted c)))
    (hwrite : (writeConverted access now a.mode suffix r.path c.code).2 = some fault) :
    CauseOf access a suffix r fault.message

/-- The file converts. -/
def FileResult.converts (r : FileResult) : Bool :=
  match r.outcome with
  | .ok (.ok (.converted _)) => true
  | _ => false

/-- The report had the file been written. -/
def FileReport.asWritten (r : FileReport) : FileReport :=
  { r with status := .converted, reason? := none }

/-- A text as it stands in a format. -/
def spelled (f : Format) (s : String) : String :=
  match f with
  | .json => escaped s
  | _ => s

/-- The texts stand in the standard output or the standard error. -/
def RunResult.Says (r : RunResult) (ps : List String) : Prop :=
  Shows ps r.out ∨ Shows ps r.err

theorem spelled_of_ne {f : Format} (hwords : f ≠ .json) (s : String) : spelled f s = s := by
  cases f with
  | json => exact absurd rfl hwords
  | _ => rfl

theorem Notice.shows_human (fileName : String) (index : LineIndex) (lines : List String)
    (n : Notice) : Shows [fileName, n.message] (n.human fileName index lines) := by
  have hname := (((((Shows.single fileName).extend ":").extend
    (place (index.position n.span.start))).extend "\n").extend n.level.text).extend ": "
  have hmessage := hname.append (.single n.message)
  exact ((((hmessage.extend " (").extend n.code).extend ")\n").extend _).extend "\n"

theorem Notice.shows_machine (fileName : String) (index : LineIndex) (n : Notice) :
    Shows [fileName, n.message] (n.machine fileName index) := by
  have hname := (((((Shows.single fileName).prepend (n.level.capitals ++ " ")).extend ":").extend
    (place (index.position n.span.start))).extend ":").extend (place (index.position n.span.stop))
  have hmessage := (hname.extend " ").append (.single n.message)
  exact ((hmessage.extend " (").extend n.code).extend ")\n"

/-- In words a notice names the file and says its message. -/
theorem Notice.shows_render {f : Format} (hwords : f ≠ .json) {notices : List Notice} {n : Notice}
    (hn : n ∈ notices) (fileName source : String) :
    Shows [fileName, n.message] (f.render notices fileName source) := by
  cases f with
  | human => exact (n.shows_human ..).join_of_mem "" (List.mem_map_of_mem hn)
  | machine => exact (n.shows_machine ..).join_of_mem "" (List.mem_map_of_mem hn)
  | json => exact absurd rfl hwords

theorem Notice.shows_value (fileName : String) (index : LineIndex) (n : Notice) :
    Shows [escaped fileName, escaped n.message] ((n.value fileName index).render level) := by
  rw [Notice.value]
  refine (shows_object _).sublist ?_
  exact .cons _ (.cons_cons _ (.cons_cons _ (.cons _ .slnil)))

variable {s : Summary} {reports : List FileReport} {report : FileReport}

/-- Every notice is printed. -/
theorem says_notice (hreport : report ∈ reports) {n : Notice} (hn : n ∈ report.notices) :
    (RunResult.ofReports a s reports).Says
      [spelled a.format report.fileName, spelled a.format n.message] := by
  refine .inl ?_
  by_cases hjson : a.format = .json
  · have hmem : n.value report.fileName (.ofText report.source) ∈ noticeValues reports :=
      List.mem_flatMap.2 ⟨report, hreport, List.mem_map_of_mem hn⟩
    rw [RunResult.ofReports, hjson]
    exact (shows_member (x := ("diagnostics", .list _)) (List.mem_cons_of_mem _ List.mem_cons_self)
      (shows_list hmem (n.shows_value ..))).extend "\n"
  · have hout : Shows [report.fileName, n.message] (report.out a.format) :=
      (Notice.shows_render hjson hn report.fileName report.source).prepend _
    have hall := hout.join_of_mem "" (List.mem_map_of_mem hreport)
    rw [spelled_of_ne hjson, spelled_of_ne hjson, RunResult.ofReports, standardOut_of_ne hjson]
    exact (hall.extend _).extend "\n"

/-- In JSON every reason is printed. -/
theorem says_reason (hjson : a.format = .json) (hreport : report ∈ reports)
    {before cause : String} (hreason : report.reason? = some (before ++ cause)) :
    (RunResult.ofReports a s reports).Says
      [spelled a.format report.fileName, spelled a.format cause] := by
  refine .inl ?_
  have h : Shows ([escaped report.fileName] ++ [escaped before ++ escaped cause])
      (report.value.render 2) := by
    rw [FileReport.value, hreason, ← escaped_append]
    refine (shows_object _).sublist ?_
    exact .cons_cons _ (.cons _ (.cons_cons _ (List.nil_sublist _)))
  rw [RunResult.ofReports, hjson]
  exact (shows_member (x := ("files", .list _)) List.mem_cons_self
    (shows_list (List.mem_map_of_mem hreport) h.drop_before)).extend "\n"

/-- In words every file that cannot be read is named. -/
theorem says_unreadable (hwords : a.format ≠ .json) (hreport : report ∈ reports)
    {fault : Files.Fault} (hfault : report.unreadable? = some fault) :
    (RunResult.ofReports a s reports).Says
      [spelled a.format report.fileName, spelled a.format fault.message] := by
  refine .inr ?_
  have herr : Shows [report.fileName, fault.message] report.err := by
    rw [FileReport.err, hfault]
    exact ((((Shows.single report.fileName).prepend "Failed to read ").extend ": ").append
      (.single fault.message)).extend "\n"
  rw [spelled_of_ne hwords, spelled_of_ne hwords, RunResult.ofReports, standardError_of_ne hwords]
  exact herr.join_of_mem "" (List.mem_map_of_mem hreport)

/-- What a run says about the files that fail. -/
structure NamesFailures (access : Files.Access) (t : Tree) (a : Arguments) (plan : Plan)
    (r : RunResult) : Prop where
  reported : plan.Reported access t a r.reports
  /-- a file that fails is named with its cause, in words unless it converts -/
  named : ∀ x ∈ plan.files.zip r.reports, x.2.status = .failed →
    a.format = .json ∨ (convertAt access t plan.options x.1).converts = false →
    ∃ cause, CauseOf access a plan.suffix (convertAt access t plan.options x.1) cause ∧
      r.Says [spelled a.format (relativeName plan.root x.1), spelled a.format cause]
  /-- in words, what is printed about a file that converts is what would be printed had it been
  written; only the counters tell (and the log of a verbose run, which is no part of this) -/
  silent : a.format ≠ .json →
    let reports := (plan.files.zip r.reports).map fun x =>
      if (convertAt access t plan.options x.1).converts then x.2.asWritten else x.2
    r.out = FileReport.standardOut a.format reports r.summary ∧
      r.err = FileReport.standardError a.format reports

theorem ReportOf.says_cause {r : FileResult} (h : ReportOf access a root suffix r report)
    (hreport : report ∈ reports) (hfailed : report.status = .failed)
    (hnamed : a.format = .json ∨ r.converts = false) :
    ∃ cause, CauseOf access a suffix r cause ∧ (RunResult.ofReports a s reports).Says
      [spelled a.format report.fileName, spelled a.format cause] := by
  cases h with
  | @unreadable fault h =>
    refine ⟨fault.message, .unreadable h, ?_⟩
    by_cases hjson : a.format = .json
    · exact says_reason hjson hreport rfl
    · exact says_unreadable hjson hreport rfl
  | @faulty e h =>
    exact ⟨e.message, .faulty h, says_notice hreport (n := .ofError e) List.mem_cons_self⟩
  | @unwritable c fault now h hdry hwrite =>
    have hjson := hnamed.resolve_right (by simp [FileResult.converts, h])
    exact ⟨fault.message, .unwritable h hwrite, says_reason hjson hreport rfl⟩
  | skipped | shown | written => cases hfailed

/-- A run names every file that fails, with a cause, unless the file converts and cannot be
written: then it is named in JSON only. -/
theorem run_names_failures {t t' : Tree} {workingDir : Path} {r : RunResult}
    (h : run access t workingDir a = (t', .ok r)) :
    ∃ plan prepared, Plan.make access t workingDir a = .ok plan ∧
      plan.prepare access t a = (prepared, none) ∧ NamesFailures access prepared a plan r := by
  obtain ⟨plan, prepared, hplan, hprepared, hreported, -, hr⟩ := run_reported h
  refine ⟨plan, prepared, hplan, hprepared, hreported, ?_, fun hwords => ?_⟩
  · rintro ⟨p, report⟩ hx hfailed hnamed
    have hreport := List.forall₂_zip hreported hx
    have hname := hreport.fileName_eq
    rw [convertAt_path] at hname
    rw [hr, ← hname]
    exact hreport.says_cause (List.of_mem_zip hx).2 hfailed hnamed
  · have hsnd : (plan.files.zip r.reports).map (·.2) = r.reports :=
      List.map_snd_zip (Nat.le_of_eq hreported.length_eq.symm)
    intro reports
    have hmap {β : Type} (g : FileReport → β) (hg : ∀ report, g report.asWritten = g report) :
        reports.map g = r.reports.map g := by
      rw [← hsnd, List.map_map, List.map_map]
      refine List.map_congr_left fun x _ => ?_
      rw [Function.comp_apply, Function.comp_apply]
      split
      · exact hg x.2
      · rfl
    rw [standardOut_of_ne hwords, standardError_of_ne hwords, hmap _ fun _ => rfl,
      hmap _ fun _ => rfl, hr]
    exact ⟨standardOut_of_ne hwords _ _, standardError_of_ne hwords _⟩

theorem run_names_faulty_file :
    let t := (Tree.empty.put ["a"] .directory).put ["a", "B.vue"] (.file "<script".toUTF8)
    let a : Arguments := { path := "/a", dryRun := true }
    ∃ t' r plan prepared, run {} t [] a = (t', .ok r) ∧
      r.reports.map (fun report => (report.fileName, report.status)) = [("B.vue", .failed)] ∧
      NamesFailures {} prepared a plan r := by
  intro t a
  obtain ⟨r, hr, hfailed⟩ := exists_ok_of_any (x := (run {} t [] a).2)
    (p := fun r => r.reports.map (fun report => (report.fileName, report.status)) =
      [("B.vue", .failed)]) (by decide +kernel)
  have hrun : run {} t [] a = ((run {} t [] a).1, .ok r) := Prod.ext rfl hr
  obtain ⟨plan, prepared, -, -, h⟩ := run_names_failures hrun
  exact ⟨_, r, plan, prepared, hrun, of_decide_eq_true hfailed, h⟩

/-- The file cannot be written since there is a directory in its place. Nothing names it. -/
theorem run_hides_failed_write :
    let t := ((Tree.empty.put ["a"] .directory).put ["a", "B.vue"] (.file "<script/>".toUTF8)).put
      ["a", "B.setup.vue"] .directory
    let a : Arguments := { path := "/a", mode := .sideBySide }
    ∃ t' r, run {} t [] a = (t', .ok r) ∧
      r.reports.map (fun report => (report.fileName, report.status)) = [("B.vue", .failed)] ∧
      ¬ "B.vue".toList <:+: r.out.toList ∧ r.err = "" := by
  intro t a
  obtain ⟨r, hr, hrest⟩ := exists_ok_of_any (x := (run {} t [] a).2)
    (p := fun r => r.reports.map (fun report => (report.fileName, report.status)) =
      [("B.vue", .failed)] ∧ ¬ "B.vue".toList <:+: r.out.toList ∧ r.err = "") (by decide +kernel)
  exact ⟨_, r, Prod.ext rfl hr, of_decide_eq_true hrest⟩

end ScriptSetup.Migration
