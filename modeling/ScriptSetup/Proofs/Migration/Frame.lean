import Mathlib.Data.List.Sort
import ScriptSetup.Migration.Run
import ScriptSetup.Proofs.Files.Lookup
import ScriptSetup.Proofs.Result

/-!
# What a run changes

A run that writes in place, or writes nothing, changes the files that it reports as converted and
the copy of its target, and nothing else. The copy never overlaps with the target: it stands beside
it. So it is made from the tree as it was, and the files are read as they were.

`run_changes_what_it_reports` says this for every tree and whatever the system refuses, as long as
files that it opens are written to their end. Otherwise a file that fails has lost its content:
`run_cuts_off_file`.
-/

set_option autoImplicit false

namespace ScriptSetup.Migration

open Files

/-! ## The copy of a target -/

theorem backupPath_ne_nil (target : Path) : backupPath target ≠ [] := by
  simp [backupPath]

/-- No path is at or below both a target and its copy. -/
theorem not_below_backupPath {target p : Path} (htarget : target ≠ []) (hp : target <+: p) :
    ¬ backupPath target <+: p := by
  intro hbackup
  have htarget' : target.dropLast ++ [target.getLastD ""] = target := by
    rw [List.getLastD_eq_getLast?, List.getLast?_eq_some_getLast htarget]
    exact List.dropLast_concat_getLast htarget
  -- the copy has the length of the target, so both are the same part of the path
  have hstarts : target.dropLast ++ [target.getLastD ""] <+: p := by
    rw [htarget']
    exact hp
  have heq := (List.prefix_of_prefix_length_le hbackup hstarts (by simp [backupPath])).eq_of_length
    (by simp [backupPath])
  simp [backupPath] at heq

variable {access : Access} {t : Tree}

/-- Away from the copy nothing changes, also when it is not finished. -/
theorem get?_makeBackup_of_not_below {target p : Path} (hp : ¬ backupPath target <+: p) :
    (makeBackup access t target (backupPath target)).1.get? p = t.get? p := by
  rw [makeBackup]
  split
  · rfl
  · rw [Tree.get?_copyEntries_of_not_below _ _ hp, Tree.get?_remove t (backupPath_ne_nil target),
      if_neg fun hstarts => hp ( List.isPrefixOf_iff_prefix.1 hstarts)]

/-- A finished copy is exact. -/
theorem get?_makeBackup {target : Path} (htarget : target ≠ [])
    (hdone : (makeBackup access t target (backupPath target)).2 = none) (q : Path) :
    (makeBackup access t target (backupPath target)).1.get? (backupPath target ++ q) =
      t.get? (target ++ q) := by
  rw [makeBackup] at hdone ⊢
  split at hdone
  · cases hdone
  · rename_i hlong
    rw [if_neg hlong, Tree.get?_copyEntries (backupPath_ne_nil target) _
      (fun x hx => Tree.startsWith_of_mem_below hx) (nodup_of_sorted (t.sorted_below target)) hdone,
      Tree.lookup_below t htarget, Tree.get?_remove t (backupPath_ne_nil target), if_pos]
    · simp
    · exact List.isPrefixOf_iff_prefix.2 ⟨q, rfl⟩

/-! ## The files of a run -/

/-- The path does not stand behind the other. -/
def NotBehind (p q : Path) : Prop := ¬ q < p

instance : DecidableRel NotBehind := fun p q => inferInstanceAs (Decidable (¬ q < p))
instance : Std.Total NotBehind := inferInstanceAs (Std.Total (@LE.le Path List.instLE))
instance : IsTrans Path NotBehind := inferInstanceAs (IsTrans Path (@LE.le Path List.instLE))

theorem insertPath_eq_orderedInsert (p : Path) (paths : List Path) :
    insertPath p paths = paths.orderedInsert NotBehind p := by
  induction paths with
  | nil => rfl
  | cons q rest ih =>
    rw [insertPath, ih, List.orderedInsert_cons]
    exact (ite_not ..).symm

theorem sortPaths_eq_insertionSort (paths : List Path) :
    sortPaths paths = paths.insertionSort NotBehind :=
  congrArg (List.foldr · [] paths) (funext fun p => funext (insertPath_eq_orderedInsert p))

theorem mem_sortPaths {p : Path} {paths : List Path} : p ∈ sortPaths paths ↔ p ∈ paths := by
  rw [sortPaths_eq_insertionSort, List.mem_insertionSort]

theorem pairwise_sortPaths (paths : List Path) : (sortPaths paths).Pairwise NotBehind := by
  rw [sortPaths_eq_insertionSort]
  exact List.pairwise_insertionSort _ _

theorem nodup_sortPaths {paths : List Path} (h : paths.Nodup) : (sortPaths paths).Nodup := by
  rw [sortPaths_eq_insertionSort]
  exact (List.perm_insertionSort _ _).nodup_iff.2 h

theorem below_of_mem_collectFiles {target root backup p : Path} {extensions : List String}
    {ignore : List (List Glob.Token)}
    (hp : p ∈ collectFiles t target root backup extensions ignore) : target <+: p := by
  unfold collectFiles at hp
  split at hp
  · exact List.mem_singleton.1 hp ▸ List.prefix_refl p
  · obtain ⟨x, hx, rfl⟩ := List.mem_map.1 (mem_sortPaths.1 hp)
    exact Tree.startsWith_of_mem_below (List.mem_filter.1 hx).1

theorem nodup_collectFiles (t : Tree) (target root backup : Path) (extensions : List String)
    (ignore : List (List Glob.Token)) :
    (collectFiles t target root backup extensions ignore).Nodup := by
  unfold collectFiles
  split
  · exact List.pairwise_singleton _ _
  · exact nodup_sortPaths (nodup_of_sorted ((t.sorted_below target).filter _))

/-! ## Single files -/

/-- Files are written in place, or not at all. -/
def Arguments.staysInPlace (a : Arguments) : Prop :=
  a.mode = .inPlace ∨ a.dryRun = true

theorem convertAt_path (o : Setup.Options) (p : Path) : (convertAt access t o p).path = p := by
  unfold convertAt
  split <;> rfl

theorem map_path_convertAt (o : Setup.Options) (files : List Path) :
    (files.map (convertAt access t o)).map FileResult.path = files := by
  simp [Function.comp_def, convertAt_path]

/-- A file that converts was read. -/
theorem convertAt_converted {o : Setup.Options} {p : Path} {c : Setup.Converted}
    (h : (convertAt access t o p).outcome = .ok (.ok (.converted c))) :
    ∃ source, t.textAt access p = .ok source ∧
      Setup.convertFile source o = .ok (.converted c) := by
  unfold convertAt at h
  split at h
  · cases h
  · rename_i source hsource
    exact ⟨source, hsource, Except.ok.inj h⟩

/-- What finishing a file does to the tree, by what its report says. -/
structure Finished (a : Arguments) (root : Path) (t t' : Tree) (r : FileResult)
    (report : FileReport) : Prop where
  named : report.fileName = relativeName root r.path
  /-- a file that is reported as converted holds its code -/
  converted : report.status = .converted → ∃ c, r.outcome = .ok (.ok (.converted c)) ∧
    (a.dryRun = false → t'.get? r.path = some (.file c.code.toUTF8))
  /-- any other file is as it was -/
  kept : report.status ≠ .converted ∨ a.dryRun = true → t'.get? r.path = t.get? r.path

variable (access) (root : Path) (suffix : String) {a : Arguments}

theorem finishFile_finished (hwhole : access.WritesWhole) (t : Tree) (s : Summary)
    (ha : a.staysInPlace) {r : FileResult} (hr : r.path ≠ []) :
    Finished a root t (finishFile access a root suffix t s r).tree r
      (finishFile access a root suffix t s r).report := by
  obtain ⟨p, source, outcome⟩ := r
  unfold finishFile
  match outcome with
  | .error fault => exact ⟨rfl, by simp, fun _ => rfl⟩
  | .ok (.error e) => exact ⟨rfl, by simp, fun _ => rfl⟩
  | .ok (.ok (.skipped reason)) => exact ⟨rfl, by simp, fun _ => rfl⟩
  | .ok (.ok (.converted c)) =>
    cases hdry : a.dryRun with
    | true => exact ⟨rfl, fun _ => ⟨c, rfl, by simp [hdry]⟩, fun _ => rfl⟩
    | false =>
      have hmode : a.mode = .inPlace := ha.resolve_right (by simp [hdry])
      simp only [writeConverted, hmode, Tree.putEntry_of_writesWhole hwhole]
      cases access.write p with
      | some fault => exact ⟨rfl, by simp, fun _ => rfl⟩
      | none =>
        exact ⟨rfl, fun _ => ⟨c, rfl, fun _ => Tree.get?_put_self t _ hr⟩, by simp [hdry]⟩

/-- Finishing a file leaves all others. -/
theorem finishFile_get?_of_ne (t : Tree) (s : Summary) (ha : a.staysInPlace) {r : FileResult}
    {q : Path} (hq : q ≠ r.path) :
    (finishFile access a root suffix t s r).tree.get? q = t.get? q := by
  obtain ⟨p, source, outcome⟩ := r
  unfold finishFile
  match outcome with
  | .error fault => rfl
  | .ok (.error e) => rfl
  | .ok (.ok (.skipped reason)) => rfl
  | .ok (.ok (.converted c)) =>
    cases hdry : a.dryRun with
    | true => simp
    | false =>
      have hmode : a.mode = .inPlace := ha.resolve_right (by simp [hdry])
      have hput := Tree.get?_putEntry_of_ne access t (.file c.code.toUTF8) hq
      simp only [writeConverted, hmode, Bool.false_eq_true, if_false]
      cases hwrite : t.putEntry access p (.file c.code.toUTF8) with
      | mk now fault? =>
        rw [hwrite] at hput
        cases fault? <;> exact hput

/-- A run that writes nothing shows each converted file. -/
theorem finishFile_of_dryRun (t : Tree) (s : Summary) (hdry : a.dryRun = true) (r : FileResult) :
    (finishFile access a root suffix t s r).tree = t ∧
      ∀ c, r.outcome = .ok (.ok (.converted c)) →
        (finishFile access a root suffix t s r).report.output? = some c.code := by
  obtain ⟨p, source, outcome⟩ := r
  unfold finishFile
  match outcome with
  | .error fault => exact ⟨rfl, by simp⟩
  | .ok (.error e) => exact ⟨rfl, by simp⟩
  | .ok (.ok (.skipped reason)) => exact ⟨rfl, by simp⟩
  | .ok (.ok (.converted c)) => simp [hdry]

/-! ## All files -/

theorem finishAll_get?_of_not_mem (ha : a.staysInPlace) {results : List FileResult} (t : Tree)
    (s : Summary) {q : Path} (hq : q ∉ results.map FileResult.path) :
    (finishAll access a root suffix t s results).tree.get? q = t.get? q := by
  induction results generalizing t s with
  | nil => rfl
  | cons r rest ih =>
    obtain ⟨hne, hrest⟩ := not_or.1 (fun h => hq (List.mem_cons.2 h))
    rw [finishAll]
    exact (ih _ _ hrest).trans (finishFile_get?_of_ne access root suffix t s ha hne)

theorem finishAll_length (results : List FileResult) (t : Tree) (s : Summary) :
    (finishAll access a root suffix t s results).report.length = results.length := by
  induction results generalizing t s with
  | nil => rfl
  | cons r rest ih => simp [finishAll, ih]

/-- When no file stands twice in a list, each is finished as if it were the only one. -/
theorem finishAll_finished (hwhole : access.WritesWhole) (ha : a.staysInPlace)
    {results : List FileResult} (t : Tree) (s : Summary)
    (hnodup : (results.map FileResult.path).Nodup) (hne : ∀ r ∈ results, r.path ≠ []) :
    ∀ x ∈ results.zip (finishAll access a root suffix t s results).report,
      Finished a root t (finishAll access a root suffix t s results).tree x.1 x.2 := by
  induction results generalizing t s with
  | nil => simp
  | cons r rest ih =>
    obtain ⟨hfresh, hnodup⟩ := List.nodup_cons.1 hnodup
    obtain ⟨hr, hrest⟩ := List.forall_mem_cons.1 hne
    have hfirst := finishFile_finished access root suffix hwhole t s ha hr
    intro x hx
    rw [finishAll] at hx ⊢
    rcases List.mem_cons.1 hx with rfl | hx
    · -- later files are others
      have hlater := finishAll_get?_of_not_mem access root suffix ha
        (finishFile access a root suffix t s r).tree (finishFile access a root suffix t s r).summary
        hfresh
      refine ⟨hfirst.named, fun hstatus => ?_, fun hkept => hlater.trans (hfirst.kept hkept)⟩
      obtain ⟨c, hc, hcode⟩ := hfirst.converted hstatus
      exact ⟨c, hc, fun hdry => hlater.trans (hcode hdry)⟩
    · obtain ⟨hnamed, hconverted, hkept⟩ := ih _ _ hnodup hrest x hx
      have hearlier : (finishFile access a root suffix t s r).tree.get? x.1.path =
          t.get? x.1.path := by
        refine finishFile_get?_of_ne access root suffix t s ha ?_
        rintro heq
        exact hfresh (heq ▸ List.mem_map_of_mem (List.of_mem_zip hx).1)
      exact ⟨hnamed, hconverted, fun h => (hkept h).trans hearlier⟩

theorem finishAll_of_dryRun (t : Tree) (s : Summary) (hdry : a.dryRun = true)
    (results : List FileResult) :
    (finishAll access a root suffix t s results).tree = t ∧
      ∀ x ∈ results.zip (finishAll access a root suffix t s results).report,
        ∀ c, x.1.outcome = .ok (.ok (.converted c)) → x.2.output? = some c.code := by
  induction results generalizing s with
  | nil => simp [finishAll]
  | cons r rest ih =>
    obtain ⟨htree, hshown⟩ := finishFile_of_dryRun access root suffix t s hdry r
    obtain ⟨hlater, hrest⟩ := ih (finishFile access a root suffix t s r).summary
    rw [finishAll]
    simp only [htree]
    exact ⟨hlater, List.forall_mem_cons.2 ⟨hshown, hrest⟩⟩

/-! ## Plans -/

variable {access}

/-- The target of a plan is what the path names, and its files are at or below it. -/
theorem Plan.make_eq_ok {workingDir : Path} {plan : Plan}
    (h : Plan.make access t workingDir a = .ok plan) :
    t.resolve workingDir a.path = .ok plan.target ∧ (∀ p ∈ plan.files, plan.target <+: p) ∧
      plan.files.Nodup := by
  obtain ⟨target, htarget, h⟩ := bind_eq_ok.1 h
  obtain ⟨config, -, h⟩ := bind_eq_ok.1 h
  obtain ⟨given, -, h⟩ := bind_eq_ok.1 h
  obtain ⟨always, -, h⟩ := bind_eq_ok.1 h
  obtain rfl := Except.ok.inj h
  exact ⟨mapError_eq_ok.1 htarget, fun p hp => below_of_mem_collectFiles hp,
    nodup_collectFiles _ _ _ _ _ _⟩

theorem Plan.get?_prepare_of_not_below (plan : Plan) {t₁ : Tree} {fault? : Option Files.Fault}
    (hprepare : plan.prepare access t a = (t₁, fault?)) {p : Path} (hp : ¬ plan.backup <+: p) :
    t₁.get? p = t.get? p := by
  obtain rfl : (plan.prepare access t a).1 = t₁ := congrArg Prod.fst hprepare
  unfold Plan.prepare
  split
  · exact get?_makeBackup_of_not_below hp
  · rfl

/-- There is a change only where a copy is needed. -/
theorem Plan.prepare_of_not_needed (plan : Plan)
    (h : ¬ (a.needsBackup = true ∧ plan.files ≠ [])) : plan.prepare access t a = (t, none) := by
  refine if_neg fun hneeded => h ?_
  simpa using hneeded

theorem Plan.get?_prepare (plan : Plan) {t₁ : Tree} (htarget : plan.target ≠ [])
    (hneeded : a.needsBackup = true ∧ plan.files ≠ [])
    (hprepare : plan.prepare access t a = (t₁, none)) (q : Path) :
    t₁.get? (plan.backup ++ q) = t.get? (plan.target ++ q) := by
  have hcopy : makeBackup access t plan.target plan.backup = (t₁, none) := by
    rw [← hprepare]
    exact (if_pos (by simpa using hneeded)).symm
  obtain rfl : (makeBackup access t plan.target plan.backup).1 = t₁ := congrArg Prod.fst hcopy
  exact get?_makeBackup htarget (congrArg Prod.snd hcopy) q

theorem Plan.carryOut_length (plan : Plan) :
    (plan.carryOut access t a).report.length = plan.files.length := by
  rw [Plan.carryOut, finishAll_length, List.length_map]

/-- Each file has its report. -/
theorem Plan.exists_report (plan : Plan) (a : Arguments) (t : Tree) {p : Path}
    (hp : p ∈ plan.files) :
    ∃ report, (p, report) ∈ plan.files.zip (plan.carryOut access t a).report := by
  rw [← List.map_fst_zip (Nat.le_of_eq (plan.carryOut_length (t := t)).symm)] at hp
  obtain ⟨⟨q, report⟩, hreport, rfl⟩ := List.mem_map.1 hp
  exact ⟨report, hreport⟩

theorem Plan.get?_carryOut_of_not_mem (plan : Plan) (ha : a.staysInPlace) {p : Path}
    (hp : p ∉ plan.files) : (plan.carryOut access t a).tree.get? p = t.get? p := by
  refine finishAll_get?_of_not_mem _ _ _ ha t _ ?_
  rw [map_path_convertAt]
  exact hp

/-- Each file of a plan is converted and finished as if it were the only one. -/
theorem Plan.carryOut_finished (plan : Plan) (hwhole : access.WritesWhole) (ha : a.staysInPlace)
    (hnodup : plan.files.Nodup) (hne : ∀ p ∈ plan.files, p ≠ []) {p : Path} {report : FileReport}
    (h : (p, report) ∈ plan.files.zip (plan.carryOut access t a).report) :
    Finished a plan.root t (plan.carryOut access t a).tree (convertAt access t plan.options p)
      report := by
  refine finishAll_finished access plan.root plan.suffix hwhole ha t _ ?_ ?_
    (convertAt access t plan.options p, report) ?_
  · rw [map_path_convertAt]
    exact hnodup
  · rintro r hr
    obtain ⟨q, hq, rfl⟩ := List.mem_map.1 hr
    rw [convertAt_path]
    exact hne q hq
  · rw [List.zip_map_left]
    exact List.mem_map.2 ⟨(p, report), h, rfl⟩

/-! ## Runs -/

/-- What a run that ends has changed, by its plan and its reports. -/
structure Accounted (access : Access) (t t' : Tree) (a : Arguments) (plan : Plan)
    (reports : List FileReport) : Prop where
  /-- each file has its report -/
  length : reports.length = plan.files.length
  named : ∀ p report, (p, report) ∈ plan.files.zip reports →
    report.fileName = relativeName plan.root p
  /-- what is not as it was is a converted file or stands in the copy -/
  changed : ∀ p, t'.get? p ≠ t.get? p →
    (a.dryRun = false ∧
      ∃ report, (p, report) ∈ plan.files.zip reports ∧ report.status = .converted) ∨
    (plan.backup <+: p ∧ a.needsBackup = true ∧ plan.files ≠ [])
  /-- a converted file holds what its text becomes -/
  converted : ∀ p report, (p, report) ∈ plan.files.zip reports → report.status = .converted →
    ∃ source c, t.textAt access p = .ok source ∧
      Setup.convertFile source plan.options = .ok (.converted c) ∧
      (a.dryRun = false → t'.get? p = some (.file c.code.toUTF8))
  /-- any other file is as it was -/
  kept : ∀ p report, (p, report) ∈ plan.files.zip reports → report.status ≠ .converted →
    t'.get? p = t.get? p
  /-- the copy is exact -/
  copied : a.needsBackup = true → plan.files ≠ [] →
    ∀ q, t'.get? (plan.backup ++ q) = t.get? (plan.target ++ q)

/-- A run whose copy is made accounts for what it changes. -/
theorem Plan.accounted (plan : Plan) {t₁ : Tree} (hwhole : access.WritesWhole)
    (ha : a.staysInPlace) (htarget : plan.target ≠ [])
    (hbelow : ∀ p ∈ plan.files, plan.target <+: p) (hnodup : plan.files.Nodup)
    (hprepare : plan.prepare access t a = (t₁, none)) :
    Accounted access t (plan.carryOut access t₁ a).tree a plan
      (plan.carryOut access t₁ a).report := by
  have hne : ∀ p ∈ plan.files, p ≠ [] := by
    rintro p hp rfl
    exact htarget (List.prefix_nil.1 (hbelow [] hp))
  -- no file stands in the copy, so all of them are read as they were
  have houtside : ∀ p ∈ plan.files, ¬ plan.backup <+: p := fun p hp =>
    not_below_backupPath htarget (hbelow p hp)
  have hfinished (p : Path) (report : FileReport)
      (h : (p, report) ∈ plan.files.zip (plan.carryOut access t₁ a).report) :
      Finished a plan.root t₁ (plan.carryOut access t₁ a).tree
        (convertAt access t₁ plan.options p) report ∧ t₁.get? p = t.get? p :=
    ⟨plan.carryOut_finished hwhole ha hnodup hne h,
      plan.get?_prepare_of_not_below hprepare (houtside p (List.of_mem_zip h).1)⟩
  refine ⟨plan.carryOut_length, ?named, ?changed, ?converted, ?kept, ?copied⟩
  case named =>
    intro p report h
    simpa [convertAt_path] using (hfinished p report h).1.named
  case changed =>
    intro p hchanged
    by_cases hp : p ∈ plan.files
    · left
      obtain ⟨report, hreport⟩ := plan.exists_report a t₁ hp
      obtain ⟨hfinish, hread⟩ := hfinished _ _ hreport
      have hkept := hfinish.kept
      rw [convertAt_path, hread] at hkept
      obtain ⟨hstatus, hdry⟩ := not_or.1 fun h => hchanged (hkept h)
      exact ⟨by simpa using hdry, report, hreport, Classical.not_not.1 hstatus⟩
    · right
      rw [plan.get?_carryOut_of_not_mem ha hp] at hchanged
      by_cases hneeded : a.needsBackup = true ∧ plan.files ≠ []
      · exact ⟨Classical.not_not.1 fun hout =>
          hchanged (plan.get?_prepare_of_not_below hprepare hout), hneeded⟩
      · rw [plan.prepare_of_not_needed hneeded] at hprepare
        exact absurd (congrArg (fun x => x.1.get? p) hprepare.symm) hchanged
  case converted =>
    intro p report h hstatus
    obtain ⟨hfinish, hread⟩ := hfinished p report h
    obtain ⟨c, hc, hcode⟩ := hfinish.converted hstatus
    obtain ⟨source, hsource, hconvert⟩ := convertAt_converted hc
    rw [Tree.textAt_congr access hread] at hsource
    rw [convertAt_path] at hcode
    exact ⟨source, c, hsource, hconvert, hcode⟩
  case kept =>
    intro p report h hstatus
    obtain ⟨hfinish, hread⟩ := hfinished p report h
    have hkept := hfinish.kept (.inl hstatus)
    rw [convertAt_path] at hkept
    exact hkept.trans hread
  case copied =>
    intro hneeded hfiles q
    have hq : plan.backup ++ q ∉ plan.files := fun h => houtside _ h (List.prefix_append _ _)
    rw [plan.get?_carryOut_of_not_mem ha hq]
    exact plan.get?_prepare htarget ⟨hneeded, hfiles⟩ hprepare q

/-- A run that goes through has a plan, prepares for it and carries it out. -/
theorem run_eq_ok {t' : Tree} {workingDir : Path} {r : RunResult} :
    run access t workingDir a = (t', .ok r) ↔ ∃ plan prepared,
      Plan.make access t workingDir a = .ok plan ∧ plan.prepare access t a = (prepared, none) ∧
        t' = (plan.carryOut access prepared a).tree ∧
        r = .ofReports a (plan.carryOut access prepared a).summary
          (plan.carryOut access prepared a).report := by
  rw [run]
  constructor
  · intro h
    split at h
    · cases h
    · next plan hplan =>
      split at h
      · cases h
      · next prepared hprepare =>
        cases h
        exact ⟨plan, prepared, hplan, hprepare, rfl, rfl⟩
  · rintro ⟨plan, prepared, hplan, hprepare, rfl, rfl⟩
    rw [hplan]
    simp only [hprepare]

/-- A run that stops has changed nothing, or could not finish the copy. -/
theorem run_eq_error {t' : Tree} {workingDir : Path} {e : RunError}
    (h : run access t workingDir a = (t', .error e)) : t' = t ∨ ∃ plan fault,
      Plan.make access t workingDir a = .ok plan ∧ plan.prepare access t a = (t', some fault) ∧
        e = .backup plan.target.render fault := by
  rw [run] at h
  split at h
  · cases h
    exact .inl rfl
  · next plan hplan =>
    split at h
    · next prepared fault hprepare =>
      cases h
      exact .inr ⟨plan, fault, hplan, hprepare, rfl⟩
    · cases h

/-- A run that writes nothing shows what each file becomes. -/
theorem run_of_dryRun {workingDir : Path} {plan : Plan} (hdry : a.dryRun = true)
    (hplan : Plan.make access t workingDir a = .ok plan) :
    ∃ s r, run access t workingDir a = (t, .ok (.ofReports a s r)) ∧
      ∀ p ∈ plan.files, ∀ source c, t.textAt access p = .ok source →
        Setup.convertFile source plan.options = .ok (.converted c) →
        ∃ report, (p, report) ∈ plan.files.zip r ∧ report.output? = some c.code := by
  have hprepare : plan.prepare access t a = (t, none) :=
    plan.prepare_of_not_needed (by simp [Arguments.needsBackup, hdry])
  obtain ⟨htree, hshown⟩ := finishAll_of_dryRun access plan.root plan.suffix t
    { failOnWarnings := a.failOnWarnings } hdry (plan.files.map (convertAt access t plan.options))
  refine ⟨_, _, run_eq_ok.2 ⟨plan, t, hplan, hprepare, htree.symm, rfl⟩, ?_⟩
  · intro p hp source c hsource hc
    obtain ⟨report, hreport⟩ := plan.exists_report a t hp
    refine ⟨report, hreport, hshown (convertAt access t plan.options p, report) ?_ c ?_⟩
    · rw [List.zip_map_left]
      exact List.mem_map.2 ⟨_, hreport, rfl⟩
    · simp only [convertAt, hsource, hc]

/-- A file that is opened and cannot be written to its end is cut off, and reported as failed. -/
theorem run_cuts_off_file :
    let t := (Tree.empty.put ["a"] .directory).put ["a", "B.vue"] (.file "<script/>".toUTF8)
    let access : Access := { breaksOff := fun _ => some (7, .noSpace) }
    let a : Arguments := { path := "/a", noBackup := true }
    ∃ t' r, run access t [] a = (t', .ok r) ∧ r.reports.map (·.status) = [.failed] ∧
      t'.textAt {} ["a", "B.vue"] = .ok "<script" := by
  intro t access a
  obtain ⟨r, hr, hstatus⟩ := exists_ok_of_any (x := (run access t [] a).2)
    (p := fun r => r.reports.map (·.status) == [.failed]) (by decide +kernel)
  exact ⟨_, r, Prod.ext rfl hr, by simpa using hstatus, eq_ok_of_toOption (by decide +kernel)⟩

end ScriptSetup.Migration
