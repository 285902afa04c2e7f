import ScriptSetup.Files.Tree

/-!
# What stands at a path

How `put`, `putEntry`, `remove` and `copyEntries` change what is found at a path: exactly at the
paths that they name. These are the only facts about the entries of a tree that the proofs about
runs use.
Names depend on directories alone: they lead to the same places in trees that have the same ones.
-/

set_option autoImplicit false

namespace ScriptSetup.Files

variable {entries : List (Path × Entry)} {p : Path}

/-! ## Entries -/

theorem lookup_cons_of_ne {q : Path} (h : q ≠ p) (e : Entry) (rest : List (Path × Entry)) :
    ((p, e) :: rest).lookup q = rest.lookup q := by
  have hbeq : (q == p) = false := by simpa using h
  rw [List.lookup_cons, hbeq]

theorem lookup_insertEntry (p q : Path) (e : Entry) (entries : List (Path × Entry)) :
    (insertEntry p e entries).lookup q = if q = p then some e else entries.lookup q := by
  induction entries with
  | nil =>
    by_cases hq : q = p
    · simp [insertEntry, hq]
    · simp [insertEntry, hq, lookup_cons_of_ne hq]
  | cons x rest ih =>
    obtain ⟨r, f⟩ := x
    rw [insertEntry]
    split
    · by_cases hq : q = p
      · simp [hq]
      · simp [hq, lookup_cons_of_ne hq]
    · split
      · rename_i hpr
        subst hpr
        by_cases hq : q = p
        · simp [hq]
        · simp [hq, lookup_cons_of_ne hq]
      · rename_i hne
        by_cases hqr : q = r
        · subst hqr
          simp [Ne.symm hne]
        · simp [lookup_cons_of_ne hqr, ih]

theorem lookup_filter (keep : Path → Bool) (q : Path) (entries : List (Path × Entry)) :
    (entries.filter fun x => keep x.1).lookup q = if keep q then entries.lookup q else none := by
  induction entries with
  | nil => simp
  | cons x rest ih =>
    obtain ⟨p, e⟩ := x
    by_cases hq : q = p
    · subst hq
      by_cases hkeep : keep q = true
      · simp [hkeep]
      · simp [hkeep, ih]
    · by_cases hkeep : keep p = true
      · simp [hkeep, lookup_cons_of_ne hq, ih]
      · simp [hkeep, lookup_cons_of_ne hq, ih]

/-- What is found stands among the entries. -/
theorem mem_of_lookup {e : Entry} (h : entries.lookup p = some e) : (p, e) ∈ entries := by
  induction entries with
  | nil => cases h
  | cons x rest ih =>
    obtain ⟨q, f⟩ := x
    by_cases hp : p = q
    · subst hp
      have hfe : f = e := by simpa using h
      rw [hfe]
      exact List.mem_cons_self
    · rw [lookup_cons_of_ne hp] at h
      exact List.mem_cons_of_mem _ (ih h)

theorem lookup_eq_none_of_not_mem (h : p ∉ entries.map Prod.fst) : entries.lookup p = none := by
  cases hlookup : entries.lookup p with
  | none => rfl
  | some e => exact absurd (List.mem_map_of_mem (mem_of_lookup hlookup)) h

/-- No path stands twice among entries in order. -/
theorem nodup_of_sorted (h : Sorted entries) : (entries.map Prod.fst).Nodup := by
  refine List.pairwise_map.2 (h.imp fun hlt heq => ?_)
  rw [heq] at hlt
  exact List.lt_irrefl _ hlt

/-- A file that can be opened is written to its end. -/
def Access.WritesWhole (access : Access) : Prop :=
  ∀ p, access.breaksOff p = none

namespace Tree

variable {p here : Path} {t t' : Tree} {name : String}

/-! ## One change -/

theorem get?_put_of_ne (t : Tree) {q : Path} (e : Entry) (h : q ≠ p) :
    (t.put p e).get? q = t.get? q := by
  simp [get?, put, lookup_insertEntry, h]

theorem get?_put_self (t : Tree) (e : Entry) (hp : p ≠ []) : (t.put p e).get? p = some e := by
  simp [get?, put, lookup_insertEntry, hp]

theorem get?_remove (t : Tree) (hp : p ≠ []) (q : Path) :
    (t.remove p).get? q = if p.isPrefixOf q then none else t.get? q := by
  cases q with
  | nil => cases p with
    | nil => exact absurd rfl hp
    | cons name p => simp [get?, List.isPrefixOf]
  | cons name q =>
    have hlookup := lookup_filter (fun q => !p.isPrefixOf q) (name :: q) t.entries
    simp only [get?, remove, filter, hlookup, reduceCtorEq, if_false]
    cases p.isPrefixOf (name :: q) <;> rfl

theorem lookup_below (t : Tree) (hp : p ≠ []) (q : Path) :
    (t.below p).lookup (p ++ q) = t.get? (p ++ q) := by
  have hstarts : p.isPrefixOf (p ++ q) = true := List.isPrefixOf_iff_prefix.2 ⟨q, rfl⟩
  have hne : p ++ q ≠ [] := by simp [hp]
  rw [below, lookup_filter p.isPrefixOf, hstarts, get?, if_neg hne]
  rfl

theorem sorted_below (t : Tree) (p : Path) : Sorted (t.below p) :=
  t.sorted.filter _

theorem startsWith_of_mem_below {x : Path × Entry} (h : x ∈ t.below p) : p <+: x.1 :=
  List.isPrefixOf_iff_prefix.1 (List.mem_filter.1 h).2

/-- An entry is put whole, or refused, or it is a file that is left with a part of its bytes. -/
theorem putEntry_cases (access : Access) (t : Tree) (p : Path) (e : Entry) :
    (access.write p = none ∧ t.putEntry access p e = (t.put p e, none)) ∨
      (∃ fault, access.write p = some fault ∧ t.putEntry access p e = (t, some fault)) ∨
      ∃ bytes n fault, e = .file bytes ∧ access.breaksOff p = some (n, fault) ∧
        t.putEntry access p e = (t.put p (.file (bytes.extract 0 n)), some fault) := by
  unfold putEntry
  split
  · rename_i fault hwrite
    exact .inr (.inl ⟨fault, hwrite, rfl⟩)
  · rename_i hwrite
    split
    · rename_i bytes n fault hbreaks
      exact .inr (.inr ⟨bytes, n, fault, rfl, hbreaks, rfl⟩)
    · exact .inl ⟨hwrite, rfl⟩

theorem get?_putEntry_of_ne (access : Access) (t : Tree) {q : Path} (e : Entry) (h : q ≠ p) :
    (t.putEntry access p e).1.get? q = t.get? q := by
  rcases putEntry_cases access t p e with ⟨-, heq⟩ | ⟨fault, -, heq⟩ | ⟨bytes, n, fault, -, -, heq⟩
  · rw [heq, get?_put_of_ne t e h]
  · rw [heq]
  · rw [heq, get?_put_of_ne t _ h]

theorem putEntry_of_done {access : Access} {e : Entry} (h : (t.putEntry access p e).2 = none) :
    t.putEntry access p e = (t.put p e, none) := by
  rcases putEntry_cases access t p e with ⟨-, heq⟩ | ⟨fault, -, heq⟩ | ⟨bytes, n, fault, -, -, heq⟩
  · exact heq
  · rw [heq] at h
    cases h
  · rw [heq] at h
    cases h

/-- Where files are written whole, an entry is put unless it is refused. -/
theorem putEntry_of_writesWhole {access : Access} (hwhole : access.WritesWhole) (t : Tree)
    (p : Path) (e : Entry) :
    t.putEntry access p e =
      match access.write p with
      | some fault => (t, some fault)
      | none => (t.put p e, none) := by
  rcases putEntry_cases access t p e with
    ⟨hwrite, heq⟩ | ⟨fault, hwrite, heq⟩ | ⟨bytes, n, fault, -, hbreaks, -⟩
  · rw [heq, hwrite]
  · rw [heq, hwrite]
  · cases (hwhole p).symm.trans hbreaks

/-- What is read depends on what stands at the path alone. -/
theorem textAt_congr (access : Access) (h : t'.get? p = t.get? p) :
    t'.textAt access p = t.textAt access p := by
  rw [textAt, textAt, h]

/-! ## Copies -/

variable {access : Access} {source target : Path}

/-- Nothing changes away from the copy, whether it is finished or not. -/
theorem get?_copyEntries_of_not_below (entries : List (Path × Entry)) (t : Tree)
    (hp : ¬ target <+: p) : (t.copyEntries access source target entries).1.get? p = t.get? p := by
  induction entries generalizing t with
  | nil => rfl
  | cons x rest ih =>
    obtain ⟨q, e⟩ := x
    have hput := get?_putEntry_of_ne (p := target ++ q.drop source.length) (q := p) access t e <| by
      rintro rfl
      exact hp (List.prefix_append _ _)
    rw [copyEntries]
    split
    · rfl
    · split
      · rename_i heq
        rw [heq] at hput
        exact hput
      · rename_i heq
        rw [heq] at hput
        exact (ih _).trans hput

theorem copyEntries_of_done {e : Entry} {rest : List (Path × Entry)}
    (h : (t.copyEntries access source target ((p, e) :: rest)).2 = none) :
    t.copyEntries access source target ((p, e) :: rest) =
      (t.put (target ++ p.drop source.length) e).copyEntries access source target rest := by
  rw [copyEntries] at h ⊢
  split at h
  · cases h
  · split at h
    · cases h
    · rename_i hput
      cases hput.symm.trans (putEntry_of_done (congrArg Prod.snd hput))
      rfl

/-- A finished copy holds at each path what the entries hold there. -/
theorem get?_copyEntries (htarget : target ≠ []) {entries : List (Path × Entry)} (t : Tree)
    (hbelow : ∀ x ∈ entries, source <+: x.1) (hnodup : (entries.map Prod.fst).Nodup)
    (hdone : (t.copyEntries access source target entries).2 = none) (q : Path) :
    (t.copyEntries access source target entries).1.get? (target ++ q) =
      (entries.lookup (source ++ q)).or (t.get? (target ++ q)) := by
  induction entries generalizing t with
  | nil => rfl
  | cons x rest ih =>
    obtain ⟨p, e⟩ := x
    obtain ⟨⟨q', rfl⟩, hrest⟩ := List.forall_mem_cons.1 hbelow
    obtain ⟨hfresh, hnodup⟩ := List.nodup_cons.1 hnodup
    have hfirst := copyEntries_of_done hdone
    rw [List.drop_left] at hfirst
    rw [hfirst] at hdone ⊢
    rw [ih _ hrest hnodup hdone]
    by_cases hq : q = q'
    · subst hq
      have hnone : rest.lookup (source ++ q) = none := lookup_eq_none_of_not_mem hfresh
      rw [hnone, get?_put_self t e (by simp [htarget])]
      simp
    · rw [get?_put_of_ne t e (by simpa using hq)]
      rw [lookup_cons_of_ne (by simpa using hq)]

/-! ## Directories -/

/-- The same paths are directories. -/
def SameDirectories (t t' : Tree) : Prop :=
  ∀ p, t'.isDirectory p = t.isDirectory p

theorem SameDirectories.trans {t'' : Tree} (h : t.SameDirectories t')
    (h' : t'.SameDirectories t'') : t.SameDirectories t'' :=
  fun p => (h' p).trans (h p)

/-- A file in a place that is no directory leaves the directories. -/
theorem sameDirectories_put (bytes : ByteArray) (hp : t.isDirectory p = false) :
    t.SameDirectories (t.put p (.file bytes)) := by
  intro q
  by_cases hq : q = p
  · subst hq
    have hne : q ≠ [] := by
      rintro rfl
      cases hp
    rw [hp, isDirectory, get?_put_self t _ hne]
  · rw [isDirectory, isDirectory, get?_put_of_ne t _ hq]

/-- From anything but a directory, names lead to no directory. -/
theorem not_isDirectory_of_walk {names : List String} (hhere : t.isDirectory here = false)
    (h : t.walk here names = .ok p) : t.isDirectory p = false := by
  cases names with
  | nil => exact Except.ok.inj h ▸ hhere
  | cons name rest => simp [walk, hhere] at h

theorem walk_cons_eq_ok {rest : List String} (hdirectory : t.isDirectory p = true) :
    t.walk here (name :: rest) = .ok p ↔ t.isDirectory here = true ∧
      if name == "" || name == "." then t.walk here rest = .ok p
      else if name == ".." then t.walk here.dropLast rest = .ok p
      else isTooLong name = false ∧ t.isDirectory (here ++ [name]) = true ∧
        t.walk (here ++ [name]) rest = .ok p := by
  rw [walk]
  cases hhere : t.isDirectory here with
  | false => simp
  | true =>
    simp only [Bool.not_true, Bool.false_eq_true, if_false, true_and]
    split
    · rfl
    · split
      · rfl
      · cases hnext : t.isDirectory (here ++ [name]) with
        | true =>
          have hsome : (t.get? (here ++ [name])).isNone = false := by
            rw [isDirectory] at hnext
            split at hnext
            · rename_i hget
              rw [hget]
              rfl
            · cases hnext
          cases isTooLong name <;> simp [hsome]
        | false =>
          refine iff_of_false (fun h => ?_) (by simp)
          split at h
          · cases h
          · split at h
            · cases h
            · rw [not_isDirectory_of_walk hnext h] at hdirectory
              cases hdirectory

/-- Names lead to the same directories. -/
theorem walk_of_sameDirectories (h : t.SameDirectories t') {names : List String}
    (hp : t.isDirectory p = true) : t'.walk here names = .ok p ↔ t.walk here names = .ok p := by
  induction names generalizing here with
  | nil => rfl
  | cons name rest ih =>
    rw [walk_cons_eq_ok hp, walk_cons_eq_ok ((h p).trans hp), h here, h (here ++ [name])]
    simp only [ih]

/-- A destination is below a directory, and none itself. -/
theorem destination_eq_ok {directory : Path} (h : t.destination directory name = .ok p) :
    t.isDirectory p = false ∧ p ≠ [] := by
  unfold destination at h
  split at h
  · cases h
  · split at h
    · cases h
    · split at h
      · cases h
      · rename_i last before _ parent _
        split at h
        · cases h
        · split at h
          · cases h
          · split at h
            · cases h
            · split at h
              · cases h
              · rename_i hdirectory
                cases h
                exact ⟨by simpa using hdirectory, by simp⟩

/-- A name has the same destination in trees with the same directories. -/
theorem destination_of_sameDirectories (hsame : t.SameDirectories t') {directory : Path}
    (h : t.destination directory name = .ok p) : t'.destination directory name = .ok p := by
  unfold destination at h ⊢
  split at h
  · cases h
  · rename_i hzero
    rw [if_neg hzero]
    split at h
    · cases h
    · rename_i last before _
      split at h
      · cases h
      · rename_i parent hwalk
        split at h
        · cases h
        · rename_i hparent
          have hparent : t.isDirectory parent = true := by simpa using hparent
          rw [(walk_of_sameDirectories hsame hparent).2 hwalk]
          simpa [hsame _, hparent] using h

end Tree

end ScriptSetup.Files
