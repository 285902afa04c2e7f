import ScriptSetup.Component.Tables

/-!
# Entries of the tables

A table keeps one entry for each name, in the order in which the names were first met. What an
entry holds is found by its name, so two tables with the same names in the same order and the same
entry under each name are equal.
-/

set_option autoImplicit false

namespace ScriptSetup.Component

open Script

/-! ## Names in the order of their first use -/

/-- Names that are added one after the other stand in the order of their first use, behind those
that were there before. -/
theorem foldl_insertNew (names seen : List String) :
    names.foldl (fun seen name => insertNew name seen) seen =
      seen ++ (names.filter fun name => !seen.contains name).eraseDups := by
  induction names generalizing seen with
  | nil => simp
  | cons name rest ih =>
    rw [List.foldl_cons, ih, insertNew]
    by_cases hseen : name ∈ seen
    · simp [hseen]
    · have hfilter : (rest.filter fun n => !(seen ++ [name]).contains n) =
          (rest.filter fun n => !seen.contains n).filter fun n => !(n == name) := by
        rw [List.filter_filter]
        refine List.filter_congr fun n _ => ?_
        rw [List.contains_append, Bool.not_or, Bool.and_comm, List.contains_cons, List.contains_nil,
          Bool.or_false]
      rw [if_neg (by simpa using hseen), hfilter, List.append_assoc, List.singleton_append,
        List.filter_cons_of_pos (by simpa using hseen), List.eraseDups_cons]

/-- Leaving names out keeps the order of first uses. -/
theorem eraseDups_filter (p : String → Bool) (names : List String) :
    (names.filter p).eraseDups = names.eraseDups.filter p := by
  -- the tail without its first name is shorter than the list
  induction hlength : names.length using Nat.strongRecOn generalizing names with
  | _ n ih =>
    cases names with
    | nil => rfl
    | cons name rest =>
      have hshorter : (rest.filter fun n => !(n == name)).length < n := by
        rw [← hlength]
        exact Nat.lt_succ_of_le (List.length_filter_le _ rest)
      rw [List.eraseDups_cons, List.filter_cons, List.filter_cons]
      have hrest := ih _ hshorter (rest.filter fun n => !(n == name)) rfl
      by_cases hp : p name = true
      · rw [if_pos hp, if_pos hp, List.eraseDups_cons, ← hrest, List.filter_filter,
          List.filter_filter]
        simp only [Bool.and_comm]
      · rw [if_neg hp, if_neg hp, ← hrest, List.filter_filter]
        refine congrArg List.eraseDups (List.filter_congr fun n _ => ?_)
        by_cases hn : n = name
        · simp [hn, hp]
        · simp [hn]

theorem nodup_insertNew {name : String} {names : List String} (h : names.Nodup) :
    (insertNew name names).Nodup := by
  rw [insertNew]
  split
  · exact h
  · rename_i hname
    refine List.nodup_append.2 ⟨h, by simp, fun a ha b hb => ?_⟩
    obtain rfl := List.mem_singleton.1 hb
    rintro rfl
    exact hname (by simpa using ha)

theorem nodup_foldl_insertNew {seen : List String} (names : List String) (h : seen.Nodup) :
    (names.foldl (fun seen name => insertNew name seen) seen).Nodup := by
  induction names generalizing seen with
  | nil => exact h
  | cons name names ih => exact ih (nodup_insertNew h)

/-! ## Accessors -/

/-- The accessor of a name. -/
def accessorOf (accessors : List Accessor) (name : String) : Option Accessor :=
  accessors.find? (·.name == name)

theorem name_of_accessorOf {accessors : List Accessor} {name : String} {a : Accessor}
    (h : accessorOf accessors name = some a) : a.name = name := by
  simpa using List.find?_some h

section

variable {name : String} {change : Accessor → Accessor} (hchange : ∀ a, (change a).name = a.name)

include hchange

theorem map_name_updateAccessor (accessors : List Accessor) :
    (updateAccessor name change accessors).map (·.name) =
      insertNew name (accessors.map (·.name)) := by
  induction accessors with
  | nil => simp [updateAccessor, insertNew, hchange]
  | cons a rest ih =>
    rw [updateAccessor]
    by_cases hname : a.name = name
    · simp [insertNew, hname, hchange]
    · have hne : (name == a.name) = false := by simpa using Ne.symm hname
      rw [if_neg hname, List.map_cons, ih, List.map_cons, insertNew, insertNew, List.contains_cons,
        hne, Bool.false_or]
      split
      · rfl
      · rfl

theorem accessorOf_updateAccessor (accessors : List Accessor) (n : String) :
    accessorOf (updateAccessor name change accessors) n =
      if n = name then some (change ((accessorOf accessors name).getD { name }))
      else accessorOf accessors n := by
  induction accessors with
  | nil =>
    by_cases hn : n = name
    · simp [updateAccessor, accessorOf, hchange, hn]
    · simp [updateAccessor, accessorOf, hchange, hn, Ne.symm hn]
  | cons a rest ih =>
    rw [updateAccessor]
    by_cases hname : a.name = name
    · by_cases hn : n = name
      · simp [accessorOf, hname, hn, hchange]
      · simp [accessorOf, hname, hn, hchange, Ne.symm hn]
    · rw [if_neg hname]
      by_cases han : a.name = n
      · have hn : n ≠ name := fun h => hname (han.trans h)
        simp [accessorOf, han, hn]
      · have hcons (l : List Accessor) : accessorOf (a :: l) n = accessorOf l n := by
          simp [accessorOf, han]
        have hcons' : accessorOf (a :: rest) name = accessorOf rest name := by
          simp [accessorOf, hname]
        rw [hcons, hcons, hcons', ih]

end

/-- Accessors are known from their names in order and from what is found under each name. -/
theorem accessors_ext {as bs : List Accessor} (hnodup : (as.map (·.name)).Nodup)
    (hnames : as.map (·.name) = bs.map (·.name))
    (hfound : ∀ name, accessorOf as name = accessorOf bs name) : as = bs := by
  induction as generalizing bs with
  | nil => exact (List.map_eq_nil_iff.1 hnames.symm).symm
  | cons a as ih =>
    cases bs with
    | nil => cases hnames
    | cons b bs =>
      obtain ⟨hname, htail⟩ := List.cons.inj hnames
      have hhead : a = b := by
        have h := hfound a.name
        simp only [accessorOf, List.find?_cons_of_pos, beq_self_eq_true, hname] at h
        exact Option.some.inj h
      obtain ⟨hnew, hnodup⟩ := List.nodup_cons.1 hnodup
      subst hhead
      refine congrArg (a :: ·) (ih hnodup htail fun name => ?_)
      by_cases hn : a.name = name
      · have hmissing (l : List Accessor) (h : a.name ∉ l.map (·.name)) :
            accessorOf l name = none := by
          refine List.find?_eq_none.2 fun x hx hxname => h ?_
          exact List.mem_map.2 ⟨x, hx, (by simpa using hxname : x.name = name).trans hn.symm⟩
        rw [hmissing as hnew, hmissing bs (htail ▸ hnew)]
      · have h := hfound name
        simpa [accessorOf, hn] using h

/-- The getter that is found under a name. -/
def getterOf (accessors : List Accessor) (name : String) : Option Func :=
  (accessorOf accessors name).bind (·.getter)

/-- The setter that is found under a name. -/
def setterOf (accessors : List Accessor) (name : String) : Option Func :=
  (accessorOf accessors name).bind (·.setter)

theorem isSome_accessorOf (accessors : List Accessor) (name : String) :
    (accessorOf accessors name).isSome = (accessors.map (·.name)).contains name := by
  induction accessors with
  | nil => rfl
  | cons a rest ih =>
    by_cases hname : a.name = name
    · simp [accessorOf, hname]
    · simp only [accessorOf, List.find?_cons_of_neg, beq_iff_eq, hname, not_false_eq_true] at ih ⊢
      rw [ih]
      simp [Ne.symm hname]

/-- What is found under a name is known from its getter and its setter. -/
theorem accessorOf_ext {as bs : List Accessor} {name : String}
    (hnames : as.map (·.name) = bs.map (·.name)) (hgetter : getterOf as name = getterOf bs name)
    (hsetter : setterOf as name = setterOf bs name) :
    accessorOf as name = accessorOf bs name := by
  have hsome : (accessorOf as name).isSome = (accessorOf bs name).isSome := by
    rw [isSome_accessorOf, isSome_accessorOf, hnames]
  rw [getterOf, getterOf] at hgetter
  rw [setterOf, setterOf] at hsetter
  cases ha : accessorOf as name with
  | none =>
    rw [ha] at hsome
    exact (Option.isNone_iff_eq_none.1 (by simpa using hsome)).symm
  | some a =>
    cases hb : accessorOf bs name with
    | none => simp [ha, hb] at hsome
    | some b =>
      rw [ha, hb] at hgetter hsetter
      have hname : a.name = b.name := (name_of_accessorOf ha).trans (name_of_accessorOf hb).symm
      cases a
      cases b
      simp_all

end ScriptSetup.Component
