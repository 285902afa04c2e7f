/-!
# Computations that can fail

How a computation comes apart into its steps, when it succeeds and when it fails. A fold whose
steps fail on what they are given, and not on what they have gathered, fails at the first thing
that makes a step fail.
-/

set_option autoImplicit false

namespace ScriptSetup

variable {ε ε' α β : Type}

variable {x : Except ε α}

/-- A sequence succeeds when its first part does and then the rest. -/
theorem bind_eq_ok {f : α → Except ε β} {b : β} :
    x >>= f = .ok b ↔ ∃ a, x = .ok a ∧ f a = .ok b := by
  cases x with
  | error e =>
    constructor
    · intro h
      cases h
    · rintro ⟨a, ha, -⟩
      cases ha
  | ok a =>
    constructor
    · intro h
      exact ⟨a, rfl, h⟩
    · rintro ⟨a', ha, h⟩
      cases ha
      exact h

@[simp] theorem mapError_ok (a : α) (f : ε → ε') : (Except.ok a).mapError f = .ok a := rfl

@[simp] theorem mapError_error (e : ε) (f : ε → ε') :
    (.error e : Except ε α).mapError f = .error (f e) := rfl

theorem mapError_eq_ok {f : ε → ε'} {a : α} : x.mapError f = .ok a ↔ x = .ok a := by
  cases x with
  | error e =>
    constructor <;> rintro ⟨⟩
  | ok b =>
    constructor
    · intro h
      exact congrArg Except.ok (Except.ok.inj h)
    · rintro ⟨⟩
      rfl

/-- A sequence fails when its first part does, or else the rest. -/
theorem bind_eq_error {f : α → Except ε β} {e : ε} :
    x >>= f = .error e ↔ x = .error e ∨ ∃ a, x = .ok a ∧ f a = .error e := by
  cases x with
  | error e' =>
    constructor
    · intro h
      exact .inl (congrArg Except.error (Except.error.inj h))
    · rintro (h | ⟨a, ha, -⟩)
      · exact congrArg Except.error (Except.error.inj h)
      · cases ha
  | ok a =>
    constructor
    · intro h
      exact .inr ⟨a, rfl, h⟩
    · rintro (h | ⟨a', ha, h⟩)
      · cases h
      · cases ha
        exact h

theorem mapError_eq_error {f : ε → ε'} {e' : ε'} :
    x.mapError f = .error e' ↔ ∃ e, x = .error e ∧ f e = e' := by
  cases x with
  | error e =>
    constructor
    · intro h
      exact ⟨e, rfl, Except.error.inj h⟩
    · rintro ⟨e, ⟨⟩, rfl⟩
      rfl
  | ok b =>
    constructor
    · rintro ⟨⟩
    · rintro ⟨e, ⟨⟩, -⟩

theorem eq_ok_of_toOption {a : α} (h : x.toOption = some a) : x = .ok a := by
  cases x with
  | error e => cases h
  | ok b => exact congrArg Except.ok (Option.some.inj h)

/-- A test that the result passes shows that there is one. -/
theorem exists_ok_of_any {p : α → Bool} (h : x.toOption.any p = true) :
    ∃ a, x = .ok a ∧ p a = true := by
  cases x with
  | error e => cases h
  | ok a => exact ⟨a, rfl, h⟩

/-- The characters of a text that is put together from literals. -/
theorem toList_append_ofList {text : String} {cs cs' : List Char} (h : text.toList = cs) :
    (text ++ String.ofList cs').toList = cs ++ cs' := by
  rw [String.toList_append, h, String.toList_ofList]

/-! ## The first failure -/

/-- The first thing in the list that can go wrong goes wrong like this. -/
def IsFirst (Fails : α → ε → Prop) (as : List α) (e : ε) : Prop :=
  ∃ before a after, as = before ++ a :: after ∧ (∀ b ∈ before, ∀ e', ¬ Fails b e') ∧ Fails a e

section

variable {Fails : α → ε → Prop} {e : ε}

theorem not_isFirst_nil : ¬ IsFirst Fails [] e := by
  rintro ⟨before, a, after, h, -⟩
  cases before <;> cases h

theorem isFirst_append {as bs : List α} :
    IsFirst Fails (as ++ bs) e ↔
      IsFirst Fails as e ∨ (∀ a ∈ as, ∀ e', ¬ Fails a e') ∧ IsFirst Fails bs e := by
  constructor
  · rintro ⟨before, a, after, h, hbefore, ha⟩
    rcases List.append_eq_append_iff.1 h with ⟨middle, rfl, hbs⟩ | ⟨middle, rfl, hafter⟩
    · refine .inr ⟨fun b hb => hbefore b (List.mem_append_left _ hb), middle, a, after, hbs, ?_, ha⟩
      exact fun b hb => hbefore b (List.mem_append_right _ hb)
    · cases middle with
      | nil => exact .inr ⟨fun b hb => hbefore b (by simpa using hb), [], a, after,
          hafter.symm, fun _ => nofun, ha⟩
      | cons a' middle =>
        cases hafter
        exact .inl ⟨before, a, middle, rfl, hbefore, ha⟩
  · rintro (⟨before, a, after, rfl, hbefore, ha⟩ | ⟨has, before, a, after, rfl, hbefore, ha⟩)
    · exact ⟨before, a, after ++ bs, List.append_assoc before (a :: after) bs, hbefore, ha⟩
    · refine ⟨as ++ before, a, after, (List.append_assoc ..).symm, fun b hb => ?_, ha⟩
      rcases List.mem_append.1 hb with hb | hb
      · exact has b hb
      · exact hbefore b hb

theorem isFirst_singleton {a : α} : IsFirst Fails [a] e ↔ Fails a e := by
  constructor
  · rintro ⟨before, a', after, h, -, ha⟩
    cases before with
    | nil =>
      cases h
      exact ha
    | cons b before => cases before <;> cases h
  · exact fun ha => ⟨[], a, [], rfl, fun _ => nofun, ha⟩

theorem isFirst_cons {a : α} {as : List α} :
    IsFirst Fails (a :: as) e ↔
      Fails a e ∨ (∀ e', ¬ Fails a e') ∧ IsFirst Fails as e := by
  rw [← List.singleton_append, isFirst_append, isFirst_singleton, List.forall_mem_singleton]

/-- Something goes wrong first where anything can go wrong. -/
theorem exists_isFirst {as : List α} :
    (∃ e, IsFirst Fails as e) ↔ ∃ a ∈ as, ∃ e, Fails a e := by
  induction as with
  | nil =>
    constructor
    · rintro ⟨e, h⟩
      exact (not_isFirst_nil h).elim
    · rintro ⟨a, ha, -⟩
      cases ha
  | cons a as ih =>
    simp only [isFirst_cons, exists_or, exists_and_left, ih, List.mem_cons, or_and_right,
      exists_eq_left]
    constructor
    · exact Or.imp_right And.right
    · intro h
      by_cases ha : ∃ e, Fails a e
      · exact .inl ha
      · exact .inr ⟨not_exists.1 ha, h.resolve_left ha⟩

theorem isFirst_flatMap {parts : β → List α} {bs : List β} :
    IsFirst Fails (bs.flatMap parts) e ↔ IsFirst (fun b => IsFirst Fails (parts b)) bs e := by
  induction bs with
  | nil => exact iff_of_false not_isFirst_nil not_isFirst_nil
  | cons b bs ih =>
    have hnone : (∀ a ∈ parts b, ∀ e', ¬ Fails a e') ↔ ∀ e', ¬ IsFirst Fails (parts b) e' := by
      rw [← not_exists, exists_isFirst]
      simp only [not_exists, not_and]
    rw [List.flatMap_cons, isFirst_append, isFirst_cons, ih, hnone]

/-- A fold fails at the first thing that its steps fail on. -/
theorem foldlM_eq_error {σ : Type} {step : σ → α → Except ε σ}
    (h : ∀ s a e, step s a = .error e ↔ Fails a e) (as : List α) (s : σ) :
    as.foldlM step s = .error e ↔ IsFirst Fails as e := by
  induction as generalizing s with
  | nil => exact iff_of_false nofun not_isFirst_nil
  | cons a as ih =>
    rw [List.foldlM_cons, bind_eq_error, isFirst_cons, h]
    refine or_congr_right ⟨?_, ?_⟩
    · rintro ⟨s', hs', hrest⟩
      refine ⟨fun e' hfails => ?_, (ih s').1 hrest⟩
      cases hs'.symm.trans ((h s a e').2 hfails)
    · rintro ⟨hnone, hrest⟩
      cases hs' : step s a with
      | error e' => exact (hnone e' ((h s a e').1 hs')).elim
      | ok s' => exact ⟨s', rfl, (ih s').2 hrest⟩

end

end ScriptSetup
