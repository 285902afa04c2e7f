import Mathlib.Data.List.Induction
import ScriptSetup.Proofs.Block.Locality

/-!
# The grammar of opening tags

An opening tag is a name, any number of attributes, and `>` or `/>`. An attribute is a name, or a
name with `=` and a value. `TagOutcome` is what this grammar says about the tokens behind a `<`: the
attributes of the tag, or where the tokens stop to be the start of any tag.

Reading keeps less in mind than the grammar: it knows the last attribute and whether `=` was read
after it, but not whether that attribute has a value already. `grammarStep` is the step with this
one check added. A run of such steps is a start of a tag, so reading meets the grammar exactly when
no `=` stands behind a value.
-/

set_option autoImplicit false

namespace ScriptSetup.Block

open Text

/-! ## The grammar -/

/-- The value that a token stands for: a name, or what two quotes enclose. -/
inductive TagToken.HasValue : TagToken → String → Prop where
  | name (span : Span) (text : List Char) :
    HasValue ⟨.name, span, text⟩ (String.ofList text)
  | doubleQuoted (span : Span) (value : List Char) :
    HasValue ⟨.doubleQuoted, span, '"' :: value ++ ['"']⟩ (String.ofList value)
  | singleQuoted (span : Span) (value : List Char) :
    HasValue ⟨.singleQuoted, span, '\'' :: value ++ ['\'']⟩ (String.ofList value)

/-- The tokens of an attribute, which spans from its name to the end of its value. -/
inductive IsAttribute : List TagToken → Attribute → Prop where
  | bare {n : TagToken} (hn : n.kind = .name) :
    IsAttribute [n] ⟨String.ofList n.text, .bare, n.span⟩
  | valued {n e v : TagToken} {value : String} (hn : n.kind = .name) (he : e.kind = .equals)
      (hv : v.HasValue value) :
    IsAttribute [n, e, v] ⟨String.ofList n.text, .text value, ⟨n.span.start, v.span.stop⟩⟩

/-- The tokens of attributes in a row. -/
inductive AreAttributes : List TagToken → List Attribute → Prop where
  | nil : AreAttributes [] []
  | snoc {ts own : List TagToken} {as : List Attribute} {a : Attribute}
      (has : AreAttributes ts as) (ha : IsAttribute own a) : AreAttributes (ts ++ own) (as ++ [a])

/-- The tokens of a tag with this name and these attributes, from the name to the closing one. -/
inductive IsTag : List TagToken → String → List Attribute → TagToken → Prop where
  | mk {n close : TagToken} {ts : List TagToken} {as : List Attribute} (hn : n.kind = .name)
      (has : AreAttributes ts as) (hclose : close.kind = .close ∨ close.kind = .selfClose) :
    IsTag (n :: (ts ++ [close])) (String.ofList n.text) as close

/-- Some tag starts with these tokens and goes on with this one. -/
def CanFollow (ts : List TagToken) (t : TagToken) : Prop :=
  ∃ more name as close, IsTag (ts ++ t :: more) name as close

/-- What an opening tag says. -/
structure Opening where
  name : String
  attributes : List Attribute
  /-- the offset behind the tag -/
  stop : Nat
  selfClosing : Bool
  deriving DecidableEq, Repr

/-- What the grammar says about the tokens behind the `<` at `start`. -/
inductive TagOutcome (start : Nat) (tokens : List TagToken) : Except BlockError Opening → Prop where
  /-- a tag comes first -/
  | accepted {ts rest : List TagToken} {name : String} {as : List Attribute} {close : TagToken}
      (htokens : tokens = ts ++ rest) (htag : IsTag ts name as close) :
    TagOutcome start tokens (.ok ⟨name, as, close.span.stop, close.kind == .selfClose⟩)
  /-- the tokens run out in the middle of a tag -/
  | unterminated {n eof t : TagToken} {ts : List TagToken} (htokens : tokens = n :: (ts ++ [eof]))
      (heof : eof.kind = .eof) (hstarts : CanFollow (n :: ts) t) :
    TagOutcome start tokens
      (.error ⟨.unterminatedTag (String.ofList n.text), .ofOffsets start eof.span.stop⟩)
  /-- a token is the first that cannot stand where it does -/
  | invalid {n offending t : TagToken} {ts rest : List TagToken}
      (htokens : tokens = n :: (ts ++ offending :: rest)) (hkind : offending.kind ≠ .eof)
      (hstarts : CanFollow (n :: ts) t) (hoffends : ¬ CanFollow (n :: ts) offending) :
    TagOutcome start tokens
      (.error ⟨.invalidAttribute offending.found (String.ofList n.text), offending.span⟩)

/-- An `=` stands right behind an attribute that has a value. -/
def RepeatsValue (tokens : List TagToken) : Prop :=
  ∃ n ts e rest as a, tokens = n :: (ts ++ e :: rest) ∧ e.kind = .equals ∧
    AreAttributes ts (as ++ [a]) ∧ a.value ≠ .bare

/-! ## One step -/

theorem TagToken.HasValue.value_eq {t : TagToken} {value : String} (h : t.HasValue value) :
    t.value = value := by
  cases h with
  | name => rfl
  | doubleQuoted | singleQuoted => simp [TagToken.value, TagTokenKind.isQuoted]

theorem TagToken.HasValue.kind {t : TagToken} {value : String} (h : t.HasValue value) :
    t.kind = .name ∨ t.kind = .doubleQuoted ∨ t.kind = .singleQuoted := by
  cases h with
  | name => exact Or.inl rfl
  | doubleQuoted => exact Or.inr (Or.inl rfl)
  | singleQuoted => exact Or.inr (Or.inr rfl)

theorem TagToken.WellFormed.hasValue {t : TagToken} (ht : t.WellFormed)
    (hkind : t.kind = .name ∨ t.kind = .doubleQuoted ∨ t.kind = .singleQuoted) :
    t.HasValue t.value := by
  obtain ⟨kind, span, text⟩ := t
  rcases hkind with rfl | rfl | rfl
  · exact .name span text
  · obtain ⟨body, rfl, -⟩ := ht
    have h := HasValue.doubleQuoted span body
    rwa [← h.value_eq] at h
  · obtain ⟨body, rfl, -⟩ := ht
    have h := HasValue.singleQuoted span body
    rwa [← h.value_eq] at h

/-- What reading knows in the middle of a tag: the attributes, the last one first, and whether
`=` was read after the last one. -/
abbrev TagState := List Attribute × Bool

/-- The last attribute has a value. -/
def TagState.valued (s : TagState) : Bool :=
  s.1.head?.any (·.value != .bare)

/-- What a token in the middle of a tag does by the grammar. -/
def grammarStep (s : TagState) (t : TagToken) : Option TagState :=
  if t.kind = .equals ∧ s.valued then none else tagStep t s.1 s.2

theorem grammarStep_name {t : TagToken} (ht : t.kind = .name) (as : List Attribute) :
    grammarStep (as, false) t = some (⟨String.ofList t.text, .bare, t.span⟩ :: as, false) := by
  simp [grammarStep, tagStep, ht]

theorem grammarStep_equals {t : TagToken} (ht : t.kind = .equals) {a : Attribute}
    (ha : a.value = .bare) (as : List Attribute) :
    grammarStep (a :: as, false) t = some (a :: as, true) := by
  simp [grammarStep, tagStep, ht, TagState.valued, ha]

theorem grammarStep_value {t : TagToken}
    (ht : t.kind = .name ∨ t.kind = .doubleQuoted ∨ t.kind = .singleQuoted)
    (as : List Attribute) : grammarStep (as, true) t = some (giveValue t as, false) := by
  rcases ht with ht | ht | ht <;> simp [grammarStep, tagStep, ht]

theorem grammarStep_closing {t : TagToken} (h : t.kind = .close ∨ t.kind = .selfClose)
    (s : TagState) : grammarStep s t = none := by
  obtain ⟨as, pending⟩ := s
  rcases h with h | h <;> cases pending <;> simp [grammarStep, tagStep, h]

theorem grammarStep_eof {t : TagToken} (h : t.kind = .eof) (s : TagState) :
    grammarStep s t = none := by
  obtain ⟨as, pending⟩ := s
  cases pending <;> simp [grammarStep, tagStep, h]

/-- The three steps of the grammar. -/
theorem grammarStep_eq_some {s s' : TagState} {t : TagToken} (h : grammarStep s t = some s') :
    (s.2 = false ∧ t.kind = .name ∧
        s' = (⟨String.ofList t.text, .bare, t.span⟩ :: s.1, false)) ∨
      (s.2 = false ∧ t.kind = .equals ∧ s' = (s.1, true) ∧
        ∃ a as, s.1 = a :: as ∧ a.value = .bare) ∨
      (s.2 = true ∧ (t.kind = .name ∨ t.kind = .doubleQuoted ∨ t.kind = .singleQuoted) ∧
        s' = (giveValue t s.1, false)) := by
  obtain ⟨as, pending⟩ := s
  rw [grammarStep] at h
  split at h
  · cases h
  · rename_i hguard
    cases pending with
    | true =>
      have hkind : t.kind = .name ∨ t.kind = .doubleQuoted ∨ t.kind = .singleQuoted := by
        cases hkind : t.kind <;> simp [tagStep, hkind] at h ⊢
      refine Or.inr (Or.inr ⟨rfl, hkind, ?_⟩)
      rcases hkind with hkind | hkind | hkind <;> simpa [tagStep, hkind] using h.symm
    | false =>
      cases hkind : t.kind with
      | name => exact Or.inl ⟨rfl, rfl, by simpa [tagStep, hkind] using h.symm⟩
      | equals =>
        refine Or.inr (Or.inl ⟨rfl, rfl, ?_⟩)
        cases as with
        | nil => simp [tagStep, hkind] at h
        | cons a as =>
          refine ⟨by simpa [tagStep, hkind] using h.symm, a, as, rfl, ?_⟩
          simpa [hkind, TagState.valued] using hguard
      | _ => simp [tagStep, hkind] at h

/-- By the grammar a token stops the tag when it does so in reading, or is a second `=`. -/
theorem tagStep_of_grammarStep_eq_none {s : TagState} {t : TagToken}
    (h : grammarStep s t = none) :
    tagStep t s.1 s.2 = none ∨ (t.kind = .equals ∧ s.valued = true) := by
  rw [grammarStep] at h
  split at h
  · rename_i hguard
    exact Or.inr hguard
  · exact Or.inl h

theorem tagStep_of_grammarStep_eq_some {s s' : TagState} {t : TagToken}
    (h : grammarStep s t = some s') : tagStep t s.1 s.2 = some s' := by
  rw [grammarStep] at h
  split at h
  · cases h
  · exact h

/-! ## Runs -/

/-- The tokens in a row. -/
def grammarRun (s : TagState) (ts : List TagToken) : Option TagState :=
  ts.foldlM grammarStep s

theorem grammarRun_append (s : TagState) (ts us : List TagToken) :
    grammarRun s (ts ++ us) = (grammarRun s ts).bind fun s' => grammarRun s' us :=
  List.foldlM_append

theorem grammarRun_cons (s : TagState) (t : TagToken) (ts : List TagToken) :
    grammarRun s (t :: ts) = (grammarStep s t).bind fun s' => grammarRun s' ts :=
  List.foldlM_cons

/-- The start of a run is a run. -/
theorem grammarRun_of_append {s s' : TagState} {ts us : List TagToken}
    (h : grammarRun s (ts ++ us) = some s') : ∃ mid, grammarRun s ts = some mid := by
  rw [grammarRun_append] at h
  obtain ⟨mid, hmid, -⟩ := Option.bind_eq_some_iff.1 h
  exact ⟨mid, hmid⟩

theorem grammarRun_attribute {own : List TagToken} {a : Attribute} (h : IsAttribute own a)
    (as : List Attribute) : grammarRun (as, false) own = some (a :: as, false) := by
  cases h with
  | bare hn =>
    rw [grammarRun_cons, grammarStep_name hn]
    rfl
  | valued hn he hv =>
    rw [grammarRun_cons, grammarStep_name hn, Option.bind_some, grammarRun_cons,
      grammarStep_equals he rfl, Option.bind_some, grammarRun_cons, grammarStep_value hv.kind,
      giveValue, hv.value_eq]
    rfl

/-- Attributes run through, and are what is known then. -/
theorem grammarRun_attributes {ts : List TagToken} {as : List Attribute}
    (h : AreAttributes ts as) : grammarRun ([], false) ts = some (as.reverse, false) := by
  induction h with
  | nil => rfl
  | snoc _ ha ih =>
    rw [grammarRun_append, ih, Option.bind_some, grammarRun_attribute ha, List.reverse_append]
    rfl

/-- What the tokens of a run are, from what is known behind them. -/
def Understood (ts : List TagToken) : TagState → Prop
  | (as, false) => AreAttributes ts as.reverse
  | (as, true) => ∃ front n e earlier, ts = front ++ [n, e] ∧ n.kind = .name ∧
    e.kind = .equals ∧ AreAttributes front earlier.reverse ∧
    as = ⟨String.ofList n.text, .bare, n.span⟩ :: earlier

theorem AreAttributes.eq_snoc {ts : List TagToken} {as : List Attribute} {a : Attribute}
    (h : AreAttributes ts (as ++ [a])) :
    ∃ front own, ts = front ++ own ∧ AreAttributes front as ∧ IsAttribute own a := by
  generalize hall : as ++ [a] = all at h
  cases h with
  | nil => simp at hall
  | @snoc front own as' a' has ha =>
    obtain ⟨rfl, hlast⟩ := List.append_inj' hall rfl
    cases hlast
    exact ⟨front, own, rfl, has, ha⟩

theorem Understood.step {ts : List TagToken} {s s' : TagState} {t : TagToken}
    (h : Understood ts s) (ht : t.WellFormed) (hstep : grammarStep s t = some s') :
    Understood (ts ++ [t]) s' := by
  obtain ⟨as, pending⟩ := s
  rcases grammarStep_eq_some hstep with ⟨rfl, hkind, rfl⟩ | ⟨rfl, hkind, rfl, a, earlier, rfl, ha⟩ |
    ⟨rfl, hkind, rfl⟩
  · rw [Understood, List.reverse_cons]
    exact .snoc h (.bare hkind)
  · -- the attribute is bare, so its name is the token before
    rw [Understood, List.reverse_cons] at h
    obtain ⟨front, own, rfl, hfront, hown⟩ := h.eq_snoc
    cases hown with
    | @bare n hn => exact ⟨front, n, t, earlier, by simp, hn, hkind, hfront, rfl⟩
    | valued => cases ha
  · obtain ⟨front, n, e, earlier, rfl, hn, he, hfront, rfl⟩ := h
    rw [giveValue, Understood, List.reverse_cons, List.append_assoc]
    exact .snoc hfront (.valued hn he (ht.hasValue hkind))

theorem understood_of_grammarRun {ts : List TagToken} {s : TagState}
    (hts : ∀ t ∈ ts, t.WellFormed) (h : grammarRun ([], false) ts = some s) :
    Understood ts s := by
  -- a run grows at its end
  induction ts using List.reverseRecOn generalizing s with
  | nil =>
    cases h
    exact .nil
  | append_singleton ts t ih =>
    rw [grammarRun_append] at h
    obtain ⟨mid, hmid, h⟩ := Option.bind_eq_some_iff.1 h
    rw [grammarRun_cons] at h
    obtain ⟨s', hstep, h⟩ := Option.bind_eq_some_iff.1 h
    cases h
    have hmid := ih (fun t ht => hts t (List.mem_append_left _ ht)) hmid
    exact hmid.step (hts t (by simp)) hstep

/-! ## Starts of tags -/

/-- A tag ends at its closing token, and all before it is a run. -/
theorem IsTag.cases_append {n : TagToken} {ts more : List TagToken} {t : TagToken} {name : String}
    {as : List Attribute} {close : TagToken} (h : IsTag (n :: ts ++ t :: more) name as close) :
    n.kind = .name ∧ name = String.ofList n.text ∧
      ((t = close ∧ more = [] ∧ (t.kind = .close ∨ t.kind = .selfClose) ∧ AreAttributes ts as) ∨
        ∃ s, grammarRun ([], false) (ts ++ [t]) = some s) := by
  generalize htag : n :: ts ++ t :: more = tag at h
  cases h with
  | @mk n' _ ts' _ hn has hclose =>
    obtain ⟨rfl, htail⟩ := List.cons.inj htag
    refine ⟨hn, rfl, ?_⟩
    rcases List.eq_nil_or_concat more with rfl | ⟨more', last, rfl⟩
    · obtain ⟨rfl, hlast⟩ := List.append_inj' htail rfl
      cases hlast
      exact Or.inl ⟨rfl, rfl, hclose, has⟩
    · have hsplit : (ts ++ [t] ++ more') ++ [last] = ts' ++ [close] := by
        rw [← htail, List.concat_eq_append]
        simp
      obtain ⟨hts', -⟩ := List.append_inj' hsplit rfl
      have hrun := grammarRun_attributes has
      rw [← hts'] at hrun
      exact Or.inr (grammarRun_of_append hrun)

/-- What a tag starts with is a run. -/
theorem exists_grammarRun_of_canFollow {n t : TagToken} {ts : List TagToken}
    (h : CanFollow (n :: ts) t) : n.kind = .name ∧ ∃ s, grammarRun ([], false) ts = some s := by
  obtain ⟨more, name, as, close, htag⟩ := h
  obtain ⟨hn, -, ⟨-, -, -, has⟩ | ⟨s, hrun⟩⟩ := htag.cases_append
  · exact ⟨hn, _, grammarRun_attributes has⟩
  · exact ⟨hn, grammarRun_of_append hrun⟩

section

variable {n t : TagToken} {ts : List TagToken} {s : TagState}

/-- Every run is the start of a tag. -/
theorem exists_canFollow_of_grammarRun (hn : n.kind = .name) (hts : ∀ t ∈ ts, t.WellFormed)
    (hrun : grammarRun ([], false) ts = some s) : ∃ t, CanFollow (n :: ts) t := by
  have hunderstood := understood_of_grammarRun hts hrun
  let close : TagToken := ⟨.close, default, ['>']⟩
  have hclose : close.kind = .close ∨ close.kind = .selfClose := Or.inl rfl
  obtain ⟨as, pending⟩ := s
  cases pending with
  | false => exact ⟨close, [], _, _, close, .mk hn hunderstood hclose⟩
  | true =>
    obtain ⟨front, m, e, earlier, rfl, hm, he, hfront, -⟩ := hunderstood
    let value : TagToken := ⟨.name, default, ['x']⟩
    have hattributes := AreAttributes.snoc hfront (.valued hm he (.name default ['x']))
    have htag := IsTag.mk hn hattributes hclose
    have hsplit : n :: (front ++ [m, e]) ++ value :: [close] =
        n :: (front ++ [m, e, value] ++ [close]) := by simp
    exact ⟨value, [close], _, _, close, hsplit ▸ htag⟩

/-- A token can follow a run when the run goes on with it, or when it closes the tag and no value
is missing. -/
theorem canFollow_iff (hn : n.kind = .name) (hts : ∀ t ∈ ts, t.WellFormed) (ht : t.WellFormed)
    (hrun : grammarRun ([], false) ts = some s) :
    CanFollow (n :: ts) t ↔ grammarStep s t ≠ none ∨
      (s.2 = false ∧ (t.kind = .close ∨ t.kind = .selfClose)) := by
  have hstep : grammarRun ([], false) (ts ++ [t]) = grammarStep s t := by
    rw [grammarRun_append, hrun, Option.bind_some, grammarRun_cons]
    exact Option.bind_fun_some _
  constructor
  · rintro ⟨more, name, as, close, htag⟩
    obtain ⟨-, -, ⟨-, -, hclose, has⟩ | ⟨s', hrun'⟩⟩ := htag.cases_append
    · rw [grammarRun_attributes has] at hrun
      cases hrun
      exact Or.inr ⟨rfl, hclose⟩
    · exact Or.inl (by simp [← hstep, hrun'])
  · rintro (hgoes | ⟨hvalue, hclose⟩)
    · obtain ⟨s', hs'⟩ := Option.ne_none_iff_exists'.1 hgoes
      have hall : ∀ u ∈ ts ++ [t], u.WellFormed := by
        simpa [or_imp, forall_and] using ⟨hts, ht⟩
      obtain ⟨u, more, name, as, close, htag⟩ :=
        exists_canFollow_of_grammarRun hn hall (hstep.trans hs')
      refine ⟨u :: more, name, as, close, ?_⟩
      simpa using htag
    · obtain ⟨as, pending⟩ := s
      cases hvalue
      exact ⟨[], _, _, t, .mk hn (understood_of_grammarRun hts hrun) hclose⟩

end

/-! ## Where the grammar stops -/

/-- Every list of tokens that ends in the end of the text stops a run somewhere. -/
theorem exists_stop (s : TagState) {tokens : List TagToken} {eof : TagToken}
    (heof : eof.kind = .eof) (hlast : tokens.getLast? = some eof) :
    ∃ ts t rest s', tokens = ts ++ t :: rest ∧ grammarRun s ts = some s' ∧
      grammarStep s' t = none := by
  induction tokens generalizing s with
  | nil => cases hlast
  | cons t tokens ih =>
    cases hstep : grammarStep s t with
    | none => exact ⟨[], t, tokens, s, rfl, rfl, hstep⟩
    | some s' =>
      cases tokens with
      | nil =>
        cases hlast
        cases (grammarStep_eof heof s).symm.trans hstep
      | cons u tokens =>
        rw [List.getLast?_cons_cons] at hlast
        obtain ⟨ts, v, rest, s'', htokens, hrun, hstop⟩ := ih s' hlast
        refine ⟨t :: ts, v, rest, s'', by rw [htokens]; rfl, ?_, hstop⟩
        rw [grammarRun_cons, hstep]
        exact hrun

/-- There is one place only where a run stops. -/
theorem stop_unique {s s₁ s₂ : TagState} {ts us : List TagToken} {t u : TagToken}
    {rest rest' : List TagToken} (heq : ts ++ t :: rest = us ++ u :: rest')
    (hts : grammarRun s ts = some s₁) (ht : grammarStep s₁ t = none)
    (hus : grammarRun s us = some s₂) (hu : grammarStep s₂ u = none) :
    ts = us ∧ t = u ∧ rest = rest' ∧ s₁ = s₂ := by
  induction ts generalizing s us with
  | nil =>
    cases hts
    cases us with
    | nil =>
      cases hus
      obtain ⟨rfl, rfl⟩ := List.cons.inj heq
      exact ⟨rfl, rfl, rfl, rfl⟩
    | cons v us =>
      obtain ⟨rfl, -⟩ := List.cons.inj heq
      rw [grammarRun_cons, ht] at hus
      cases hus
  | cons w ts ih =>
    rw [grammarRun_cons] at hts
    obtain ⟨s', hw, hts⟩ := Option.bind_eq_some_iff.1 hts
    cases us with
    | nil =>
      cases hus
      obtain ⟨rfl, -⟩ := List.cons.inj heq
      cases hw.symm.trans hu
    | cons v us =>
      obtain ⟨rfl, htail⟩ := List.cons.inj heq
      rw [grammarRun_cons, hw] at hus
      obtain ⟨rfl, rfl, rfl, rfl⟩ := ih htail hts hus
      exact ⟨rfl, rfl, rfl, rfl⟩

/-- The tag as reading gives it. -/
def Header.opening (name : String) (h : Header) : Opening :=
  ⟨name, h.attributes, h.stop, h.selfClosing⟩

section

variable {start : Nat} {name : String} {t : TagToken}

/-- A closing token ends the tag when no value is missing. -/
theorem opening_tagEnd_closing (h : t.kind = .close ∨ t.kind = .selfClose)
    (as : List Attribute) : (tagEnd start name as false t).map (Header.opening name) =
      .ok ⟨name, as.reverse, t.span.stop, t.kind == .selfClose⟩ := by
  rcases h with h | h
  · simp [tagEnd, h, Except.map, Header.opening]
  · simp [tagEnd, h, Except.map, Header.opening]

/-- The end of the text leaves the tag open. -/
theorem opening_tagEnd_eof (h : t.kind = .eof) (s : TagState) :
    (tagEnd start name s.1 s.2 t).map (Header.opening name) =
      .error ⟨.unterminatedTag name, .ofOffsets start t.span.stop⟩ := by
  obtain ⟨as, pending⟩ := s
  cases pending <;> simp [tagEnd, h, Except.map]

/-- Every other token is reported. -/
theorem opening_tagEnd_invalid {s : TagState} (heof : t.kind ≠ .eof)
    (hclose : ¬(s.2 = false ∧ (t.kind = .close ∨ t.kind = .selfClose))) :
    (tagEnd start name s.1 s.2 t).map (Header.opening name) =
      .error ⟨.invalidAttribute t.found name, t.span⟩ := by
  obtain ⟨as, pending⟩ := s
  cases pending <;> cases hkind : t.kind <;> simp_all [tagEnd, Except.map]

end

/-- The tokens stop being a tag at `t`, behind the name `n` and the run `ts`. -/
structure StopsAt (tokens : List TagToken) (n : TagToken) (ts : List TagToken) (s : TagState)
    (t : TagToken) (rest : List TagToken) : Prop where
  tokens_eq : tokens = n :: (ts ++ t :: rest)
  name : n.kind = .name
  run : grammarRun ([], false) ts = some s
  stop : grammarStep s t = none

namespace StopsAt

variable {start : Nat} {tokens ts rest : List TagToken} {n t : TagToken} {s : TagState}

/-- Tokens stop being a tag at one place. -/
theorem unique {ts' rest' : List TagToken} {n' t' : TagToken} {s' : TagState}
    (h : StopsAt tokens n ts s t rest) (h' : StopsAt tokens n' ts' s' t' rest') :
    n = n' ∧ ts = ts' ∧ s = s' ∧ t = t' ∧ rest = rest' := by
  obtain ⟨rfl, htail⟩ := List.cons.inj (h.tokens_eq.symm.trans h'.tokens_eq)
  obtain ⟨rfl, rfl, rfl, rfl⟩ := stop_unique htail h.run h.stop h'.run h'.stop
  exact ⟨rfl, rfl, rfl, rfl, rfl⟩

/-- The grammar's answer is the one at the token where the run stops. -/
theorem outcome (h : StopsAt tokens n ts s t rest) (htokens : ∀ u ∈ tokens, u.WellFormed)
    (heof : t.kind = .eof → rest = []) :
    TagOutcome start tokens ((tagEnd start (String.ofList n.text) s.1 s.2 t).map
      (Header.opening (String.ofList n.text))) := by
  obtain ⟨htokens_eq, hn, hrun, hstop⟩ := h
  have hts : ∀ u ∈ ts, u.WellFormed := fun u hu => htokens u (by simp [htokens_eq, hu])
  have ht : t.WellFormed := htokens t (by simp [htokens_eq])
  obtain ⟨u, hstarts⟩ := exists_canFollow_of_grammarRun hn hts hrun
  have hfollow := canFollow_iff hn hts ht hrun
  by_cases hclose : s.2 = false ∧ (t.kind = .close ∨ t.kind = .selfClose)
  · obtain ⟨as, pending⟩ := s
    obtain ⟨rfl, hclose⟩ := hclose
    rw [opening_tagEnd_closing hclose]
    have hsplit : tokens = (n :: (ts ++ [t])) ++ rest := by simp [htokens_eq]
    exact .accepted hsplit (.mk hn (understood_of_grammarRun hts hrun) hclose)
  · by_cases hkind : t.kind = .eof
    · rw [opening_tagEnd_eof hkind]
      exact .unterminated (by rw [htokens_eq, heof hkind]) hkind hstarts
    · rw [opening_tagEnd_invalid hkind hclose]
      refine .invalid htokens_eq hkind hstarts fun hcan => ?_
      rcases hfollow.1 hcan with hgoes | hcloses
      · exact hgoes hstop
      · exact hclose hcloses

/-- The grammar has one answer. -/
theorem outcome_unique (h : StopsAt tokens n ts s t rest) (htokens : ∀ u ∈ tokens, u.WellFormed)
    {answer : Except BlockError Opening} (ho : TagOutcome start tokens answer) :
    answer = (tagEnd start (String.ofList n.text) s.1 s.2 t).map
      (Header.opening (String.ofList n.text)) := by
  cases ho with
  | @accepted used rest' name as close hused htag =>
    cases htag with
    | @mk n' _ us _ hn' has hclose =>
      have h' : StopsAt tokens n' us (as.reverse, false) close rest' :=
        ⟨by simp [hused], hn', grammarRun_attributes has, grammarStep_closing hclose _⟩
      obtain ⟨rfl, rfl, rfl, rfl, rfl⟩ := h.unique h'
      rw [opening_tagEnd_closing hclose, List.reverse_reverse]
  | @unterminated n' eof u us hused heof hstarts =>
    obtain ⟨hn', s', hrun'⟩ := exists_grammarRun_of_canFollow hstarts
    have h' : StopsAt tokens n' us s' eof [] := ⟨hused, hn', hrun', grammarStep_eof heof _⟩
    obtain ⟨rfl, rfl, rfl, rfl, rfl⟩ := h.unique h'
    rw [opening_tagEnd_eof heof]
  | @invalid n' offending u us rest' hused hkind hstarts hoffends =>
    obtain ⟨hn', s', hrun'⟩ := exists_grammarRun_of_canFollow hstarts
    have hus : ∀ v ∈ us, v.WellFormed := fun v hv => htokens v (by simp [hused, hv])
    have hoff : offending.WellFormed := htokens offending (by simp [hused])
    have hnone := (canFollow_iff hn' hus hoff hrun').not.1 hoffends
    rw [not_or, not_not] at hnone
    obtain ⟨rfl, rfl, rfl, rfl, rfl⟩ := h.unique ⟨hused, hn', hrun', hnone.1⟩
    rw [opening_tagEnd_invalid hkind hnone.2]

/-- Tokens repeat a value exactly when the run stops at an `=` that reading would take. -/
theorem repeatsValue_iff (h : StopsAt tokens n ts s t rest)
    (htokens : ∀ u ∈ tokens, u.WellFormed) :
    RepeatsValue tokens ↔ tagStep t s.1 s.2 ≠ none := by
  constructor
  · rintro ⟨n', us, e, rest', as, a, hused, he, has, ha⟩
    have hrun' := grammarRun_attributes has
    rw [List.reverse_append] at hrun'
    have hsecond : grammarStep (a :: as.reverse, false) e = none := by
      simp [grammarStep, he, TagState.valued, ha]
    obtain ⟨rfl, -⟩ := List.cons.inj (h.tokens_eq.symm.trans hused)
    obtain ⟨-, rfl, rfl, rfl, rfl⟩ := h.unique ⟨hused, h.name, hrun', hsecond⟩
    simp [tagStep, he]
  · intro hgoes
    obtain ⟨he, hvalued⟩ := (tagStep_of_grammarStep_eq_none h.stop).resolve_left hgoes
    have hts : ∀ u ∈ ts, u.WellFormed := fun u hu => htokens u (by simp [h.tokens_eq, hu])
    have hunderstood := understood_of_grammarRun hts h.run
    obtain ⟨as, pending⟩ := s
    cases pending with
    | true => simp [tagStep, he] at hgoes
    | false =>
      cases as with
      | nil => simp [TagState.valued] at hvalued
      | cons a as =>
        rw [Understood, List.reverse_cons] at hunderstood
        refine ⟨n, ts, t, rest, as.reverse, a, h.tokens_eq, he, hunderstood, ?_⟩
        simpa [TagState.valued] using hvalued

end StopsAt

/-! ## Tokens of a text -/

namespace TagToken

/-- The token and what follows it are a part of the text that starts at the offset. -/
def LiesIn (offset : Nat) (cs : List Char) (p : TagToken × List Char) : Prop :=
  ∃ passed, cs = passed ++ p.1.text ++ p.2 ∧
    p.1.span = ⟨offset + byteLength passed, offset + byteLength passed + byteLength p.1.text⟩

theorem LiesIn.prepend {offset : Nat} {cs : List Char} {p : TagToken × List Char}
    (passed : List Char) (h : LiesIn (offset + byteLength passed) cs p) :
    LiesIn offset (passed ++ cs) p := by
  obtain ⟨passed', rfl, hspan⟩ := h
  exact ⟨passed ++ passed', by simp, by simp [hspan, Nat.add_assoc]⟩

namespace Lexes

variable {offset : Nat} {cs : List Char} {ps : List (TagToken × List Char)}

/-- The end of the text is the last token and no other. -/
theorem eq_concat (h : Lexes offset cs ps) :
    ∃ front last, ps = front ++ [last] ∧ last.1.kind = .eof ∧ ∀ p ∈ front, p.1.kind ≠ .eof := by
  induction h with
  | eof offset => exact ⟨[], _, rfl, rfl, by simp⟩
  | blank _ _ ih => exact ih
  | token hstands _ ih =>
    obtain ⟨front, last, rfl, hlast, hkinds⟩ := ih
    exact ⟨_ :: front, last, rfl, hlast, List.forall_mem_cons.2 ⟨hstands.ne_eof, hkinds⟩⟩

theorem stands (h : Lexes offset cs ps) :
    ∀ p ∈ ps, p.1.kind ≠ .eof → Stands p.1.kind p.1.text p.2 := by
  induction h with
  | eof offset => exact List.forall_mem_singleton.2 fun hne => absurd rfl hne
  | blank _ _ ih => exact ih
  | token hstands _ ih => exact List.forall_mem_cons.2 ⟨fun _ => hstands, ih⟩

theorem liesIn (h : Lexes offset cs ps) (hsize : offset + byteLength cs < Span.limit) :
    ∀ p ∈ ps, LiesIn offset cs p := by
  induction h with
  | eof offset =>
    exact List.forall_mem_singleton.2 ⟨[], rfl, Span.ofOffsets_eq (Nat.le_refl _) hsize⟩
  | @blank offset c cs ps _ _ ih =>
    rw [byteLength_cons, ← Nat.add_assoc] at hsize
    exact fun p hp => (ih hsize p hp).prepend [c]
  | @token offset kind text rest ps _ _ ih =>
    rw [byteLength_append, ← Nat.add_assoc] at hsize
    refine List.forall_mem_cons.2 ⟨⟨[], rfl, ?_⟩, fun p hp => (ih hsize p hp).prepend text⟩
    exact Span.ofOffsets_eq (Nat.le_add_right _ _)
      (Nat.lt_of_le_of_lt (Nat.le_add_right _ _) hsize)

/-- Tokens follow each other. -/
theorem pairwise (h : Lexes offset cs ps) (hsize : offset + byteLength cs < Span.limit) :
    ps.Pairwise fun p q => p.1.span.stop ≤ q.1.span.start := by
  induction h with
  | eof offset => exact List.pairwise_singleton _ _
  | blank _ _ ih =>
    rw [byteLength_cons, ← Nat.add_assoc] at hsize
    exact ih hsize
  | token _ hlexes ih =>
    rw [byteLength_append, ← Nat.add_assoc] at hsize
    refine .cons (fun q hq => ?_) (ih hsize)
    obtain ⟨passed, -, hspan⟩ := hlexes.liesIn hsize q hq
    rw [hspan]
    exact Nat.le_trans (Nat.mod_le _ _) (Nat.le_add_right _ _)

/-- Only the end of the text is an empty token. -/
theorem start_lt_stop (h : Lexes offset cs ps) (hsize : offset + byteLength cs < Span.limit) :
    ∀ p ∈ ps, p.1.kind ≠ .eof → p.1.span.start < p.1.span.stop := by
  intro p hp hkind
  obtain ⟨passed, -, hspan⟩ := h.liesIn hsize p hp
  rw [hspan]
  refine Nat.lt_add_of_pos_right (Nat.pos_of_ne_zero fun hzero => ?_)
  exact (h.stands p hp hkind).ne_nil (byteLength_eq_zero hzero)

end Lexes

/-- The tokens of a text that starts with a name. -/
theorem lex_of_startsTagName {cs : List Char} (h : cs.head?.any startsTagName = true)
    (offset : Nat) :
    lex offset cs =
      ⟨.name, .ofOffsets offset (offset + byteLength (cs.takeWhile isTagNameChar)),
        cs.takeWhile isTagNameChar⟩ ::
      lex (offset + byteLength (cs.takeWhile isTagNameChar)) (cs.dropWhile isTagNameChar) := by
  have hname : Stands .name (cs.takeWhile isTagNameChar) (cs.dropWhile isTagNameChar) := by
    refine .name (fun hnil => ?_) (List.all_eq_true.1 List.all_takeWhile) (endsName_dropWhile cs)
    have hstarts := takeWhile_starts h
    rw [hnil] at hstarts
    cases hstarts
  rw [← hname.lex_eq, List.takeWhile_append_dropWhile]

end TagToken

/-! ## Reading and the grammar -/

namespace Header

variable {start : Nat} {name : String}

/-- Reading goes along with a run of the grammar. -/
theorem readFrom_of_grammarRun {s s' : TagState} {ts : List TagToken}
    (h : grammarRun s ts = some s') (more : List TagToken) :
    readFrom start name s.1 s.2 (ts ++ more) = readFrom start name s'.1 s'.2 more := by
  induction ts generalizing s with
  | nil =>
    cases h
    rfl
  | cons t ts ih =>
    rw [grammarRun_cons] at h
    obtain ⟨mid, hstep, h⟩ := Option.bind_eq_some_iff.1 h
    rw [List.cons_append, readFrom_cons, tagStep_of_grammarStep_eq_some hstep]
    exact ih h

theorem tagEnd_equals {t : TagToken} (h : t.kind = .equals) (s : TagState) :
    tagEnd start name s.1 s.2 t = .error ⟨.invalidAttribute t.found name, t.span⟩ := by
  obtain ⟨kind, span, text⟩ := t
  cases h
  rfl

/-- An invalid token is one of those that are read. -/
theorem mem_of_readFrom_eq_invalid {tokens : List TagToken}
    {attributes : List Attribute} {pending : Bool} {found other : String} {span : Span}
    (h : readFrom start name attributes pending tokens =
      .error ⟨.invalidAttribute found other, span⟩) : ∃ t ∈ tokens, t.span = span := by
  induction tokens generalizing attributes pending with
  | nil => cases h
  | cons t tokens ih =>
    rw [readFrom_cons] at h
    split at h
    · obtain ⟨u, hu, hspan⟩ := ih h
      exact ⟨u, List.mem_cons_of_mem t hu, hspan⟩
    · rcases tagEnd_eq_error h with ⟨heof, -⟩ | ⟨-, hspan⟩
      · cases pending <;> simp [tagEnd, heof] at h
      · exact ⟨t, List.mem_cons_self, hspan.symm⟩

end Header

/-- What reading says about the tag whose name starts the text, behind the `<` at `start`. -/
def readOpening (start : Nat) (cs : List Char) : Except BlockError Opening :=
  let nameChars := cs.takeWhile isTagNameChar
  let name := String.ofList nameChars
  (Header.read start name (start + 1 + byteLength nameChars) (cs.dropWhile isTagNameChar)).map
    (Header.opening name)

section

variable {cs : List Char}

/-- The tokens of a text stop being a tag at one of them, which is the last one if the text ends
there. -/
theorem exists_stopsAt (n : TagToken) (hn : n.kind = .name) (offset : Nat) (cs : List Char) :
    ∃ ts t rest s, TagToken.lex offset cs = ts ++ t :: rest ∧
      StopsAt (n :: TagToken.lex offset cs) n ts s t rest ∧ (t.kind = .eof → rest = []) := by
  obtain ⟨ps, hlexes, hlex⟩ := TagToken.exists_lexes offset cs
  obtain ⟨front, last, rfl, hlast, hkinds⟩ := hlexes.eq_concat
  have hends : (TagToken.lex offset cs).getLast? = some last.1 := by simp [hlex]
  obtain ⟨ts, t, rest, s, htokens, hrun, hstop⟩ := exists_stop ([], false) hlast hends
  refine ⟨ts, t, rest, s, htokens, ⟨by rw [htokens], hn, hrun, hstop⟩, fun heof => ?_⟩
  rcases List.eq_nil_or_concat rest with hrest | ⟨later, u, rfl⟩
  · exact hrest
  · -- another token is left, so this one is not the last
    have hsplit : (ts ++ t :: later) ++ [u] = front.map (·.1) ++ [last.1] := by
      rw [← List.map_singleton, ← List.map_append, ← hlex, htokens, List.concat_eq_append,
        List.append_assoc, List.cons_append]
    obtain ⟨hfront, -⟩ := List.append_inj' hsplit rfl
    obtain ⟨p, hp, rfl⟩ := List.mem_map.1 (show t ∈ front.map (·.1) by simp [← hfront])
    exact absurd heof (hkinds p hp)

/-- Reading behind a token never says that this token is invalid. -/
theorem Header.readFrom_ne_invalid {offset : Nat} {ts more : List TagToken} {t : TagToken}
    (hsize : offset + byteLength cs < Span.limit)
    (hall : TagToken.lex offset cs = ts ++ t :: more) (ht : t.kind ≠ .eof)
    (start : Nat) (name : String) (attributes : List Attribute) (pending : Bool)
    (found other : String) :
    readFrom start name attributes pending more ≠
      .error ⟨.invalidAttribute found other, t.span⟩ := by
  intro hread
  obtain ⟨u, hu, hspan⟩ := mem_of_readFrom_eq_invalid hread
  obtain ⟨ps, hlexes, hlex⟩ := TagToken.exists_lexes offset cs
  have hordered : (ps.map (·.1)).Pairwise fun t u => t.span.stop ≤ u.span.start :=
    List.pairwise_map.2 (hlexes.pairwise hsize)
  have hmem : t ∈ TagToken.lex offset cs := by simp [hall]
  obtain ⟨p, hp, rfl⟩ := List.mem_map.1 (hlex ▸ hmem)
  have hlt := hlexes.start_lt_stop hsize p hp ht
  rw [← hlex, hall] at hordered
  have hlater := List.rel_of_pairwise_cons (List.pairwise_append.1 hordered).2.1 hu
  rw [hspan] at hlater
  omega

/-- The grammar has one answer to a tag, and reading has the same unless a value is repeated. -/
theorem readOpening_iff {start : Nat} (hsize : start + 1 + byteLength cs < Span.limit)
    (hname : cs.head?.any startsTagName = true) :
    ∃ answer, (∀ a, TagOutcome start (TagToken.lex (start + 1) cs) a ↔ a = answer) ∧
      (RepeatsValue (TagToken.lex (start + 1) cs) →
        ∃ found name span, answer = .error ⟨.invalidAttribute found name, span⟩) ∧
      (readOpening start cs = answer ↔ ¬ RepeatsValue (TagToken.lex (start + 1) cs)) := by
  let name := String.ofList (cs.takeWhile isTagNameChar)
  have hwf : ∀ t ∈ TagToken.lex (start + 1) cs, t.WellFormed :=
    TagToken.lex_wellFormed (start + 1) cs
  obtain ⟨ts, t, more, s, hall, hstops, heof⟩ := exists_stopsAt
    ⟨.name, .ofOffsets (start + 1) (start + 1 + byteLength (cs.takeWhile isTagNameChar)),
      cs.takeWhile isTagNameChar⟩ rfl
    (start + 1 + byteLength (cs.takeWhile isTagNameChar)) (cs.dropWhile isTagNameChar)
  rw [← TagToken.lex_of_startsTagName hname] at hstops
  have hread : readOpening start cs =
      (Header.readFrom start name s.1 s.2 (t :: more)).map (Header.opening name) := by
    rw [← Header.readFrom_of_grammarRun hstops.run, ← hall]
    rfl
  refine ⟨(tagEnd start name s.1 s.2 t).map (Header.opening name),
    fun a => ⟨hstops.outcome_unique hwf, ?_⟩, ?_, ?_⟩
  · rintro rfl
    exact hstops.outcome hwf heof
  · intro hrepeats
    have hgoes := (hstops.repeatsValue_iff hwf).1 hrepeats
    obtain ⟨he, -⟩ := (tagStep_of_grammarStep_eq_none hstops.stop).resolve_left hgoes
    exact ⟨t.found, name, t.span, by rw [Header.tagEnd_equals he]; rfl⟩
  · rw [hstops.repeatsValue_iff hwf, not_not, hread, Header.readFrom_cons]
    cases hstep : tagStep t s.1 s.2 with
    | none => exact iff_of_true rfl rfl
    | some s' =>
      -- reading goes on, and whatever it says is about a later token
      obtain ⟨he, -⟩ := (tagStep_of_grammarStep_eq_none hstops.stop).resolve_left (by simp [hstep])
      rw [Header.tagEnd_equals he]
      refine iff_of_false (fun hsame => ?_) (by simp)
      have hrest : start + 1 + byteLength (cs.takeWhile isTagNameChar) +
          byteLength (cs.dropWhile isTagNameChar) < Span.limit := by
        rwa [Nat.add_assoc, ← byteLength_append, List.takeWhile_append_dropWhile]
      have hne := Header.readFrom_ne_invalid hrest hall (by simp [he]) start name s'.1 s'.2
        t.found name
      revert hsame hne
      show (Header.readFrom start name s'.1 s'.2 more).map _ = _ → _
      cases Header.readFrom start name s'.1 s'.2 more with
      | ok header => exact fun hsame _ => nomatch hsame
      | error e => exact fun hsame hne => hne (congrArg _ (Except.error.inj hsame))

end

/-! ## Behind other blocks -/

/-- Where the text before a `<` is split without a fault, splitting goes on at the `<`. -/
theorem split_append_lt {before tag : String}
    (hsize : byteLength (before ++ "<" ++ tag).toList < Span.limit)
    (h : (split before).errors = []) : ∃ passed s,
      Scan before.toList ('<' :: tag.toList) passed s ∧
      split (before ++ "<" ++ tag) = ⟨(split before).blocks ++ s.blocks, s.errors⟩ := by
  have hall : (before ++ "<" ++ tag).toList = before.toList ++ '<' :: tag.toList := by simp
  rw [hall] at hsize
  have hshort := Nat.lt_of_le_of_lt (byteLength_le_append _ _) hsize
  obtain ⟨passed, hbefore⟩ := split_scan hshort
  obtain ⟨passed', s, htag⟩ := exists_scan before.toList ('<' :: tag.toList) hsize
  have happend := hbefore.append hshort h (.inr rfl) htag
  rw [← hall] at happend
  exact ⟨passed', s, htag, happend.split_eq⟩

/-! ## Whole files -/

/-- What splitting shows of the tag that opens at `start` behind the blocks `earlier`: the next
block is that of the tag, or there is no closing tag for it, or the tag has a fault. -/
def Reports (earlier : List Block) (start : Nat) (s : Split) : Except BlockError Opening → Prop
  | .ok tag =>
    (∃ b later, s.blocks = earlier ++ b :: later ∧ b.name = tag.name ∧
        b.attributes = tag.attributes ∧ b.span.start = start ∧ b.contentSpan.start = tag.stop ∧
        (tag.selfClosing = true → b.content = "" ∧ b.span.stop = tag.stop)) ∨
      (tag.selfClosing = false ∧
        s = ⟨earlier, [⟨.unclosedBlock tag.name, ⟨start, tag.stop⟩⟩]⟩)
  | .error e => s = ⟨earlier, [e]⟩

section

variable {before cs : List Char}

/-- A block is read once its tag is. -/
theorem read_of_readOpening_ok (hsize : byteLength (before ++ '<' :: cs) < Span.limit)
    {tag : Opening} (h : readOpening (byteLength before) cs = .ok tag) :
    (∃ b, read (before ++ '<' :: cs) (byteLength before) cs = .ok b ∧ b.name = tag.name ∧
        b.attributes = tag.attributes ∧ b.span.start = byteLength before ∧
        b.contentSpan.start = tag.stop ∧
        (tag.selfClosing = true → b.content = "" ∧ b.span.stop = tag.stop)) ∨
      (tag.selfClosing = false ∧ read (before ++ '<' :: cs) (byteLength before) cs =
        .error ⟨.unclosedBlock tag.name, ⟨byteLength before, tag.stop⟩⟩) := by
  simp only [readOpening] at h
  cases hheader : Header.read (byteLength before) (String.ofList (cs.takeWhile isTagNameChar))
      (byteLength before + 1 + byteLength (cs.takeWhile isTagNameChar))
      (cs.dropWhile isTagNameChar) with
  | error e => simp [hheader, Except.map] at h
  | ok header =>
    obtain ⟨opening, rest, hopens⟩ := Header.exists_opens hsize hheader
    have hstart := Nat.mod_eq_of_lt (Nat.lt_of_le_of_lt (byteLength_le_append _ _) hsize)
    have hstop : header.stop % Span.limit = header.stop := by
      rw [hopens.text_eq, ← List.append_assoc] at hsize
      rw [hopens.stop, Nat.mod_eq_of_lt (Nat.lt_of_le_of_lt (byteLength_le_append _ _) hsize)]
    rw [hheader] at h
    cases h
    simp only [read, hheader, Header.opening]
    cases hself : header.selfClosing with
    | true => exact Or.inl ⟨_, rfl, rfl, rfl, hstart, hstop, fun _ => ⟨rfl, hstop⟩⟩
    | false =>
      simp only [Bool.false_eq_true, if_false, false_implies, and_true, true_and]
      cases findClose (cs.takeWhile isTagNameChar) (cs.takeWhile isTagNameChar == nestingTag)
          ⟨0, none⟩ (resume (before ++ '<' :: cs) header.stop) with
      | none => exact Or.inr (by simp only [Span.ofOffsets, hstart, hstop])
      | some closed => exact Or.inl ⟨_, rfl, rfl, rfl, hstart, hstop⟩

theorem read_of_readOpening_error {e : BlockError}
    (h : readOpening (byteLength before) cs = .error e) :
    read (before ++ '<' :: cs) (byteLength before) cs = .error e := by
  simp only [readOpening] at h
  cases hheader : Header.read (byteLength before) (String.ofList (cs.takeWhile isTagNameChar))
      (byteLength before + 1 + byteLength (cs.takeWhile isTagNameChar))
      (cs.dropWhile isTagNameChar) with
  | error e' =>
    rw [hheader] at h
    cases h
    simp only [read, hheader]
  | ok header => simp [hheader, Except.map] at h

end

section

variable {before tag : String}

/-- Splitting shows what reading says about a tag. -/
theorem reports_readOpening (hsize : byteLength (before ++ "<" ++ tag).toList < Span.limit)
    (hbefore : (split before).errors = []) (hname : tag.toList.head?.any startsTagName = true) :
    Reports (split before).blocks (byteLength before.toList) (split (before ++ "<" ++ tag))
      (readOpening (byteLength before.toList) tag.toList) := by
  obtain ⟨passed, s, hscan, hsplit⟩ := split_append_lt hsize hbefore
  have hsize' : byteLength (before.toList ++ '<' :: tag.toList) < Span.limit := by
    simpa using hsize
  rw [hsplit]
  cases hopening : readOpening (byteLength before.toList) tag.toList with
  | error e =>
    rcases hscan.tag_cases hname with ⟨b, -, hread, -⟩ | ⟨e', hread, rfl⟩
    · cases hread.symm.trans (read_of_readOpening_error hopening)
    · cases hread.symm.trans (read_of_readOpening_error hopening)
      rw [List.append_nil]
      rfl
  | ok opening =>
    rcases hscan.tag_cases hname with ⟨b, later, hread, hblocks⟩ | ⟨e, hread, rfl⟩
    · rcases read_of_readOpening_ok hsize' hopening with ⟨b', hread', hb⟩ | ⟨-, hread'⟩
      · cases hread.symm.trans hread'
        exact Or.inl ⟨b, later, by rw [hblocks], hb⟩
      · cases hread.symm.trans hread'
    · rcases read_of_readOpening_ok hsize' hopening with ⟨b, hread', -⟩ | ⟨hself, hread'⟩
      · cases hread.symm.trans hread'
      · cases hread.symm.trans hread'
        exact Or.inr ⟨hself, by rw [List.append_nil]⟩

/-- An invalid token shows only when reading says so. -/
theorem readOpening_of_reports_invalid
    (hsize : byteLength (before ++ "<" ++ tag).toList < Span.limit)
    (hbefore : (split before).errors = []) (hname : tag.toList.head?.any startsTagName = true)
    {found name : String} {span : Span}
    (h : Reports (split before).blocks (byteLength before.toList) (split (before ++ "<" ++ tag))
      (.error ⟨.invalidAttribute found name, span⟩)) :
    readOpening (byteLength before.toList) tag.toList =
      .error ⟨.invalidAttribute found name, span⟩ := by
  have hreports := reports_readOpening hsize hbefore hname
  rw [Reports] at h
  rw [h] at hreports
  cases hopening : readOpening (byteLength before.toList) tag.toList with
  | error e =>
    rw [hopening, Reports] at hreports
    cases hreports
    rfl
  | ok opening =>
    rw [hopening] at hreports
    rcases hreports with ⟨b, later, hblocks, -⟩ | ⟨-, hsplit⟩
    · simp at hblocks
    · cases hsplit

end

/-- The grammar has one answer to each tag that opens outside of blocks and comments: the text
before it is split without a fault. Splitting shows this answer exactly when no `=` stands behind
a value. -/
theorem split_tag_iff (before tag : String)
    (hsize : byteLength (before ++ "<" ++ tag).toList < Span.limit)
    (hbefore : (split before).errors = [])
    (hname : tag.toList.head?.any startsTagName = true) :
    let start := byteLength before.toList
    let tokens := TagToken.lex (start + 1) tag.toList
    ∃ answer, (∀ a, TagOutcome start tokens a ↔ a = answer) ∧
      (Reports (split before).blocks start (split (before ++ "<" ++ tag)) answer ↔
        ¬ RepeatsValue tokens) := by
  intro start tokens
  have htag : start + 1 + byteLength tag.toList < Span.limit := by
    simpa [start, Nat.add_assoc] using hsize
  obtain ⟨answer, hanswer, hinvalid, hiff⟩ := readOpening_iff htag hname
  refine ⟨answer, hanswer, fun hreports hrepeats => ?_, fun hnot => ?_⟩
  · obtain ⟨found, name, span, rfl⟩ := hinvalid hrepeats
    exact hiff.1 (readOpening_of_reports_invalid hsize hbefore hname hreports) hrepeats
  · rw [← hiff.2 hnot]
    exact reports_readOpening hsize hbefore hname

/-- A tag behind a comment, a block and a loose `<`. -/
theorem split_tag_behind_others :
    ∃ answer, (∀ a, TagOutcome 19 (TagToken.lex 20 "b c d='e' f = \"g\" />".toList) a ↔
        a = answer) ∧
      (Reports (split "<!--<x--><a/>1 < 2 ").blocks 19
          (split ("<!--<x--><a/>1 < 2 " ++ "<" ++ "b c d='e' f = \"g\" />")) answer ↔
        ¬ RepeatsValue (TagToken.lex 20 "b c d='e' f = \"g\" />".toList)) :=
  split_tag_iff "<!--<x--><a/>1 < 2 " "b c d='e' f = \"g\" />" (by decide +kernel)
    (by decide +kernel) (by decide)

/-- A second `=` is taken, although no tag of the grammar has one there, and its value counts. -/
theorem second_value_accepted :
    RepeatsValue (TagToken.lex 1 "a b=1=2></a>".toList) ∧
      split "<a b=1=2></a>" =
        ⟨[⟨"a", ⟨0, 13⟩, ⟨9, 9⟩, "", [⟨"b", .text "2", ⟨3, 8⟩⟩]⟩], []⟩ := by
  refine ⟨⟨⟨.name, ⟨1, 2⟩, ['a']⟩, [⟨.name, ⟨3, 4⟩, ['b']⟩, ⟨.equals, ⟨4, 5⟩, ['=']⟩,
    ⟨.name, ⟨5, 6⟩, ['1']⟩], ⟨.equals, ⟨6, 7⟩, ['=']⟩, TagToken.lex 7 "2></a>".toList, [],
    ⟨"b", .text "1", ⟨3, 6⟩⟩, by decide +kernel, rfl, ?_, by decide⟩, by decide +kernel⟩
  exact .snoc .nil (.valued rfl rfl (.name ⟨5, 6⟩ ['1']))

end ScriptSetup.Block
