import ScriptSetup.Proofs.Result
import ScriptSetup.Proofs.Script.WellFormed

/-!
# What readers keep

A reader that answers goes forward: where the last token ended never moves back, it lies before the
current token, and that token is one that was scanned. What it answers is well formed, as long as
the readers it is made of answer with well-formed values.

`Reads` says this of a reader. It is a class: a reader put together from others is found to satisfy
it by looking at how it is put together. `Reads.steps` does so for a whole definition.
-/

set_option autoImplicit false

namespace ScriptSetup.Script

/-- The last token read ends at `n` or later, and before the current token, which fits. -/
structure State.Past (n : Nat) (s : State) : Prop where
  reached : n ≤ s.prevStop
  prevStop_le : s.prevStop ≤ s.start
  start_le : s.start ≤ s.stop
  fits : s.token.Fits

theorem State.Past.mono {n m : Nat} {s : State} (h : s.Past m) (hnm : n ≤ m) : s.Past n :=
  { h with reached := Nat.le_trans hnm h.reached }

theorem State.at_past {n offset prevStop : Nat} (hn : n ≤ prevStop) (h : prevStop ≤ offset)
    (lineStart : Bool) (cs : List Char) : (State.at offset prevStop lineStart cs).Past n := by
  rw [State.at]
  split
  · exact ⟨hn, h, Nat.le_add_right _ _, trivial⟩
  · next used newline rest _ =>
    refine ⟨hn, Nat.le_trans h (Nat.le_add_right _ _), Nat.le_add_right _ _, ?_⟩
    dsimp only
    split
    · trivial
    · exact fits_scan rest

/-- Skipping the rest of a text leaves what is before it read. -/
theorem State.skipTo_past {n offset : Nat} {s : State} (h : n ≤ offset) (rest : List Char) :
    (s.skipTo offset rest).Past n := by
  obtain ⟨hreached, hprev, hstart, hfits⟩ := State.at_past h (Nat.le_refl offset) false rest
  exact ⟨hreached, hprev, hstart, hfits⟩

namespace Parse

/-! ## Runs -/

section

variable {α β : Type}

/-- From a state with `P`, when the reader answers, the answer and the state after it satisfy
`Q`. -/
def Triple (P : State → Prop) (p : Parse α) (Q : α → State → Prop) : Prop :=
  ∀ ctx s a s', P s → p ctx s = .ok (a, s') → Q a s'

namespace Triple

variable {P P' : State → Prop} {p : Parse α} {Q Q' : α → State → Prop}

theorem pure {a : α} (h : ∀ s, P s → Q a s) : Triple P (Pure.pure a) Q := by
  intro ctx s b s' hs hrun
  cases hrun
  exact h s hs

theorem bind {f : α → Parse β} {R : β → State → Prop} (hp : Triple P p Q)
    (hf : ∀ a, Triple (Q a) (f a) R) : Triple P (p >>= f) R := by
  intro ctx s b s' hs hrun
  obtain ⟨⟨a, s₁⟩, hrun₁, hrun₂⟩ := bind_eq_ok.1 (hrun : (p ctx s >>= fun x => f x.1 ctx x.2) = _)
  exact hf a ctx s₁ b s' (hp ctx s a s₁ hs hrun₁) hrun₂

theorem conseq (h : Triple P' p Q') (hP : ∀ s, P s → P' s) (hQ : ∀ a s, Q' a s → Q a s) :
    Triple P p Q := fun ctx s a s' hs hrun =>
  hQ a s' (h ctx s a s' (hP s hs) hrun)

theorem fault {span : Span} {cause : Cause} : Triple P (fault span cause) Q := by
  intro ctx s a s' _ hrun
  cases hrun

/-- A reader that only looks at the state. -/
theorem of_eq_ok {f : State → α} (h : ∀ ctx s, p ctx s = .ok (f s, s)) :
    Triple P p fun a s => a = f s ∧ P s := by
  intro ctx s a s' hs hrun
  rw [h] at hrun
  cases hrun
  exact ⟨rfl, hs⟩

theorem unexpected {expected : String} : Triple P (unexpected expected) Q := by
  have hspan := @of_eq_ok _ P tokenSpan (fun s => ⟨s.start, s.stop⟩) fun _ _ => rfl
  refine hspan.bind fun span => (of_eq_ok fun _ _ => rfl).bind fun t => ?_
  split
  · exact fault
  · exact fault

theorem get : Triple P (MonadState.get : Parse State) fun a s => a = s ∧ P s :=
  of_eq_ok fun _ _ => rfl

theorem set {s₁ : State} {Q : Unit → State → Prop} (h : ∀ s, P s → Q () s₁) :
    Triple P (MonadState.set s₁ : Parse Unit) Q := by
  intro ctx s a s' hs hrun
  cases hrun
  exact h s hs

end Triple

/-- The reader goes forward, and its answers satisfy `Q`. -/
def Yields (p : Parse α) (Q : α → Prop) : Prop :=
  ∀ n, Triple (State.Past n) p fun a s => s.Past n ∧ Q a

namespace Yields

variable {p : Parse α} {Q Q' : α → Prop}

theorem mono (h : Yields p Q) (hQ : ∀ a, Q a → Q' a) : Yields p Q' := fun n =>
  (h n).conseq (fun _ => id) fun a _ => And.imp_right (hQ a)

theorem and (h : Yields p Q) (h' : Yields p Q') : Yields p fun a => Q a ∧ Q' a :=
  fun n ctx s a s' hs hrun =>
    have hstate := h n ctx s a s' hs hrun
    ⟨hstate.1, hstate.2, (h' n ctx s a s' hs hrun).2⟩

theorem withReader (f : Context → Context) (h : Yields p Q) : Yields (withReader f p) Q :=
  fun n ctx => h n (f ctx)

theorem pure {a : α} (h : Q a) : Yields (Pure.pure a) Q := fun _ =>
  Triple.pure fun _ hs => ⟨hs, h⟩

theorem bind {f : α → Parse β} {R : β → Prop} (hp : Yields p Q)
    (hf : ∀ a, Q a → Yields (f a) R) : Yields (p >>= f) R := fun n =>
  (hp n).bind fun a ctx s b s' hs hrun => hf a hs.2 n ctx s b s' hs.1 hrun

theorem ite {c : Prop} [Decidable c] {q : Parse α} (hp : Yields p Q) (hq : Yields q Q) :
    Yields (if c then p else q) Q := by
  split
  · exact hp
  · exact hq

theorem fault {span : Span} {cause : Cause} : Yields (fault span cause) Q := fun _ => Triple.fault

/-- A reader that changes nothing. -/
theorem of_unchanged (h : ∀ ctx s a s', p ctx s = .ok (a, s') → s' = s ∧ Q a) : Yields p Q := by
  intro n ctx s a s' hs hrun
  obtain ⟨rfl, ha⟩ := h ctx s a s' hrun
  exact ⟨hs, ha⟩

theorem get : Yields (MonadState.get : Parse State) fun _ => True :=
  of_unchanged fun _ _ _ _ h => by cases h; exact ⟨rfl, trivial⟩

theorem read : Yields (MonadReader.read : Parse Context) fun _ => True :=
  of_unchanged fun _ _ _ _ h => by cases h; exact ⟨rfl, trivial⟩

theorem repeatUpTo {step : Parse (Option α)} {I : α → Prop}
    (h : Yields step fun a? => ∀ a, a? = some a → I a) (n : Nat) :
    Yields (Parse.repeatUpTo n step) fun as => ∀ a ∈ as, I a := by
  induction n with
  | zero => exact get.bind fun _ _ => fault
  | succ n ih =>
    refine h.bind fun a? ha => ?_
    cases a? with
    | none => exact pure (List.forall_mem_nil I)
    | some a => exact ih.bind fun as has => pure (List.forall_mem_cons.2 ⟨ha a rfl, has⟩)

theorem iterateUpTo {step : α → Parse (Option α)} {I : α → Prop}
    (h : ∀ a, I a → Yields (step a) fun b? => ∀ b, b? = some b → I b) (n : Nat) :
    ∀ a, I a → Yields (Parse.iterateUpTo n step a) I := by
  induction n with
  | zero => exact fun _ _ => get.bind fun _ _ => fault
  | succ n ih =>
    intro a ha
    refine (h a ha).bind fun b? hb => ?_
    cases b? with
    | none => exact pure ha
    | some b => exact ih b (hb b rfl)

/-- What every round of a loop keeps, the loop keeps. -/
theorem iterate {step : α → Parse (Option α)} {I : α → Prop} {a : α}
    (h : ∀ a, I a → Yields (step a) fun b? => ∀ b, b? = some b → I b) (ha : I a) :
    Yields (Parse.iterate step a) I :=
  get.bind fun _ _ => iterateUpTo h _ a ha

end Yields

end

/-! ## Readers of well-formed values -/

section

variable {α β γ : Type} [Trees α] [Trees β] [Trees γ]

/-- The reader goes forward and gives well-formed values. -/
class Reads {α : Type} [Trees α] (p : Parse α) : Prop where
  out : Yields p wellFormed

namespace Reads

theorem bind {p : Parse α} {f : α → Parse β} (hp : Reads p)
    (hf : ∀ a : {a : α // wellFormed a}, Reads (f a.1)) : Reads (p >>= f) :=
  ⟨hp.out.bind fun a ha => (hf ⟨a, ha⟩).out⟩

omit [Trees β] in
theorem bind_triple {n : Nat} {p : Parse α} {f : α → Parse β} {Q : β → State → Prop} (hp : Reads p)
    (hf : ∀ a : {a : α // wellFormed a}, Triple (State.Past n) (f a.1) Q) :
    Triple (State.Past n) (p >>= f) Q :=
  (hp.out n).bind fun a ctx s b s' hs => hf ⟨a, hs.2⟩ ctx s b s' hs.1

theorem bind_plain [AlwaysWellFormed α] {p : Parse α} {f : α → Parse β} (hp : Reads p)
    (hf : ∀ a, Reads (f a)) : Reads (p >>= f) :=
  hp.bind fun a => hf a.1

theorem bind_prod {p : Parse (α × β)} {f : α × β → Parse γ} (hp : Reads p)
    (hf : ∀ (a : {a : α // wellFormed a}) (b : {b : β // wellFormed b}), Reads (f (a.1, b.1))) :
    Reads (p >>= f) :=
  hp.bind fun x => hf ⟨x.1.1, x.2.1⟩ ⟨x.1.2, x.2.2⟩

theorem bind_option {p : Parse (Option α)} {f : Option α → Parse β} (hp : Reads p)
    (hnone : Reads (f none)) (hsome : ∀ a : {a : α // wellFormed a}, Reads (f (some a.1))) :
    Reads (p >>= f) := by
  refine hp.bind fun a? => ?_
  obtain ⟨_ | a, ha⟩ := a?
  · exact hnone
  · exact hsome ⟨a, ha a rfl⟩

omit [Trees β] in
/-- What is read after something that does not matter. -/
theorem then_yields {p : Parse α} [hp : Reads p] {f : α → Parse β} {Q : β → Prop}
    (hf : ∀ a, Yields (f a) Q) : Yields (p >>= f) Q :=
  hp.out.bind fun a _ => hf a

theorem ite {c : Prop} [Decidable c] {p q : Parse α} (hp : Reads p) (hq : Reads q) :
    Reads (if c then p else q) := ⟨hp.out.ite hq.out⟩

theorem withReader {p : Parse α} (f : Context → Context) (hp : Reads p) :
    Reads (withReader f p) := ⟨hp.out.withReader f⟩

theorem inBrackets {p : Parse α} (hp : Reads p) : Reads (inBrackets p) := hp.withReader _

theorem attempt {p : Parse (Option α)} (hp : Reads p) : Reads (attempt p) := by
  refine ⟨fun n ctx s a? s' hs hrun => ?_⟩
  rw [Parse.attempt] at hrun
  split at hrun
  · next a _ h =>
    cases hrun
    exact hp.out n _ s (some a) _ hs h
  · cases hrun
    exact ⟨hs, by rintro a ⟨⟩⟩
  · cases hrun
    exact ⟨hs, by rintro a ⟨⟩⟩

theorem collect {p : Parse (Option α)} (hp : Reads p) : Reads (collect p) :=
  ⟨Yields.get.bind fun _ _ => hp.out.repeatUpTo _⟩

theorem iterate {p : α → Parse (Option α)} {a : α} (ha : WellFormed a)
    (hp : ∀ a : {a : α // wellFormed a}, Reads (p a.1)) : Reads (iterate p a) :=
  ⟨Yields.iterate (fun a ha => (hp ⟨a, ha⟩).out) ha.out⟩

theorem mapM {f : α → Parse β} (hf : ∀ a : {a : α // wellFormed a}, Reads (f a.1)) :
    ∀ as : List α, wellFormed as → Reads (as.mapM f)
  | [], _ => ⟨.pure fun _ => nofun⟩
  | a :: as, h => by
    obtain ⟨ha, has⟩ := List.forall_mem_cons.1 h
    rw [List.mapM_cons]
    refine (hf ⟨a, ha⟩).bind fun b => (mapM hf as has).bind fun bs => ⟨.pure ?_⟩
    exact List.forall_mem_cons.2 ⟨b.2, bs.2⟩

omit [Trees α] in
theorem forIn {f : α → Unit → Parse (ForInStep Unit)} (hf : ∀ a, Reads (f a ())) :
    ∀ as : List α, Reads (forIn as () f)
  | [] => ⟨.pure trivial⟩
  | a :: as => by
    rw [List.forIn_cons]
    refine (hf a).bind fun step => ?_
    obtain ⟨b | b, -⟩ := step
    · exact ⟨.pure trivial⟩
    · exact forIn hf as

end Reads

instance (a : α) [ha : WellFormed a] : Reads (pure a) := ⟨.pure ha.out⟩

instance (p : Parse α) (f : α → Parse β) [hp : Reads p]
    [hf : ∀ a : {a : α // wellFormed a}, Reads (f a.1)] : Reads (p >>= f) := hp.bind hf

instance (p : Parse (α × β)) (f : α × β → Parse γ) [hp : Reads p]
    [hf : ∀ (a : {a : α // wellFormed a}) (b : {b : β // wellFormed b}), Reads (f (a.1, b.1))] :
    Reads (p >>= f) := hp.bind_prod hf

instance (p : Parse (Option α)) (f : Option α → Parse β) [hp : Reads p] [hnone : Reads (f none)]
    [hsome : ∀ a : {a : α // wellFormed a}, Reads (f (some a.1))] : Reads (p >>= f) :=
  hp.bind_option hnone hsome

instance (p : Parse α) (f : α → β) [hp : Reads p]
    [hf : ∀ a : {a : α // wellFormed a}, WellFormed (f a.1)] : Reads (f <$> p) := by
  rw [map_eq_pure_bind]
  exact hp.bind fun a => ⟨.pure (hf a).out⟩

instance (c : Prop) [Decidable c] (p q : Parse α) [hp : Reads p] [hq : Reads q] :
    Reads (if c then p else q) := hp.ite hq

instance (f : Context → Context) (p : Parse α) [hp : Reads p] : Reads (withReader f p) :=
  hp.withReader f

instance (p : Parse α) [hp : Reads p] : Reads (inBrackets p) := hp.inBrackets

instance (p : Parse (Option α)) [hp : Reads p] : Reads (attempt p) := hp.attempt

instance (p : Parse (Option α)) [hp : Reads p] : Reads (collect p) := hp.collect

instance (p : α → Parse (Option α)) (a : α) [ha : WellFormed a]
    [hp : ∀ a : {a : α // wellFormed a}, Reads (p a.1)] : Reads (iterate p a) := .iterate ha hp

instance (p : Parse Bool) : Reads (lookahead p) := by
  refine ⟨.of_unchanged fun ctx s b s' hrun => ?_⟩
  rw [Parse.lookahead] at hrun
  split at hrun
  · cases hrun
    exact ⟨rfl, trivial⟩
  · cases hrun
    exact ⟨rfl, trivial⟩

/-- A reader that goes on with `k` in several places. -/
theorem Reads.join {p : Parse α} (k : β → Parse α) (hk : ∀ b [WellFormed b], Reads (k b))
    (h : (∀ b [WellFormed b], Reads (k b)) → Reads p) : Reads p := h hk

/-- The steps of a definition, one by one. Where it takes a token apart, the cases are the cases of
the reader. -/
theorem Reads.steps {p : Parse α} (h : Reads p := by
    repeat' first
      | infer_instance
      | with_reducible refine Reads.bind_name fun _ _ => ?_
      | with_reducible refine Reads.bind_plain ?_ fun _ => ?_
      | with_reducible refine Reads.bind_prod ?_ fun _ _ => ?_
      | with_reducible refine Reads.bind_option ?_ ?_ fun _ => ?_
      | with_reducible refine Reads.bind ?_ fun _ => ?_
      | with_reducible refine Reads.collect ?_
      | with_reducible refine Reads.inBrackets ?_
      | with_reducible refine Reads.attempt ?_
      | with_reducible refine Reads.withReader _ ?_
      | with_reducible refine Reads.iterate ?_ fun _ => ?_
      | with_reducible refine Reads.forIn (fun _ => ?_) _
      | (extract_lets -underBinder +onlyGivenNames k; refine Reads.join k ?_ ?_)
      | (intro b _; dsimp -zetaHave only [k]; clear k)
      | (clear_value k; revert k; intro _ _)
      | with_reducible refine Reads.ite ?_ ?_
      | split
      | dsimp only) : Reads p := h

end

/-! ## Tokens -/

instance : Reads (get : Parse State) := ⟨.get⟩
instance : Reads (read : Parse Context) := ⟨.read⟩

section

variable {α : Type} [Trees α]

instance (span : Span) (cause : Cause) : Reads (fault span cause : Parse α) := ⟨.fault⟩

instance (expected : String) : Reads (unexpected expected : Parse α) := by
  unfold unexpected tokenSpan token
  exact .steps

end

instance : Reads token := by unfold token; exact .steps
instance : Reads here := by unfold here; exact .steps
instance : Reads tokenSpan := by unfold tokenSpan; exact .steps
instance (start : Nat) : Reads (spanFrom start) := by unfold spanFrom; exact .steps
instance : Reads newlineBefore := by unfold newlineBefore; exact .steps
instance : Reads typed := by unfold typed; exact .steps
instance (span : Span) (cause : Cause) : Reads (report span cause) := by unfold report; exact .steps

instance (used : Nat) (rest : List Char) : Reads (resume used rest) := by
  refine ⟨fun n ctx s a s' hs hrun => ?_⟩
  cases hrun
  refine ⟨State.skipTo_past ?_ rest, trivial⟩
  exact Nat.le_trans (Nat.le_trans hs.reached hs.prevStop_le) (Nat.le_add_right _ _)

/-- A token that is read has ended. -/
theorem advance_triple (n : Nat) : Triple (fun s => s.stop = n) advance fun _ s => s.Past n := by
  refine Triple.get.bind fun s => ?_
  split
  · exact Triple.fault
  · refine Triple.set fun _ hs => ?_
    obtain ⟨rfl, rfl⟩ := hs
    exact State.skipTo_past (Nat.le_refl _) s.after

instance : Reads advance := by
  refine ⟨fun n ctx s a s' hs hrun => ?_⟩
  have hn := Nat.le_trans hs.reached (Nat.le_trans hs.prevStop_le hs.start_le)
  exact ⟨(advance_triple s.stop ctx s a s' rfl hrun).mono hn, trivial⟩

theorem eatWord_triple (n : Nat) (word : String) :
    Triple (fun s => s.stop = n) (eatWord word) fun b s => b = true → s.Past n := by
  have hword := @Triple.of_eq_ok _ (fun s => s.stop = n) (isWord word) _ fun _ _ => rfl
  refine hword.bind fun b => ?_
  cases b with
  | false => exact Triple.pure fun _ _ => nofun
  | true =>
    refine Triple.bind ?_ fun _ => Triple.pure fun _ hs _ => hs
    exact (advance_triple n).conseq (fun _ hs => hs.2) fun _ _ => id

/-- A word that has to be there has ended. -/
theorem expectWord_triple (n : Nat) (word : String) :
    Triple (fun s => s.stop = n) (expectWord word) fun _ s => s.Past n := by
  refine (eatWord_triple n word).bind fun b => ?_
  cases b with
  | false => exact Triple.unexpected
  | true => exact Triple.pure fun _ hs => hs rfl

instance (first : Char) : Reads (splitPunct first) := by
  refine ⟨fun n => Triple.get.bind fun s => ?_⟩
  split
  · split
    · refine Triple.set fun _ hs => ?_
      obtain ⟨rfl, hs⟩ := hs
      exact ⟨⟨hs.reached, hs.prevStop_le, Nat.le_add_right _ _, trivial⟩, trivial⟩
    · exact Triple.pure fun _ hs => ⟨hs.2, trivial⟩
  · exact Triple.pure fun _ hs => ⟨hs.2, trivial⟩

instance : Reads nextToken := by unfold nextToken; exact .steps
instance : Reads nextOnLine := by unfold nextOnLine; exact .steps
instance (text : String) : Reads (isPunct text) := by unfold isPunct; exact .steps
instance (word : String) : Reads (isWord word) := by unfold isWord; exact .steps
instance (texts : List String) : Reads (isPunctIn texts) := by unfold isPunctIn; exact .steps
instance (words : List String) : Reads (isWordIn words) := by unfold isWordIn; exact .steps
instance (text : String) : Reads (eat text) := by unfold eat; exact .steps
instance (word : String) : Reads (eatWord word) := by unfold eatWord; exact .steps
instance (text : String) : Reads (expect text) := by unfold expect; exact .steps
instance (word : String) : Reads (expectWord word) := by unfold expectWord; exact .steps
instance : Reads closeAngle := by unfold closeAngle; exact .steps
instance : Reads isAngle := by unfold isAngle; exact .steps
instance : Reads canInsertSemicolon := by unfold canInsertSemicolon; exact .steps
instance : Reads isSemicolon := by unfold isSemicolon; exact .steps
instance : Reads eatSemicolon := by unfold eatSemicolon; exact .steps
instance : Reads semicolon := by unfold semicolon; exact .steps
instance : Reads anyName := by unfold anyName; exact .steps
instance : Reads isName := by unfold isName; exact .steps
instance (t : Token) : Reads (canBeName t) := by unfold canBeName; exact .steps

theorem token_yields : Yields token Token.Fits := by
  intro n ctx s t s' hs hrun
  cases hrun
  exact ⟨hs, hs.fits⟩

/-- The name of a value is a word that is not reserved. -/
theorem name_yields : Yields name Ident.IsFree := by
  refine Reads.then_yields fun span => token_yields.bind fun t hfits => ?_
  split
  · next w escaped =>
    refine Yields.read.bind fun ctx _ => ?_
    split
    · exact .fault
    · next hfree =>
      simp only [isReservedHere, Bool.or_eq_true, not_or, Bool.not_eq_true] at hfree
      have hid : Ident.IsFree ⟨w, span⟩ := ⟨⟨hfits, hfree.1.1, hfree.1.2⟩⟩
      have hanswer : Yields (do advance; return ⟨w, span⟩) Ident.IsFree :=
        Reads.then_yields fun _ => .pure hid
      refine Yields.read.bind fun _ _ => .ite ?_ hanswer
      exact Reads.then_yields fun _ => hanswer
  · exact fun _ => Triple.unexpected

instance : Reads name := ⟨name_yields.mono fun _ _ => trivial⟩

theorem Reads.bind_name {α : Type} [Trees α] {f : Ident → Parse α}
    (hf : ∀ id, id.IsFree → Reads (f id)) : Reads (name >>= f) :=
  ⟨name_yields.bind fun id hid => (hf id hid).out⟩

instance : Reads boundName := by unfold boundName; exact .steps
instance : Reads stringLit := by unfold stringLit; exact .steps

instance {α : Type} [Trees α] (close : String) (item : Parse α) [Reads item] :
    Reads (commaList close item) := by
  unfold commaList
  exact .steps

theorem Yields.commaList {α : Type} {close : String} {item : Parse α} {Q : α → Prop}
    (h : Yields item Q) : Yields (commaList close item) fun x => ∀ a ∈ x.1, Q a := by
  let : Trees α := ⟨Q⟩
  have : Reads item := ⟨h⟩
  exact (inferInstance : Reads (Parse.commaList close item)).out.mono fun _ hx => hx.1

end Parse

/-! ## Entry points -/

open Parse in
/-- All entry points of a grammar go forward and give well-formed trees. What binds names is a name
or a pattern. -/
class Grammar.Sound (g : Grammar) : Prop where
  assign : Reads g.assign
  expr : Reads g.expr
  binary : Reads g.binary
  unary : Reads g.unary
  leftHand : Reads g.leftHand
  newTarget : Reads g.newTarget
  element : Reads g.element
  decoration : Reads g.decoration
  stmt : ∀ isItem, Reads (g.stmt isItem)
  item : Reads g.item
  binding : Reads g.binding
  binds : Yields g.binding fun p => p.isBinding = true
  type : Reads g.type
  plainType : Reads g.plainType

attribute [instance] Grammar.Sound.assign Grammar.Sound.expr Grammar.Sound.binary
  Grammar.Sound.unary Grammar.Sound.leftHand Grammar.Sound.newTarget Grammar.Sound.element
  Grammar.Sound.decoration Grammar.Sound.stmt Grammar.Sound.item Grammar.Sound.binding
  Grammar.Sound.type Grammar.Sound.plainType

end ScriptSetup.Script
