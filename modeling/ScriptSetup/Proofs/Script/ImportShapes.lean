import ScriptSetup.Proofs.Script.ModuleReaders
import ScriptSetup.Proofs.Script.Running

/-!
# The shapes of imports

What an import of a module that was read looks like. It binds a name by default, names in braces or
a namespace; an import of types binds by default or otherwise, not both. Every name that it binds
can be bound at the top of a module, and a name in braces is marked as a type only where the import
is not one of types.
-/

set_option autoImplicit false

namespace ScriptSetup.Script

namespace Parse

/-! ## Names -/

/-- The word can be bound by default. -/
structure Bindable (ctx : Context) (w : String) : Prop where
  fits : nameFits w = true
  free : isReservedHere ctx w = false
  plain : isRestrictedName w = false

/-- The word can be bound. -/
def CanBind (ctx : Context) (w : String) : Prop := Bindable ctx w ∨ w = "this" ∧ ctx.typed = true

instance (ctx : Context) (w : String) : Decidable (CanBind ctx w) :=
  decidable_of_iff ((nameFits w = true ∧ isReservedHere ctx w = false ∧
      isRestrictedName w = false) ∨ w = "this" ∧ ctx.typed = true)
    (or_congr_left ⟨fun h => ⟨h.1, h.2.1, h.2.2⟩, fun h => ⟨h.fits, h.free, h.plain⟩⟩)

theorem CanBind.fits {ctx : Context} {w : String} (h : CanBind ctx w) : nameFits w = true := by
  rcases h with h | ⟨rfl, -⟩
  · exact h.fits
  · decide

/-- The specifier is one in braces. -/
inductive NamedFits (ctx : Context) (allType : Bool) : ImportSpecifier → Prop where
  | plain {isType : Bool} {w : String} (hfits : nameFits w = true)
      (hfree : isReservedHere ctx w = false)
      (hflag : isType = true → ctx.typed = true ∧ allType = false) :
    NamedFits ctx allType (.named isType none w)
  | renamed {isType : Bool} {u w : String} (hfits : nameFits u = true) (hw : CanBind ctx w)
      (hflag : isType = true → ctx.typed = true ∧ allType = false) :
    NamedFits ctx allType (.named isType (some (.ident u)) w)
  | string {w : String} (value : String) (hw : CanBind ctx w) :
    NamedFits ctx allType (.named false (some (.string value)) w)

/-- The specifiers are a namespace or stand in braces. -/
inductive ClauseFits (ctx : Context) (allType : Bool) : List ImportSpecifier → Prop where
  | everything {w : String} (hw : CanBind ctx w) : ClauseFits ctx allType [.namespace w]
  | names {specifiers : List ImportSpecifier} (h : ∀ s ∈ specifiers, NamedFits ctx allType s) :
    ClauseFits ctx allType specifiers

/-- The specifiers of an import, which may be one of types. -/
inductive ImportFits (ctx : Context) : Bool → List ImportSpecifier → Prop where
  | default {isType : Bool} {w : String} (htyped : isType = true → ctx.typed = true)
      (hw : Bindable ctx w) : ImportFits ctx isType [.default w]
  | clause {isType : Bool} {specifiers : List ImportSpecifier}
      (htyped : isType = true → ctx.typed = true) (h : ClauseFits ctx isType specifiers) :
    ImportFits ctx isType specifiers
  | both {w : String} {specifiers : List ImportSpecifier} (hw : Bindable ctx w)
      (h : ClauseFits ctx false specifiers) : ImportFits ctx false (.default w :: specifiers)

/-- The item, if it is an import, has the shape of one. -/
def ItemFits (ctx : Context) (item : ModuleItem) : Prop :=
  ∀ d, item = .importDecl d → ImportFits ctx d.isType d.specifiers

/-! ## Answers where nothing is only tried -/

/-- In this context, when the reader answers, its answers satisfy `Q`. -/
def Answers {α : Type} (ctx : Context) (p : Parse α) (Q : α → Prop) : Prop :=
  ∀ s a s', s.Past 0 → p ctx s = .ok (a, s') → s'.Past 0 ∧ Q a

namespace Answers

variable {α β : Type} {ctx : Context} {p : Parse α} {Q : α → Prop}

theorem of_yields (h : Yields p Q) : Answers ctx p Q := fun s a s' hs hrun => h 0 ctx s a s' hs hrun

theorem of_reads [Trees α] [h : Reads p] : Answers ctx p fun _ => True :=
  of_yields (h.out.mono fun _ _ => trivial)

theorem pure {a : α} (h : Q a) : Answers ctx (pure a) Q := of_yields (.pure h)

theorem bind {f : α → Parse β} {R : β → Prop} (hp : Answers ctx p Q)
    (hf : ∀ a, Q a → Answers ctx (f a) R) : Answers ctx (p >>= f) R := by
  intro s b s' hs hrun
  obtain ⟨⟨a, s₁⟩, hrun₁, hrun₂⟩ := bind_eq_ok.1 (hrun : (p ctx s >>= fun x => f x.1 ctx x.2) = _)
  obtain ⟨hs₁, ha⟩ := hp s a s₁ hs hrun₁
  exact hf a ha s₁ b s' hs₁ hrun₂

/-- What is read after something that does not matter. -/
theorem after [Trees α] [Reads p] {f : α → Parse β} {R : β → Prop}
    (hf : ∀ a, Answers ctx (f a) R) : Answers ctx (p >>= f) R :=
  of_reads.bind fun a _ => hf a

theorem ite {c : Prop} [Decidable c] {q : Parse α} (hp : c → Answers ctx p Q)
    (hq : ¬ c → Answers ctx q Q) : Answers ctx (if c then p else q) Q := by
  split
  · next hc => exact hp hc
  · next hc => exact hq hc

/-- Nothing is read after a fault. -/
theorem report (hloud : ctx.quiet = false) {span : Span} {cause : Cause} :
    Answers ctx (report span cause) fun _ => False := by
  intro s a s' _ hrun
  have hruns : Runs (Parse.report span cause) ctx s fun _ _ => True := ⟨a, s', hrun, trivial⟩
  rw [runs_report, hloud] at hruns
  cases hruns.1

theorem typed : Answers ctx typed fun b => b = ctx.typed := by
  intro s a s' hs hrun
  cases hrun
  exact ⟨hs, rfl⟩

theorem repeatUpTo {step : Parse (Option α)}
    (h : Answers ctx step fun a? => ∀ a, a? = some a → Q a) (n : Nat) :
    Answers ctx (repeatUpTo n step) fun as => ∀ a ∈ as, Q a := by
  induction n with
  | zero => exact after fun _ => of_yields .fault
  | succ n ih =>
    refine h.bind fun a? ha => ?_
    cases a? with
    | none => exact pure (List.forall_mem_nil Q)
    | some a => exact ih.bind fun as has => pure (List.forall_mem_cons.2 ⟨ha a rfl, has⟩)

theorem collect {step : Parse (Option α)}
    (h : Answers ctx step fun a? => ∀ a, a? = some a → Q a) :
    Answers ctx (collect step) fun as => ∀ a ∈ as, Q a :=
  after fun _ => h.repeatUpTo _

theorem commaList {close : String} (h : Answers ctx p Q) :
    Answers ctx (commaList close p) fun x => ∀ a ∈ x.1, Q a := by
  have hstep : Answers ctx (do
      if ← isPunct close then return none
      expect ","
      if ← isPunct close then return some none
      return some (some (← p))) fun a?? => ∀ a?, a?? = some a? → ∀ a ∈ a?, Q a := by
    refine after fun _ => ite (fun _ => pure nofun) fun _ => after fun _ => after fun _ => ?_
    refine ite (fun _ => pure ?_) fun _ => h.bind fun a ha => pure ?_
    · rintro _ ⟨rfl⟩
      nofun
    · rintro _ ⟨rfl⟩ b hb
      exact Option.mem_some.1 hb ▸ ha
  refine after fun b => ite (fun _ => pure nofun) fun _ => h.bind fun first hfirst => ?_
  refine hstep.collect.bind fun rest hrest => after fun _ => pure ?_
  refine List.forall_mem_cons.2 ⟨hfirst, fun a ha => ?_⟩
  obtain ⟨a?, ha?, heq⟩ := List.mem_filterMap.1 ha
  exact hrest a? ha? a (Option.mem_def.2 heq)

end Answers

/-! ## Exports -/

section

/-- The items that are no imports. -/
local instance otherItems : Trees ModuleItem := ⟨fun item => ∀ d, item ≠ .importDecl d⟩

local instance (c : Class) : WellFormed (ModuleItem.component c) := ⟨nofun⟩
local instance (span : Span) : WellFormed (ModuleItem.defaultDecl span) := ⟨nofun⟩
local instance (span : Span) (stmt : Stmt) : WellFormed (ModuleItem.exportDecl span stmt) := ⟨nofun⟩
local instance (span : Span) : WellFormed (ModuleItem.moduleDecl span) := ⟨nofun⟩

variable (g : Grammar) [g.Sound] (start : Nat)

local instance : Reads (exportNames g start) := by unfold exportNames; exact .steps
local instance : Reads (exportAll g start) := by unfold exportAll; exact .steps
local instance : Reads (exportDefault g start) := by unfold exportDefault; exact .steps

/-- An export is no import. -/
theorem exportItem_fits {ctx : Context} (decorated : Bool) :
    Answers ctx (exportItem g start decorated) (ItemFits ctx) := by
  have hreads : Reads (exportItem g start decorated) := by unfold exportItem; exact .steps
  exact .of_yields (hreads.out.mono fun item hitem d hd => absurd hd (hitem d))

end

/-! ## Readers of imports -/

section

variable {ctx : Context}

theorem fits_next (s : State) : s.next.Past 0 := State.skipTo_past (Nat.zero_le _) _

theorem anyName_fits : Answers ctx anyName fun id => nameFits id.name = true := by
  intro s id s' hs hrun
  obtain ⟨w, escaped, htoken, rfl, rfl⟩ :=
    runs_anyName.1 (⟨id, s', hrun, rfl, rfl⟩ : Runs anyName ctx s fun a b => id = a ∧ s' = b)
  have hfits := hs.fits
  rw [htoken] at hfits
  exact ⟨fits_next s, hfits⟩

variable (hloud : ctx.quiet = false)
include hloud

/-- A name that is bound is one, or the word for the object itself. -/
theorem boundName_cases {s s' : State} {id : Ident} (hs : s.Past 0)
    (hrun : boundName ctx s = .ok (id, s')) : s'.Past 0 ∧
      (Bindable ctx id.name ∨
        s.token = .word "this" false ∧ id.name = "this" ∧ ctx.typed = true) := by
  have hruns := runs_boundName.1
    (⟨id, s', hrun, rfl, rfl⟩ : Runs boundName ctx s fun a b => id = a ∧ s' = b)
  split at hruns
  · next hthis =>
    obtain ⟨rfl, rfl⟩ := hruns
    exact ⟨fits_next s, .inr ⟨hthis.1, rfl, hthis.2⟩⟩
  · obtain ⟨w, escaped, htoken, hfree, -, hplain, rfl, rfl⟩ := runs_name.1 hruns
    have hfits := hs.fits
    rw [htoken] at hfits
    refine ⟨fits_next s, .inl ⟨hfits, hfree, ?_⟩⟩
    rw [hloud] at hplain
    simpa using hplain

theorem boundName_canBind : Answers ctx boundName fun id => CanBind ctx id.name :=
  fun _ _ _ hs hrun => (boundName_cases hloud hs hrun).imp_right fun h => h.imp_right And.right

/-- What is bound where a name was seen. -/
theorem boundName_bindable {s s' : State} {id : Ident} (hs : s.Past 0)
    (hname : nameToken ctx s.token = true) (hrun : boundName ctx s = .ok (id, s')) :
    s'.Past 0 ∧ Bindable ctx id.name := by
  obtain ⟨hs', hbind | ⟨hthis, -⟩⟩ := boundName_cases hloud hs hrun
  · exact ⟨hs', hbind⟩
  · rw [hthis] at hname
    cases hname

omit hloud in
theorem unrenamed_fits {allType isType : Bool} {id : Ident} (hfits : nameFits id.name = true)
    (hflag : isType = true → ctx.typed = true ∧ allType = false) :
    Answers ctx (unrenamed isType id) (NamedFits ctx allType) := by
  intro s spec s' hs hrun
  have hruns : Runs (unrenamed isType id) ctx s fun a b => spec = a ∧ s' = b :=
    ⟨spec, s', hrun, rfl, rfl⟩
  simp only [unrenamed, runs_bind, runs_read, runs_ite, runs_fault, runs_pure] at hruns
  split at hruns
  · cases hruns
  · next hfree =>
    obtain ⟨rfl, rfl⟩ := hruns
    exact ⟨hs, .plain hfits (by simpa using hfree) hflag⟩

/-- What follows a fault for a mark that cannot stand there. -/
theorem unlessAllType {α : Type} {allType : Bool} {span : Span} {cause : Cause} {p : Parse α}
    {Q : α → Prop} (h : allType = false → Answers ctx p Q) :
    Answers ctx (if allType = true then report span cause >>= fun _ => p else p) Q :=
  .ite (fun _ => (Answers.report hloud).bind fun _ => False.elim)
    fun hall => h (by simpa using hall)

theorem typeSpecifier_fits (allType : Bool) (htyped : ctx.typed = true) :
    Answers ctx (typeSpecifier allType) (NamedFits ctx allType) := by
  have hbound := boundName_canBind hloud
  have htype (third : Ident) (h : CanBind ctx third.name) :
      NamedFits ctx allType (.named false (some (.ident "type")) third.name) :=
    .renamed (by decide) h nofun
  have hflag (hall : allType = false) : true = true → ctx.typed = true ∧ allType = false :=
    fun _ => ⟨htyped, hall⟩
  refine .after fun span => anyName_fits.bind fun second hsecond => .ite (fun _ => ?_) fun _ => ?_
  · refine .after fun t => ?_
    split
    · refine hbound.bind fun third hthird => .ite (fun _ => .after fun t => ?_) fun _ => ?_
      · split
        · refine hbound.bind fun binds hbinds => unlessAllType hloud fun hall => .pure ?_
          exact .renamed hsecond hbinds (hflag hall)
        · exact .pure (htype third hthird)
      · exact .pure (htype third hthird)
    · refine unlessAllType hloud fun hall => .pure ?_
      exact .plain (by decide) rfl (hflag hall)
  · refine unlessAllType hloud fun hall => .after fun b => .ite (fun _ => ?_) fun _ => ?_
    · refine hbound.bind fun binds hbinds => .pure ?_
      exact .renamed hsecond hbinds (hflag hall)
    · exact unrenamed_fits hsecond (hflag hall)

theorem importSpecifier_fits (allType : Bool) :
    Answers ctx (importSpecifier allType) (NamedFits ctx allType) := by
  have hbound := boundName_canBind hloud
  refine .after fun t => ?_
  split
  · next value =>
    refine .after fun _ => .after fun _ => hbound.bind fun binds hbinds => .pure ?_
    exact .string value hbinds
  · refine anyName_fits.bind fun first hfirst => Answers.typed.bind fun isTyped hisTyped => ?_
    subst hisTyped
    have hplain : Answers ctx (do
        if ← eatWord "as" then
          let binds ← boundName
          return .named false (some (.ident first.name)) binds.name
        else unrenamed false first) (NamedFits ctx allType) := by
      refine .after fun b => .ite (fun _ => hbound.bind fun binds hbinds => .pure ?_) fun _ => ?_
      · exact .renamed hfirst hbinds (by rintro ⟨⟩)
      · exact unrenamed_fits hfirst (by rintro ⟨⟩)
    dsimp only
    refine .ite (fun htype => .after fun t => ?_) fun _ => hplain
    rw [Bool.and_eq_true] at htype
    split
    · exact typeSpecifier_fits hloud allType htype.2
    · exact hplain

theorem importClause_fits (allType : Bool) :
    Answers ctx (importClause allType) (ClauseFits ctx allType) := by
  refine .after fun b => .ite (fun _ => .after fun _ => ?_) fun _ => .after fun _ => ?_
  · exact (boundName_canBind hloud).bind fun binds hbinds => .pure (.everything hbinds)
  · refine (importSpecifier_fits hloud allType).commaList.bind fun x hx => ?_
    exact .pure (.names hx)

/-- The name that is bound by default can be, and an import of types stands in typed code. -/
theorem importDefault_fits : Answers ctx importDefault fun x =>
    (∀ id, x.1 = some id → Bindable ctx id.name) ∧ (x.2 = true → ctx.typed = true) := by
  intro s x s' hs hrun
  have hruns : Runs importDefault ctx s fun a b => x = a ∧ s' = b := ⟨x, s', hrun, rfl, rfl⟩
  rw [importDefault, runs_bind, runs_isName, runs_ite] at hruns
  split at hruns
  · obtain ⟨rfl, rfl⟩ := runs_pure.1 hruns
    exact ⟨hs, by rintro id ⟨⟩, by rintro ⟨⟩⟩
  · next hname =>
    obtain ⟨id, s₁, hid, hruns⟩ := runs_bind.1 hruns
    obtain ⟨hs₁, hbind⟩ := boundName_bindable hloud hs (by simpa using hname) hid
    simp only [runs_bind, runs_typed, runs_ite, runs_isPunctIn, runs_isName, runs_isWord,
      runs_nextToken, runs_pure, Bool.and_eq_true] at hruns
    have hsecond (htyped : ctx.typed = true) (hname : nameToken ctx s₁.token = true)
        (hruns : Runs boundName ctx s₁ fun a b => x = (some a, true) ∧ s' = b) :
        s'.Past 0 ∧ (∀ id, x.1 = some id → Bindable ctx id.name) ∧
          (x.2 = true → ctx.typed = true) := by
      obtain ⟨id', s₂, hid', rfl, rfl⟩ := hruns
      obtain ⟨hs₂, hbind'⟩ := boundName_bindable hloud hs₁ hname hid'
      exact ⟨hs₂, fun _ h => Option.some.inj h ▸ hbind', fun _ => htyped⟩
    have hfirst (h : x = (some id, false) ∧ s' = s₁) : s'.Past 0 ∧
        (∀ id, x.1 = some id → Bindable ctx id.name) ∧ (x.2 = true → ctx.typed = true) := by
      obtain ⟨rfl, rfl⟩ := h
      exact ⟨hs₁, fun _ h => Option.some.inj h ▸ hbind, by rintro ⟨⟩⟩
    split at hruns
    · next htype =>
      split at hruns
      · obtain ⟨rfl, rfl⟩ := hruns
        exact ⟨hs₁, by rintro id ⟨⟩, fun _ => htype.2⟩
      · split at hruns
        · next hname =>
          split at hruns
          · exact hsecond htype.2 hname hruns
          · split at hruns
            · exact hsecond htype.2 hname hruns
            · exact hfirst hruns
        · exact hfirst hruns
    · exact hfirst hruns

/-- An import that was read has the shape of one. -/
theorem importItem_fits (g : Grammar) [g.Sound] (start : Nat) :
    Answers ctx (importItem g start) (ItemFits ctx) := by
  have hend (isType : Bool) (first : Option Ident) (rest : List ImportSpecifier)
      (h : ImportFits ctx isType (first.toList.map (ImportSpecifier.default ·.name) ++ rest)) :
      Answers ctx (do
        let clause ← fromClause g
        let defaults := first.toList.map fun id => ImportSpecifier.default id.name
        return .importDecl ⟨← spanFrom start, isType, defaults ++ rest, clause.1, clause.2⟩)
        (ItemFits ctx) := by
    refine .after fun x => .after fun span => .pure ?_
    rintro d ⟨rfl⟩
    exact h
  refine .after fun _ => .after fun t => ?_
  split
  · refine .after fun _ => .after fun _ => .after fun _ => .after fun _ => .pure ?_
    rintro d ⟨rfl⟩
    exact .clause (by rintro ⟨⟩) (.names (List.forall_mem_nil _))
  · refine (importDefault_fits hloud).bind fun x hx => ?_
    obtain ⟨first, isType⟩ := x
    obtain ⟨hfirst, htyped⟩ := hx
    refine .after fun b => .after fun b' => .ite (fun _ => ?_) fun _ => ?_
    · refine .after fun _ => .after fun _ => .pure ?_
      rintro d ⟨⟩
    · cases first with
      | none =>
        refine (importClause_fits hloud isType).bind fun rest hrest => ?_
        exact hend isType none rest (.clause htyped hrest)
      | some id =>
        have hid := hfirst id rfl
        dsimp only
        refine .after fun b => .ite (fun _ => .ite (fun _ => ?_) fun hall => ?_) fun _ => ?_
        · exact .after fun span => (Answers.report hloud).bind fun _ => False.elim
        · obtain rfl : isType = false := by simpa using hall
          refine (importClause_fits hloud false).bind fun rest hrest => ?_
          exact hend false (some id) rest (.both hid hrest)
        · exact hend isType (some id) [] (.default htyped hid)

/-- The items of a module. -/
theorem moduleItem_fits (g : Grammar) [g.Sound] : Answers ctx (moduleItem g) (ItemFits ctx) := by
  have hstmt : Answers ctx (do return .stmt (← g.stmt true)) (ItemFits ctx) :=
    .after fun stmt => .pure nofun
  refine .after fun start => .after fun t => ?_
  split
  · refine .after fun t => ?_
    split
    · exact hstmt
    · exact hstmt
    · exact importItem_fits hloud g start
  · exact exportItem_fits g start false
  · refine .after fun exported => .ite (fun _ => .after fun _ => .after fun start => ?_) fun _ => ?_
    · exact exportItem_fits g start true
    · exact hstmt
  · exact hstmt

theorem moduleItems_fit (g : Grammar) [g.Sound] :
    Answers ctx (moduleItems g) fun items => ∀ item ∈ items, ItemFits ctx item := by
  refine Answers.collect (.after fun t => .ite (fun _ => .pure nofun) fun _ => ?_)
  refine (moduleItem_fits hloud g).bind fun item hitem => .pure ?_
  rintro _ ⟨rfl⟩
  exact hitem

end

end Parse

/-- The context of the items of a module. -/
def Lang.context (lang : Lang) : Context := { typed := lang.isTyped, tags := lang.hasTags }

open Parse in
/-- The imports of a module that was read have the shapes of imports. -/
theorem parseModule_imports {lang : Lang} {source : String} {items : List ModuleItem}
    (h : parseModule lang source = .ok items) {d : ImportDecl} (hd : .importDecl d ∈ items) :
    ImportFits lang.context d.isType d.specifiers := by
  simp only [parseModule, parseChars] at h
  generalize hrun : moduleItems _ _ _ = result at h
  cases result with
  | error fault => cases h
  | ok answer =>
    cases h
    refine (moduleItems_fit rfl _ _ _ _ ?_ hrun).2 _ hd d rfl
    exact State.at_past (Nat.zero_le _) (Nat.le_refl _) true _

end ScriptSetup.Script
