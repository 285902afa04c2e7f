import ScriptSetup.Proofs.Script.ImportSpelling
import ScriptSetup.Proofs.Setup.DocumentLayout

/-!
# Names of functions

The name of a method becomes the name of a function. A member may have any word for its name, a
function only one that can be bound, and nothing is reported. So no module starts with the text of
a function whose name cannot be bound, and what is written for a component of methods without
parameters and statements is a module exactly when all their names can be bound.
-/

set_option autoImplicit false

namespace ScriptSetup.Setup

open Script Script.Parse Component Written Text

variable {ctx : Context} {s : State} {g : Grammar} {lang : Lang} {depth fuel : Nat} {w : String}
  {ws : List String} {ts : List Token}

/-! ## Reading functions -/

theorem boundName_outcome (hloud : ctx.quiet = false) (hw : nameFits w = true)
    (hs : s.token = word w) :
    Outcome boundName ctx s (CanBind ctx w) fun _ s' => s' = s.next := by
  refine .of_iff (a := ⟨w, s.start, s.stop⟩) (fun Q => ⟨fun h => ?_, fun h => ?_⟩) fun _ => rfl
  · have hcan : CanBind ctx w := by
      rw [runs_boundName, runs_name, hs] at h
      by_contra hcan
      have hbind : ¬ Bindable ctx w := fun h => hcan (.inl h)
      grind [CanBind, Bindable]
    exact ⟨hcan, (runs_boundName_word hcan hs).1 h⟩
  · exact (runs_boundName_word h.1 hs).2 h.2

/-- A function is read from its name on. -/
theorem runs_functionDecl (hfunction : s.token = word "function") (hword : s.next.token = word w)
    {Q : Stmt → State → Prop} : Runs (Parse.functionDecl g) ctx s Q ↔
      Runs (do
        let name ← boundName
        let (f, _) ← function g {} s.start
        return .funcDecl name f) ctx s.next Q := by
  simp [Parse.functionDecl, functionHead, hfunction, hword]

/-- The tokens of a function without parameters and statements. -/
def functionTokens (w : String) : List Token :=
  [word "function", word w, .punct "(", .punct ")", .punct "\x7b", .punct "\x7d"]

theorem functionDecl_outcome (hw : nameFits w = true) (h : s.Tokens (functionTokens w ++ ts)) :
    Outcome (Parse.functionDecl g) lang.context s (CanBind lang.context w) fun _ s' =>
      s'.Tokens ts := by
  simp only [functionTokens, List.cons_append, List.nil_append, State.Tokens, Token.isValid,
    true_implies] at h
  obtain ⟨hfunction, -, hword, -, hopen, -, hclose, -, hbrace, -, hend, -, htokens⟩ := h
  have hparams : params g {} (lang.context.enter {}) s.next.next.next =
      .ok ([], s.next.next.next.next) :=
    eq_ok_of_runs (by simp [params, commaList, checkRest, hclose])
  have hblock : functionBlock g {} true lang.context s.next.next.next.next =
      .ok ([], s.next.next.next.next.next.next) :=
    eq_ok_of_runs (by simp [functionBlock, blockBody, collect, runs_repeatUpTo_succ, hbrace, hend])
  have hdeclare : lang.context.inDeclare = false := rfl
  have hbody : Runs (function g {} s.start) lang.context s.next.next fun _ s' => s'.Tokens ts := by
    simp only [function, typeParams?, returnType?, runs_bind, runs_typed, runs_isAngle, runs_ite,
      hopen, runs_expect, runs_pure, true_and, runs_withReader, runs_of_eq hparams, runs_isPunct,
      hbrace, runs_read, hdeclare, List.map_nil, List.all_nil, runs_of_eq hblock, runs_spanFrom]
    simpa using htokens
  have hname : Outcome boundName lang.context s.next _ _ := boundName_outcome rfl hw hword
  refine (hname.last fun id s' hs' => ?_).congr fun Q => runs_functionDecl hfunction hword
  obtain ⟨f, s'', hrun, hs''⟩ := hbody
  rw [hs', runs_bind, runs_of_eq hrun]
  exact runs_pure.2 hs''

/-- Reads the items of a module. -/
def moduleLoop (g : Grammar) (fuel : Nat) : Parse (List ModuleItem) :=
  repeatUpTo fuel do
    if (← token) == .eof then return none else return some (← moduleItem g)

theorem runs_moduleLoop_function (h : s.token = word "function")
    {Q : List ModuleItem → State → Prop} :
    Runs (moduleLoop (grammar (depth + 1)) (fuel + 1)) ctx s Q ↔
      Runs (do
        let stmt ← Parse.functionDecl (grammar depth)
        let items ← moduleLoop (grammar (depth + 1)) fuel
        return .stmt stmt :: items) ctx s Q := by
  have hstmt {Q : Stmt → State → Prop} : Runs ((grammar (depth + 1)).stmt true) ctx s Q ↔
      Runs (Parse.functionDecl (grammar depth)) ctx s Q := by
    show Runs (statement (grammar depth) true) ctx s Q ↔ _
    rw [statement, runs_bind, runs_here, runs_bind, runs_token, h]
    rfl
  rw [moduleLoop, runs_repeatUpTo_succ]
  simp [moduleItem, h, hstmt, moduleLoop]

/-- Functions without parameters and statements are a module when each name can be bound. -/
theorem moduleLoop_outcome (hws : ∀ w ∈ ws, nameFits w = true)
    (h : s.Tokens (ws.flatMap functionTokens ++ [.eof]))
    (hfuel : (ws.flatMap functionTokens).length < fuel) :
    Outcome (moduleLoop (grammar (depth + 1)) fuel) lang.context s
      (∀ w ∈ ws, CanBind lang.context w) fun _ _ => True := by
  induction ws generalizing s fuel with
  | nil =>
    obtain ⟨fuel, rfl⟩ := Nat.exists_eq_add_of_lt hfuel
    have heof : s.token = .eof := h.1
    refine .inl ⟨nofun, ?_⟩
    rw [moduleLoop, runs_repeatUpTo_succ]
    simp [heof]
  | cons w ws ih =>
    obtain ⟨fuel, rfl⟩ := Nat.exists_eq_add_one.2 (Nat.zero_lt_of_lt hfuel)
    have hfunction : s.token = word "function" := h.1
    rw [List.forall_mem_cons] at hws ⊢
    rw [List.flatMap_cons, List.append_assoc] at h
    refine ((functionDecl_outcome hws.1 h).bind fun stmt s' hs' => ?_).congr fun Q =>
      runs_moduleLoop_function hfunction
    refine (ih hws.2 hs' ?_).last fun _ _ _ => runs_pure.2 trivial
    rw [List.flatMap_cons, List.length_append, show (functionTokens w).length = 6 from rfl] at hfuel
    omega

theorem moduleItems_outcome (hws : ∀ w ∈ ws, nameFits w = true)
    (h : s.Tokens (ws.flatMap functionTokens ++ [.eof])) :
    Outcome (moduleItems (grammar (depth + 1))) lang.context s
      (∀ w ∈ ws, CanBind lang.context w) fun _ _ => True := by
  have hfuel := h.length_le
  rw [List.length_append] at hfuel
  have hfuel := Nat.lt_succ_of_le (Nat.le_trans (Nat.le_add_right _ _) hfuel)
  have hloop : Outcome (moduleLoop (grammar (depth + 1)) _) lang.context s _ _ :=
    moduleLoop_outcome hws h hfuel
  refine hloop.congr fun Q => ?_
  rw [moduleItems, collect, runs_bind, runs_get]
  rfl

/-- A text is a module when its items can be read. -/
theorem exists_parseModule_iff {text : String} {ok : Prop}
    {P : List ModuleItem → State → Prop} {cs : List Char} (htext : text.toList = cs)
    (hplain : skipHashbang (withoutMark cs) = (0, cs))
    (h : Outcome (moduleItems (grammar (8 * cs.length + 64))) lang.context
      (State.at 0 0 true cs) ok P) :
    (∃ items, parseModule lang text = .ok items) ↔ ok := by
  rw [parseModule_eq htext hplain]
  rcases h.run with ⟨hok, items, s', hrun, -⟩ | ⟨hstuck, fault, hrun⟩
  · rw [hrun]
    exact iff_of_true ⟨items, rfl⟩ hok
  · rw [hrun]
    exact iff_of_false nofun hstuck

/-! ## Texts of functions -/

theorem spells_function {after : List Char} (hw : nameFits w = true) (hend : endsWord after = true)
    (h : Spells after ts) :
    Spells ("function".toList ++ ' ' :: (w.toList ++ after)) (word "function" :: word w :: ts) := by
  have hname := h.word hw hend
  refine ((starts_word (by decide) rfl).spells ?_ fun _ => hname).1
  have hlength := hname.length
  rw [List.length_append, show "function".toList.length = 8 from rfl]
  omega

/-- The text of a function without parameters and statements. -/
def emptyFunctionText (w : String) : String := "function " ++ w ++ "() \x7b\x7d"

/-- Functions one below the other. -/
def functionsText (ws : List String) : String := Document.joinBody (ws.map emptyFunctionText)

theorem functionsText_front (ws : List String) :
    let cs := (functionsText ws).toList
    solid cs = true ∧ skipHashbang (withoutMark cs) = (0, cs) := by
  rw [functionsText]
  rcases ws with _ | ⟨w, _ | ⟨w', ws⟩⟩
  · exact ⟨rfl, rfl⟩
  all_goals
    simp only [List.map_cons, List.map_nil, Document.joinBody, emptyFunctionText,
      String.toList_append]
    exact ⟨rfl, rfl⟩

/-- Line ends before a text are skipped. -/
theorem spells_gap {gap : String} (hgap : gap = "\n" ∨ gap = "\n\n") {cs : List Char}
    (hcs : solid cs = true) (h : Spells cs ts) : Spells (gap.toList ++ cs) ts := by
  refine ⟨Nat.le_trans h.length (by simp), fun n m lineStart => ?_⟩
  obtain ⟨k, hk⟩ : ∃ k, skipTrivia .code 0 lineStart (gap.toList ++ cs) =
      skipTrivia .code k true cs := by
    rcases hgap with rfl | rfl
    · exact ⟨1, rfl⟩
    · exact ⟨2, rfl⟩
  have hat : State.at n m lineStart (gap.toList ++ cs) = State.at (n + k) m true cs := by
    simp only [State.at, hk, skipTrivia_solid hcs, Nat.add_zero]
  exact hat ▸ h.tokens _ _ _

theorem functionsText_spells (hws : ∀ w ∈ ws, nameFits w = true) :
    Spells (functionsText ws).toList (ws.flatMap functionTokens ++ [.eof]) := by
  have hone {w : String} {rest : List Char} {ts : List Token} (hw : nameFits w = true)
      (h : Spells rest ts) :
      Spells ((emptyFunctionText w).toList ++ rest) (functionTokens w ++ ts) := by
    have hbraces := h.mark (c := '\x7d') ⟨rfl, rfl, rfl⟩ |>.1.brace.mark (c := ')') ⟨rfl, rfl, rfl⟩
    have hparens := hbraces.1.mark (c := '(') ⟨rfl, rfl, rfl⟩
    simpa [emptyFunctionText, functionTokens] using spells_function hw rfl hparens.1
  induction ws with
  | nil => exact spells_end
  | cons w ws ih =>
    rw [List.forall_mem_cons] at hws
    cases ws with
    | nil => simpa [functionsText, Document.joinBody] using hone hws.1 spells_end
    | cons w' ws =>
      have hgap : Document.bodyGap (emptyFunctionText w) (emptyFunctionText w') = "\n" ∨
          Document.bodyGap (emptyFunctionText w) (emptyFunctionText w') = "\n\n" := by
        rw [Document.bodyGap]
        split <;> simp
      have hrest := spells_gap hgap (functionsText_front (w' :: ws)).1 (ih hws.2)
      simpa [functionsText, Document.joinBody] using hone hws.1 hrest

/-- The name of a method without parameters, types and statements. -/
def emptyMethod? : BodyItem → Option String
  | .method name (.mk _ false false none [] none true []) => some name
  | _ => none

/-- The names of the methods of a component that has nothing else, when all are without parameters,
types and statements. -/
def emptyMethods? (t : Tables) : Option (List String) :=
  match t with
  | ⟨[], [], [], [], [], [], [], _, body, _⟩ => body.mapM emptyMethod?
  | _ => none

theorem bodyText_emptyMethod {item : BodyItem} (h : emptyMethod? item = some w) (s : Scope) :
    bodyText s [] item = of (emptyFunctionText w) := by
  unfold emptyMethod? at h
  split at h
  · cases h
    refine congrArg of (String.toList_inj.1 ?_)
    show ("" ++ "function" ++ "" ++ " " ++ w ++
      ("" ++ "(" ++ "" ++ ")" ++ "" ++ " " ++ "\x7b\x7d")).toList = _
    simp [emptyFunctionText]
  · cases h

theorem all_bodyText_emptyMethods {items : List BodyItem} (h : items.mapM emptyMethod? = some ws)
    (s : Scope) :
    all (bodyText s []) items = of (ws.map emptyFunctionText) := by
  induction items generalizing ws with
  | nil =>
    cases h
    rfl
  | cons item items ih =>
    simp only [List.mapM_cons, Option.bind_eq_bind, Option.bind_eq_some_iff, Option.pure_def] at h
    obtain ⟨w, hw, ws, hws, ⟨⟩⟩ := h
    rw [all, bodyText_emptyMethod hw, ih hws]
    rfl

theorem trimEnd_functions (ws : List String) :
    trimEnd (Document.segmentText .body (ws.map emptyFunctionText)) = functionsText ws := by
  have hsolid : (ws.map emptyFunctionText).filter (!isBlank ·) = ws.map emptyFunctionText := by
    refine List.filter_eq_self.2 fun text htext => ?_
    obtain ⟨w, -, rfl⟩ := List.mem_map.1 htext
    simp [emptyFunctionText, isBlank_append, show isBlank "function " = false from rfl]
  have hend (w : String) (ws : List String) :
      ∃ before, functionsText (w :: ws) = before ++ "() \x7b\x7d" := by
    induction ws generalizing w with
    | nil => exact ⟨"function " ++ w, rfl⟩
    | cons w' ws ih =>
      obtain ⟨before, hbefore⟩ := ih w'
      refine ⟨emptyFunctionText w ++
        Document.bodyGap (emptyFunctionText w) (emptyFunctionText w') ++ before, ?_⟩
      rw [String.append_assoc, ← hbefore]
      rfl
  rw [Document.segmentText, hsolid]
  cases ws with
  | nil => rfl
  | cons w ws =>
    obtain ⟨before, hbefore⟩ := hend w ws
    show trimEnd (functionsText (w :: ws) ++ "\n") = _
    rw [trimEnd_append_blank _ rfl, hbefore, trimEnd_append_solid _ rfl]
    rfl

/-- A component of methods without parameters and statements is written as their functions. -/
theorem convertTables_emptyMethods {t : Tables} (h : emptyMethods? t = some ws)
    (source : List Char) (framework : String) :
    convertTables source framework t = ⟨functionsText ws, Finding.sortByStart t.findings⟩ := by
  unfold emptyMethods? at h
  split at h
  · next declared body findings =>
    have hparts (s : Scope) : writeParts s ⟨[], [], [], [], [], [], [], declared, body, findings⟩ =
        of ⟨[], [], [], [], ws.map emptyFunctionText, []⟩ := by
      rw [writeParts, all_bodyText_emptyMethods h]
      rfl
    rw [convertTables, hparts, ← trimEnd_functions]
    simp only [Document.render, segment_document, Segment.all, List.map_cons, List.map_nil, of,
      List.append_nil]
    refine congrArg (Converted.mk · _) (congrArg trimEnd ?_)
    show join "" ["", "", "", "", "", "", "", _] = _
    simp [join, segmentPieces]
  · cases h

/-! ## Modules of functions -/

/-- A function that is written as `function`, its name and its parameters. -/
structure IsPlainFunction (f : Func) : Prop where
  isAsync : f.isAsync = false
  isGenerator : f.isGenerator = false
  typeParams : f.typeParams = none

theorem exists_functionDecl_toList (s : Scope) (name : String) {f : Func}
    (hplain : IsPlainFunction f) :
    ∃ tail, (Setup.functionDecl s 0 name f).value.toList =
      "function".toList ++ ' ' :: (name.toList ++ '(' :: tail) := by
  obtain ⟨span, isAsync, isGenerator, typeParams, params, returnType, hasBody, body⟩ := f
  obtain ⟨rfl, rfl, rfl⟩ := hplain
  refine ⟨?_, ?_⟩
  rotate_left
  · show ("" ++ "function" ++ "" ++ " " ++ name ++ ("" ++ "(" ++ _ ++ _ ++ _ ++ _ ++ _)).toList = _
    simp only [String.toList_append, List.append_assoc]
    rfl

theorem moduleItems_stuck (hfits : nameFits w = true) (hname : ¬ CanBind lang.context w)
    (h : s.Tokens [word "function", word w]) :
    Outcome (moduleItems (grammar (depth + 1))) lang.context s False fun _ _ => True := by
  obtain ⟨hfunction, -, hnext⟩ := h
  have hword := (hnext rfl).1
  refine .inr ⟨id, fun Q hruns => ?_⟩
  rw [moduleItems, collect, runs_bind, runs_get] at hruns
  have hruns := (runs_moduleLoop_function hfunction).1 hruns
  rw [runs_bind, runs_functionDecl hfunction hword, runs_bind] at hruns
  exact (boundName_outcome rfl hfits hword).elim (fun h => hname h.1) fun h => h.2 _ hruns

/-- No module starts with a function whose name cannot be bound. -/
theorem not_parseModule_function {text : String} {rest : List Char} (hfits : nameFits w = true)
    (hname : ¬ CanBind lang.context w)
    (htext : text.toList = "function".toList ++ ' ' :: (w.toList ++ '(' :: rest)) :
    ¬ ∃ items, parseModule lang text = .ok items := by
  have hspells : Spells ("function".toList ++ ' ' :: (w.toList ++ '(' :: rest))
      [word "function", word w] := spells_function hfits rfl (spells_nil _)
  exact (exists_parseModule_iff htext rfl
    (moduleItems_stuck hfits hname (hspells.tokens 0 0 true))).1

/-- The text of a function whose name cannot be bound is written without a word about the name, and
no module starts with it. So the output for a component of methods without parameters and statements
is a module exactly when their names can be bound. -/
theorem functions_read_back_iff (lang : Lang) :
    (∀ (s : Scope) {name : String}, nameFits name = true → ¬ CanBind lang.context name →
      ∀ {f : Func}, IsPlainFunction f → ∀ rest : String,
        (Setup.functionDecl s 0 name f).findings = (funcText s " " 0 f).findings ∧
          ∀ items, parseModule lang ((Setup.functionDecl s 0 name f).value ++ rest) ≠ .ok items) ∧
    ∀ {source : String} {o : Options} {c : Converted}, convertScript source lang o = .ok c →
      ∀ {t : Tables}, scriptTables source lang o = .ok t →
      ∀ {names : List String}, emptyMethods? t = some names →
        (∀ name ∈ names, nameFits name = true) →
        c.findings = Finding.sortByStart t.findings ∧
          ((∃ items, parseModule lang c.code = .ok items) ↔
            ∀ name ∈ names, CanBind lang.context name) := by
  constructor
  · intro s name hfits hname f hplain rest
    refine ⟨List.append_nil _, fun items h => ?_⟩
    obtain ⟨tail, htail⟩ := exists_functionDecl_toList s name hplain
    have htext : ((Setup.functionDecl s 0 name f).value ++ rest).toList =
        "function".toList ++ ' ' :: (name.toList ++ '(' :: (tail ++ rest.toList)) := by
      rw [String.toList_append, htail]
      simp
    exact not_parseModule_function hfits hname htext ⟨items, h⟩
  · intro source o c hc t ht names hnames hfits
    obtain ⟨t', ht', rfl⟩ := convertScript_eq_ok.1 hc
    cases ht'.symm.trans ht
    rw [convertTables_emptyMethods hnames]
    exact ⟨rfl, exists_parseModule_iff rfl (functionsText_front names).2
      (moduleItems_outcome hfits ((functionsText_spells hfits).tokens 0 0 true))⟩

/-- A component of two methods. -/
def twoMethodsSource : String :=
  "@Component export default class A \x7b go() \x7b\x7d stop() \x7b\x7d \x7d"

/-- No function can be named `class`, and two methods are written as a module. -/
theorem two_functions_read_back :
    (∀ items, parseModule .typeScript ((Setup.functionDecl ⟨[], []⟩ 0 "class"
      (.mk ⟨0, 0⟩ false false none [] none true [])).value ++ "\n") ≠ .ok items) ∧
    ∃ c, convertScript twoMethodsSource .javaScript {} = .ok c ∧
      ∃ items, parseModule .javaScript c.code = .ok items := by
  obtain ⟨hunread, -⟩ := functions_read_back_iff .typeScript
  obtain ⟨-, hread⟩ := functions_read_back_iff .javaScript
  refine ⟨(hunread _ (by decide) (by decide) ⟨rfl, rfl, rfl⟩ _).2, ?_⟩
  obtain ⟨-, t, -, -, htables, hnames⟩ :=
    exists_tables twoMethodsSource .javaScript String.toList_ofList
      (fun _ _ t => emptyMethods? t = some ["go", "stop"]) (by decide +kernel)
  have hc := convertScript_eq_ok.2 ⟨t, htables, rfl⟩
  exact ⟨_, hc, (hread hc htables hnames (by decide)).2.2 (by decide)⟩

/-- A method named `delete` is converted without a finding, and the output is no module. -/
theorem method_named_delete_unread :
    convertScript "@Component export default class A \x7b delete() \x7b\x7d \x7d" .javaScript {} =
        .ok ⟨"function delete() \x7b\x7d", []⟩ ∧
      (parseModule .javaScript "function delete() \x7b\x7d").toOption = none := by
  refine ⟨eq_ok_of_toOption (by decide +kernel), ?_⟩
  decide +kernel

end ScriptSetup.Setup
