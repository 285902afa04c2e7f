import ScriptSetup.Proofs.Script.ExpressionReaders

/-!
# Reading modules

The readers of declarations, statements and items, and the whole grammar: every tree that
`parseModule` gives is well formed.
-/

set_option autoImplicit false

namespace ScriptSetup.Script

namespace Parse

variable (g : Grammar) [g.Sound] (start : Nat) (kind : VarKind) (pats : List Pat) (head : ForHead)
  [hhead : WellFormed head] (isDeclare isOf isItem allType decorated : Bool)

/-! ## Declarations -/

instance : Reads (declarator g) := by unfold declarator; exact .steps
instance : Reads (checkInitialized kind pats) := by unfold checkInitialized; exact .steps
instance : Reads varKind := by unfold varKind; exact .steps
instance : Reads (declarators g) := by unfold declarators; exact .steps
instance : Reads (varStmt g start isDeclare) := by unfold varStmt; exact .steps
instance : Reads (usingDeclarators g) := by unfold usingDeclarators; exact .steps
instance : Reads (usingStmt g) := by unfold usingStmt; exact .steps
instance : Reads isUsing := by unfold isUsing; exact .steps
instance : Reads (classDecl g start) := by unfold classDecl; exact .steps
instance : Reads (enumMember g) := by unfold enumMember; exact .steps
instance : Reads (enumDecl g start) := by unfold enumDecl; exact .steps

instance (id : Ident) : WellFormed (selfAccessStmt id) := by unfold selfAccessStmt; infer_instance

instance : Reads (interfaceDecl g start) := by unfold interfaceDecl; exact .steps
instance : Reads (typeAliasDecl g start) := by unfold typeAliasDecl; exact .steps
instance : Reads (namespaceBody g) := by unfold namespaceBody; exact .steps
instance : Reads (namespaceDecl g start) := by unfold namespaceDecl; exact .steps
instance : Reads (typedDecl? g start) := by unfold typedDecl?; exact .steps
instance : Reads (declared? g start) := by unfold declared?; exact .steps
instance : Reads (typedOrDeclared? g) := by unfold typedOrDeclared?; exact .steps

/-! ## Statements -/

instance : Reads (parenExpr g) := by unfold parenExpr; exact .steps
instance : Reads (loopBody g) := by unfold loopBody; exact .steps
instance : Reads (ifStmt g start) := by unfold ifStmt; exact .steps
instance : Reads (switchCase g) := by unfold switchCase; exact .steps
instance : Reads (switchStmt g start) := by unfold switchStmt; exact .steps
instance : Reads (catchParam g) := by unfold catchParam; exact .steps
instance : Reads (tryStmt g start) := by unfold tryStmt; exact .steps
instance : Reads (whileStmt g start) := by unfold whileStmt; exact .steps
instance : Reads (doStmt g start) := by unfold doStmt; exact .steps
instance : Reads (forInit g) := by unfold forInit; exact .steps

instance : Reads (iterationHead isOf head) := by
  have h := hhead.out
  unfold iterationHead
  cases head with
  | none => exact .steps
  | varDecl span kind ds | usingDecl span ds =>
    have : WellFormed ds := wellFormed_of_patsNodes h
    obtain _ | ⟨d, _ | ⟨d', ds⟩⟩ := ds <;> exact .steps
  | pat p =>
    cases p with
    | expr e =>
      have : WellFormed (Pat.expr e) := ⟨h⟩
      exact .steps
    | _ => exact ⟨.pure h⟩

instance : Reads (checkForInit head) := by
  unfold checkForInit
  exact .steps

instance : Reads (forStmt g start) := by unfold forStmt; exact .steps
instance : Reads jumpLabel := by unfold jumpLabel; exact .steps
instance : Reads (breakStmt start) := by unfold breakStmt; exact .steps
instance : Reads (continueStmt start) := by unfold continueStmt; exact .steps
instance : Reads (returnStmt g start) := by unfold returnStmt; exact .steps
instance : Reads (throwStmt g start) := by unfold throwStmt; exact .steps
instance : Reads (labeledStmt g start) := by unfold labeledStmt; exact .steps
instance : Reads (exprStmt g start) := by unfold exprStmt; exact .steps
instance : Reads (decoratedClass g start) := by unfold decoratedClass; exact .steps
instance : Reads (nameStmt g isItem start) := by unfold nameStmt; exact .steps

instance {α : Type} [Trees α] : Reads (noDeclaration : Parse α) := by
  unfold noDeclaration
  exact .steps

instance (w : String) : Reads (wordStmt g isItem start w) := by unfold wordStmt; exact .steps
instance : Reads (statement g isItem) := by unfold statement; exact .steps

/-! ## Imports, exports and items -/

instance : Reads (importAttributes g) := by unfold importAttributes; exact .steps
instance : Reads (fromClause g) := by unfold fromClause; exact .steps

instance (isType : Bool) (id : Ident) : Reads (unrenamed isType id) := by
  unfold unrenamed
  exact .steps

instance : Reads (typeSpecifier allType) := by unfold typeSpecifier; exact .steps
instance : Reads (importSpecifier allType) := by unfold importSpecifier; exact .steps
instance : Reads (importClause allType) := by unfold importClause; exact .steps
instance : Reads importAlias := by unfold importAlias; exact .steps
instance : Reads importDefault := by unfold importDefault; exact .steps
instance : Reads (importItem g start) := by unfold importItem; exact .steps
instance : Reads exportName := by unfold exportName; exact .steps
instance : Reads exportedAs := by unfold exportedAs; exact .steps
instance : Reads exportSpecifier := by unfold exportSpecifier; exact .steps
instance : Reads (exportNames g start) := by unfold exportNames; exact .steps
instance : Reads (exportAll g start) := by unfold exportAll; exact .steps
instance : Reads (exportDefault g start) := by unfold exportDefault; exact .steps
instance : Reads (exportedDecl? g) := by unfold exportedDecl?; exact .steps
instance : Reads (exportItem g start decorated) := by unfold exportItem; exact .steps
instance : Reads (moduleItem g) := by unfold moduleItem; exact .steps

instance : Reads (namespaceItem g) := by
  refine Reads.bind inferInstance fun item => ?_
  obtain ⟨item, hitem⟩ := item
  dsimp only
  split
  · next stmt =>
    have : WellFormed stmt := ⟨hitem.1⟩
    infer_instance
  · next span stmt =>
    have : WellFormed stmt := ⟨hitem.1⟩
    infer_instance
  · infer_instance

instance : Reads (moduleItems g) := by unfold moduleItems; exact .steps

end Parse

open Parse

variable {items : List ModuleItem} {lang : Lang} {source : String}

/-! ## The grammar -/

/-- The grammar is sound at every depth. -/
instance grammar_sound (depth : Nat) : (grammar depth).Sound := by
  induction depth with
  | zero =>
    constructor
    case binds => exact Reads.then_yields fun _ => .fault
    all_goals
      intros
      unfold grammar
      exact .steps
  | succ depth ih =>
    exact
      { assign := inferInstanceAs (Reads (assignExpr (grammar depth)))
        expr := inferInstanceAs (Reads (commaExpr (grammar depth)))
        binary := inferInstanceAs (Reads (binaryExpr (grammar depth)))
        unary := inferInstanceAs (Reads (unaryExpr (grammar depth)))
        leftHand := inferInstanceAs (Reads (Parse.leftHand (grammar depth)))
        newTarget := inferInstanceAs (Reads (innerNew (grammar depth)))
        element := inferInstanceAs (Reads (Parse.element (grammar depth)))
        decoration := inferInstanceAs (Reads (Parse.decoration (grammar depth)))
        stmt := fun isItem => inferInstanceAs (Reads (statement (grammar depth) isItem))
        item := inferInstanceAs (Reads (namespaceItem (grammar depth)))
        binding := inferInstanceAs (Reads (bindingPattern (grammar depth)))
        binds := bindingPattern_binds (grammar depth)
        type := inferInstanceAs (Reads (anyType (grammar depth)))
        plainType := inferInstanceAs (Reads (Parse.plainType (grammar depth))) }

theorem moduleItems_wellFormed {depth offset : Nat} {ctx : Context} {cs : List Char}
    {answer : List ModuleItem × State}
    (h : moduleItems (grammar depth) ctx (State.at offset offset true cs) = .ok answer) :
    wellFormed answer.1 := by
  have hstart := State.at_past (Nat.zero_le offset) (Nat.le_refl offset) true cs
  exact ((inferInstance : Reads (moduleItems (grammar depth))).out 0 _ _ _ _ hstart h).2

theorem parseModule_items (h : parseModule lang source = .ok items) : wellFormed items := by
  simp only [parseModule, parseChars] at h
  generalize hrun : moduleItems _ _ _ = result at h
  cases result with
  | error fault => cases h
  | ok answer =>
    cases h
    exact moduleItems_wellFormed hrun

/-- Every node of a module that is read is well formed. -/
theorem parseModule_wellFormed (h : parseModule lang source = .ok items) :
    AllWellFormed (moduleNodes items) :=
  allWellFormed_flatMap.2 fun item hitem => (parseModule_items h item hitem).1

/-- What the methods of a module take are parameters. -/
theorem parseModule_params (h : parseModule lang source = .ok items) :
    ∀ item ∈ items, ∀ p ∈ itemParams item, p.isParam = true := fun item hitem =>
  (parseModule_items h item hitem).2

end ScriptSetup.Script
