import ScriptSetup.Proofs.Script.TypeReaders

/-!
# Reading functions, classes and expressions

Two readers say more than their parts: `templateLit` gives a template with one more chunk than
expressions, and `superExpr` a call that `super` stands within, because reading goes forward.
-/

set_option autoImplicit false

namespace ScriptSetup.Script.Parse

variable (g : Grammar) [g.Sound] (start exprStart : Nat) (kind : FuncKind) (accessor : MethodKind)
  (noCall noComputed isOptional isAsync isPlain modified trailing : Bool) (id : Ident)
  (types result : Option TypeText) (e : Expr) [he : WellFormed e] (es : List Expr) [WellFormed es]
  (key : Key) [WellFormed key] (pat : Pat) [hpat : WellFormed pat] (pats : List Pat)
  [WellFormed pats] (head : MemberHead) [WellFormed head] (items : List ParenItem)
  [hitems : WellFormed items]

/-! ## Functions -/

instance : Reads (decorators g) := by unfold decorators; exact .steps

instance : Reads (typedPattern start pat isOptional types) := by
  refine Reads.bind inferInstance fun whole => ?_
  have h := hpat.out
  have htypes := allWellFormed_typeNodes types
  cases pat with
  | ident id _ _ => infer_instance
  | array span es _ | object span ps _ =>
    exact ⟨.pure (allWellFormed_append.2 ⟨(allWellFormed_append.1 h).1, htypes⟩)⟩
  | hole | rest _ _ _ | withDefault _ _ _ | expr _ => exact ⟨.pure h⟩

instance : Reads (plainParam g) := by unfold plainParam; exact .steps
instance : Reads (restParam g start) := by unfold restParam; exact .steps
instance : Reads eatFieldModifiers := by unfold eatFieldModifiers; exact .steps
instance : Reads (param g kind) := by unfold param; exact .steps
instance : Reads (checkRest start pats trailing) := by unfold checkRest; exact .steps
instance : Reads (params g kind) := by unfold params; exact .steps

theorem typedPattern_binds {p : Pat} (h : p.isBinding = true) :
    Yields (typedPattern start p isOptional types) fun p => p.isBinding = true := by
  refine Reads.then_yields fun whole => ?_
  cases p with
  | ident | array | object => exact .pure rfl
  | hole | rest | withDefault | expr => cases h

theorem isParam_of_isBinding {p : Pat} (h : p.isBinding = true) : p.isParam = true := by
  cases p with
  | ident | array | object => rfl
  | hole | rest | withDefault | expr => cases h

theorem plainParam_isParam : Yields (plainParam g) fun p => p.isParam = true := by
  refine Reads.then_yields fun start => Grammar.Sound.binds.bind fun p hp => ?_
  refine Reads.then_yields fun isTyped => ?_
  extract_lets typeAndDefault
  have htypeAndDefault (isOptional : Bool) :
      Yields (typeAndDefault isOptional) fun p => p.isParam = true := by
    refine Reads.then_yields fun type => ?_
    refine (typedPattern_binds start isOptional type hp).bind fun p hp => ?_
    refine Reads.then_yields fun hasDefault => ?_
    extract_lets default
    have hdefault (u : Unit) : Yields (default u) fun p => p.isParam = true :=
      Reads.then_yields fun value => Reads.then_yields fun span => .pure hp
    refine .ite (.ite ?_ (hdefault ())) (.pure (isParam_of_isBinding hp))
    exact Reads.then_yields fun _ => Reads.then_yields hdefault
  exact .ite (Reads.then_yields htypeAndDefault) (Reads.then_yields htypeAndDefault)

theorem restParam_isParam : Yields (restParam g start) fun p => p.isParam = true := by
  refine Grammar.Sound.binds.bind fun p hp => Reads.then_yields fun hasDefault => ?_
  extract_lets rest
  have hrest (u : Unit) : Yields (rest u) fun p => p.isParam = true := by
    refine Reads.then_yields fun type => Reads.then_yields fun span => ?_
    refine Reads.then_yields fun isTyped => Reads.then_yields fun isOptional => ?_
    exact .ite (Reads.then_yields fun _ => Reads.then_yields fun _ => .pure hp) (.pure hp)
  exact .ite (Reads.then_yields fun _ => Reads.then_yields hrest) (hrest ())

theorem param_isParam : Yields (param g kind) fun x => x.2.isParam = true := by
  refine Reads.then_yields fun decs => Reads.then_yields fun start => ?_
  refine Reads.then_yields fun isRest => .ite ?_ ?_
  · exact (restParam_isParam g start).bind fun p hp => .pure hp
  refine Reads.then_yields fun isTyped => ?_
  extract_lets plain
  have hplain (modified : Bool) : Yields (plain modified) fun x => x.2.isParam = true := by
    refine (plainParam_isParam g).bind fun p hp => .ite ?_ (.pure hp)
    refine Reads.then_yields fun span => ?_
    extract_lets checked
    have hchecked (u : Unit) : Yields (checked u) fun x => x.2.isParam = true := by
      dsimp only [checked]
      split
      · exact .pure rfl
      · exact .pure rfl
      · exact .fault
    exact .ite (Reads.then_yields hchecked) (hchecked ())
  refine .ite (Reads.then_yields hplain) (.ite ?_ ?_)
  · exact Reads.then_yields hplain
  · exact Reads.then_yields hplain

/-- What is read as parameters can stand there. -/
theorem params_areParams : Yields (params g kind) fun ps => ∀ p ∈ ps, p.2.isParam = true := by
  refine Reads.then_yields fun start => (param_isParam g kind).commaList.bind fun x hx => ?_
  exact Reads.then_yields fun _ => .pure hx

instance : Reads (blockBody g) := by unfold blockBody; exact .steps
instance : Reads (functionBlock g kind isPlain) := by unfold functionBlock; exact .steps

instance : Reads (function g kind start) := by
  refine Reads.bind inferInstance fun tps => Reads.bind_plain inferInstance fun _ => ⟨?_⟩
  have hparams := (inferInstance : Reads (params g kind)).out.and (params_areParams g kind)
  refine (hparams.withReader _).bind fun ps hps => (?_ : Reads _).out
  have : WellFormed ps := ⟨hps.1⟩
  have : AreParams (ps.map (·.2)) := ⟨List.forall_mem_map.2 hps.2⟩
  exact .steps

instance : Reads functionHead := by unfold functionHead; exact .steps
instance : Reads (functionDecl g) := by unfold functionDecl; exact .steps
instance : Reads (functionExpr g) := by unfold functionExpr; exact .steps

/-! ## Classes -/

instance : Reads isMethodNext := by unfold isMethodNext; exact .steps
instance : Reads isFieldNext := by unfold isFieldNext; exact .steps
instance : Reads (classKey g) := by unfold classKey; exact .steps

instance (span : Span) : Reads (checkAccessor accessor span pats) := by
  unfold checkAccessor
  exact .steps

instance : Reads (methodMember g head accessor kind key) := by
  unfold methodMember
  exact .steps

instance : Reads (constructorMember g head key) := by unfold constructorMember; exact .steps
instance : Reads (fieldMember g head isOptional key) := by unfold fieldMember; exact .steps
instance : Reads (namedMember g head) := by unfold namedMember; exact .steps
instance : Reads (staticBlock g head) := by unfold staticBlock; exact .steps
instance : Reads (memberModifiers head) := by unfold memberModifiers; exact .steps
instance : Reads (accessorModifier head) := by unfold accessorModifier; exact .steps
instance : Reads (memberAfterStatic g head) := by unfold memberAfterStatic; exact .steps
instance : Reads (memberNamed? g head id) := by unfold memberNamed?; exact .steps
instance : Reads eatAccess := by unfold eatAccess; exact .steps
instance : Reads (classMember g) := by unfold classMember; exact .steps
instance : Reads (heritage g) := by unfold heritage; exact .steps

instance : Reads (superClass g) := by
  have hclass (e : {e : Expr // wellFormed e}) : Reads (match e.1 with
      | .instantiation _ e _ => pure e
      | _ => pure e.1 : Parse Expr) := by
    obtain ⟨e, he⟩ := e
    dsimp only
    split
    · next e _ =>
      obtain ⟨hsound, -, he⟩ : _ ∧ _ ∧ AllWellFormed (exprNodes e) := by
        simpa only [exprNodes, allWellFormed_cons] using he.1
      exact ⟨.pure ⟨he, hsound.1⟩⟩
    · exact ⟨.pure he⟩
  unfold superClass
  exact .steps

instance : Reads (classMembers g) := by unfold classMembers; exact .steps
instance : Reads (classFrom g start) := by unfold classFrom; exact .steps

/-! ## Literals -/

instance : Reads (templateLit g) := by
  refine Reads.bind inferInstance fun start => ⟨?_⟩
  refine (templateParts_yields false g.expr).bind fun x hx => ?_
  refine (inferInstance : Reads (spanFrom start.1)).out.bind fun span _ => .pure ?_
  have : WellFormed x.2 := ⟨hx.2⟩
  exact ⟨allWellFormed_cons.2 ⟨hx.1, allWellFormed_exprsNodes⟩, nofun⟩

instance : Reads regexLit := by unfold regexLit; exact .steps
instance : Reads (spreadable g) := by unfold spreadable; exact .steps
instance : Reads (argumentList g) := by unfold argumentList; exact .steps
instance : Reads (arguments g) := by unfold arguments; exact .steps

instance : Reads (noteOpenSpread start) := by
  refine ⟨fun n ctx s a s' hs hrun => ?_⟩
  cases hrun
  exact ⟨⟨hs.reached, hs.prevStop_le, hs.start_le, hs.fits⟩, trivial⟩

/-- An element of an array may be missing. -/
theorem arrayElement_yields :
    Yields (arrayElement g) fun x? => ∀ x, x? = some x → AllWellFormed (exprNodes x.1) := by
  have hsome {x : Expr × Bool} (h : AllWellFormed (exprNodes x.1)) :
      ∀ y, some x = some y → AllWellFormed (exprNodes y.1) := fun _ hy => Option.some.inj hy ▸ h
  refine Reads.then_yields fun isEnd => .ite (.pure nofun) ?_
  refine Reads.then_yields fun isMissing => .ite (.pure (hsome ?_)) ?_
  · exact allWellFormed_cons.2 ⟨trivial, allWellFormed_nil⟩
  refine (inferInstance : Reads (spreadable g)).out.bind fun e he => ?_
  refine Reads.then_yields fun isLast => .ite (.pure (hsome he.1)) ?_
  exact Reads.then_yields fun _ => .pure (hsome he.1)

instance : Reads (arrayLit g) := by
  refine Reads.bind_plain inferInstance fun start => Reads.bind_plain inferInstance fun _ => ⟨?_⟩
  have helems : Yields (inBrackets (collect (arrayElement g))) fun elems =>
      ∀ x ∈ elems, AllWellFormed (exprNodes x.1) :=
    (Yields.get.bind fun _ _ => (arrayElement_yields g).repeatUpTo _).withReader _
  refine helems.bind fun elems helems => Reads.then_yields fun _ => ?_
  have harray (span : Span) : wellFormed (Expr.array span (elems.map (·.1))) := by
    refine ⟨allWellFormed_cons.2 ⟨trivial, ?_⟩, nofun⟩
    rw [exprsNodes_eq_flatMap, List.flatMap_map]
    exact allWellFormed_flatMap.2 helems
  extract_lets answer
  have hanswer (u : Unit) : Yields (answer u) wellFormed :=
    Reads.then_yields fun span => .pure (harray span)
  exact .ite (Reads.then_yields hanswer) (hanswer ())

instance : Reads (objectAccessor g start accessor) := by
  refine Reads.bind inferInstance fun key => Reads.bind_prod inferInstance fun f _ => ?_
  refine Reads.bind_plain inferInstance fun span => Reads.bind_plain inferInstance fun _ => ?_
  have hparams : wellFormed (f.1.params.filter fun p => !p.isThis) := WellFormed.out
  split
  · next p ps heq =>
    have : WellFormed p := ⟨hparams p (heq ▸ List.mem_cons_self)⟩
    infer_instance
  · infer_instance

instance : Reads (objectMethod g start kind key) := by unfold objectMethod; exact .steps

instance : Reads (propertyAfterName g start id modified) := by
  unfold propertyAfterName
  exact .steps

instance : Reads (objectProperty g) := by unfold objectProperty; exact .steps
instance : Reads (objectProperties g) := by unfold objectProperties; exact .steps
instance : Reads (objectLit g) := by unfold objectLit; exact .steps

/-! ## Parentheses and arrow functions -/

instance : Reads (condBranches g start e) := by unfold condBranches; exact .steps

instance : Reads (assignmentRest g start e) := by
  refine Reads.bind_plain inferInstance fun t => ?_
  split
  · split
    · refine ⟨(assignTarget_yields e _).bind fun target htarget => (?_ : Reads _).out⟩
      have : WellFormed target := ⟨htarget.1⟩
      have : target.IsSound := ⟨htarget.2⟩
      exact .steps
    · infer_instance
  · infer_instance

instance : Reads isOptionalMark := by unfold isOptionalMark; exact .steps

theorem wellFormed_of_spread {span : Span} {e : Expr}
    (h : AllWellFormed (exprNodes (.spread span e))) : wellFormed e :=
  have h := allWellFormed_cons.1 h
  ⟨h.2, h.1.1⟩

instance : Reads (paramFromExpr g start e isOptional) := by
  unfold paramFromExpr
  split
  next isRest inner heq =>
  have : WellFormed inner := by
    split at heq
    · cases heq
      exact ⟨wellFormed_of_spread he.out.1⟩
    · cases heq
      exact he
  exact .steps

instance : Reads (namedParenItem g start) := by unfold namedParenItem; exact .steps
instance : Reads (parenItem g) := by unfold parenItem; exact .steps

instance : Reads (paramsOfItems start items trailing) := by
  refine Reads.bind (Reads.mapM (fun item => ?_) items hitems.out) fun pats => ?_
  · obtain ⟨item, hitem⟩ := item
    dsimp only
    split
    · exact ⟨.pure hitem⟩
    · next span e =>
      have : WellFormed e := ⟨wellFormed_of_spread hitem.1⟩
      refine Reads.bind inferInstance fun p => ?_
      split
      · infer_instance
      · infer_instance
    · next e _ =>
      have : WellFormed e := ⟨hitem⟩
      infer_instance
  · exact .steps

instance : Reads (arrowBody g start isAsync types pats result) := by unfold arrowBody; exact .steps
instance : Reads arrowMark := by unfold arrowMark; exact .steps

instance : Reads (exprsOfItems items) := by
  refine Reads.mapM (fun item => ?_) items hitems.out
  obtain ⟨item, hitem⟩ := item
  dsimp only
  split
  · exact ⟨.pure hitem⟩
  · infer_instance

instance : Reads (arrowInCond? g start exprStart isAsync items trailing) := by
  unfold arrowInCond?
  exact .steps

instance : Reads (arrowType? g) := by unfold arrowType?; exact .steps

instance : Reads (parenthesized start items trailing) := by
  refine Reads.bind_plain inferInstance fun span => Reads.bind inferInstance fun es => ?_
  have hparen : Reads (match es.1 with
      | [e] => pure (.paren span e)
      | es =>
        pure (.paren span (.seq ⟨(es.head?.map (·.span.start)).getD start,
          (es.getLast?.map (·.span.stop)).getD start⟩ es)) : Parse Expr) := by
    split
    · next e heq =>
      have : WellFormed e := ⟨es.2 e (heq ▸ List.mem_cons_self)⟩
      infer_instance
    · infer_instance
  exact .steps

instance : Reads (parenOrArrow g none) := by unfold parenOrArrow; exact .steps

instance [id.IsFree] : Reads (parenOrArrow g (some id)) := by
  unfold parenOrArrow
  exact .steps

instance (span : Span) : Ident.IsFree ⟨"async", span⟩ :=
  ⟨show FreeWord "async" from ⟨by decide, by decide, by decide⟩⟩

instance : Reads (genericAsyncArrow? g) := by unfold genericAsyncArrow?; exact .steps

/-! ## Elements -/

instance : Reads tagWord := by unfold tagWord; exact .steps
instance : Reads tagName := by unfold tagName; exact .steps

instance (quote : Char) (cs : List Char) : Reads (attributeText quote cs) := by
  unfold attributeText
  exact .steps

instance : Reads (bracedExpr g) := by unfold bracedExpr; exact .steps
instance : Reads (attributeValue g) := by unfold attributeValue; exact .steps
instance : Reads (tagAttribute g) := by unfold tagAttribute; exact .steps
instance : Reads elementText := by unfold elementText; exact .steps
instance : Reads isClosingTag := by unfold isClosingTag; exact .steps
instance : Reads (elementChildren g) := by unfold elementChildren; exact .steps
instance (name : String) : Reads (closingTag name) := by unfold closingTag; exact .steps
instance : Reads (element g) := by unfold element; exact .steps

/-! ## Expressions -/

instance : Reads binaryOp? := by unfold binaryOp?; exact .steps
instance : Reads typeArgsEndHere := by unfold typeArgsEndHere; exact .steps
instance : Reads (memberLink start e key) := by unfold memberLink; exact .steps
instance : Reads (callLink start e types es) := by unfold callLink; exact .steps
instance : Reads dotKey := by unfold dotKey; exact .steps
instance : Reads (bracketKey g) := by unfold bracketKey; exact .steps
instance : Reads (taggedTemplate g start e types) := by unfold taggedTemplate; exact .steps
instance : Reads (optionalLink g start e) := by unfold optionalLink; exact .steps
instance : Reads (typeArgsLink? g noCall start e) := by unfold typeArgsLink?; exact .steps
instance : Reads (link? g noCall noComputed start e) := by unfold link?; exact .steps
instance : Reads (links g noCall noComputed start e) := by unfold links; exact .steps
instance : Reads (classExpr g) := by unfold classExpr; exact .steps

instance : Reads (nameOrArrow g) := by
  refine Reads.bind_plain inferInstance fun start => Reads.bind_plain inferInstance fun ctx => ?_
  refine Reads.bind_name fun id hid => ?_
  exact .steps

instance : Reads (asyncExpr g) := by unfold asyncExpr; exact .steps

instance : Reads (primary g) := by
  refine Reads.bind_plain inferInstance fun span => ⟨token_yields.bind fun t ht => ?_⟩
  refine (?_ : Reads _).out
  split
  case h_4 | h_5 | h_6 =>
    refine Reads.bind_plain inferInstance fun _ => ⟨.pure ⟨?_, nofun⟩⟩
    exact allWellFormed_cons.2 ⟨ht, allWellFormed_nil⟩
  all_goals exact .steps

/-- The call of `super` goes on at least as far as that word. -/
theorem superCall_triple (stop : Nat) :
    Triple (State.Past stop) (do
      let args ← arguments g
      return Expr.superCall (← spanFrom start) ⟨start, stop⟩ types args)
    fun e s => s.Past stop ∧ wellFormed e := by
  refine ((inferInstance : Reads (arguments g)).out stop).bind fun args => ?_
  intro ctx s e s' hs hrun
  cases hrun
  have : WellFormed args := ⟨hs.2⟩
  have hsuper : (⟨start, stop⟩ : Span).Within ⟨start, s.prevStop⟩ := ⟨Nat.le_refl _, hs.1.reached⟩
  refine ⟨hs.1, ?_⟩
  simpa [wellFormed, exprNodes, Node.WellFormed, Expr.Sound] using hsuper

instance : Reads (superExpr g noCall) := by
  refine ⟨fun n => Triple.get.bind fun s₀ => ?_⟩
  intro ctx s e s' hs hrun
  obtain ⟨rfl, hs⟩ := hs
  have hn : n ≤ s₀.stop := Nat.le_trans hs.reached (Nat.le_trans hs.prevStop_le hs.start_le)
  -- what follows stands behind the word `super`
  suffices h : s'.Past s₀.stop ∧ wellFormed e from ⟨h.1.mono hn, h.2⟩
  refine (?_ : Triple (fun s => s.stop = s₀.stop) _ fun e s => s.Past s₀.stop ∧ wellFormed e)
    ctx s₀ e s' rfl hrun
  refine (expectWord_triple s₀.stop "super").bind fun _ => ?_
  refine Reads.bind_triple inferInstance fun t => ?_
  split
  · exact (inferInstance : Reads _).out s₀.stop
  · exact (inferInstance : Reads _).out s₀.stop
  · cases noCall with
    | false => exact superCall_triple g s₀.start none s₀.stop
    | true => exact Triple.unexpected.bind fun _ => superCall_triple g s₀.start none s₀.stop
  · refine Reads.bind_triple inferInstance fun _ => Reads.bind_triple inferInstance fun _ => ?_
    split
    · refine Reads.bind_triple inferInstance fun types => ?_
      exact superCall_triple g s₀.start (some types.1) s₀.stop
    · exact Triple.unexpected

instance : Reads (importExpr g noCall) := by unfold importExpr; exact .steps
instance : Reads (newTargetMeta start) := by unfold newTargetMeta; exact .steps
instance : Reads (newOperand g) := by unfold newOperand; exact .steps
instance : Reads (newExpr g) := by unfold newExpr; exact .steps
instance : Reads (innerNew g) := by unfold innerNew; exact .steps
instance : Reads (leftHand g) := by unfold leftHand; exact .steps

instance : Reads (decoration g) := by unfold decoration; exact .steps
instance : Reads (awaitExpr g) := by unfold awaitExpr; exact .steps
instance : Reads (checkDelete e) := by unfold checkDelete; exact .steps
instance : Reads (typeAssertion g) := by unfold typeAssertion; exact .steps
instance : Reads (unaryExpr g) := by unfold unaryExpr; exact .steps

instance (op : BinaryOp) (left right : Expr) : Reads (checkNullish op left right) := by
  unfold checkNullish
  exact .steps

instance : Reads (castRest g start e) := by unfold castRest; exact .steps

instance (fuel least : Nat) : Reads (binaryRest g start fuel least e) := by
  induction fuel generalizing start least e with
  | zero | succ fuel ih => unfold binaryRest; exact .steps

instance : Reads (binaryExpr g) := by unfold binaryExpr; exact .steps
instance : Reads (condExpr g) := by unfold condExpr; exact .steps
instance : Reads (yieldExpr g) := by unfold yieldExpr; exact .steps
instance : Reads (plainAssignExpr g) := by unfold plainAssignExpr; exact .steps

instance (tps : TypeText) : WellFormed (e.withTypeParams tps) := by
  have h := he.out
  cases e
  case arrow | arrowExpr =>
    refine ⟨fun e' he' => ?_⟩
    obtain rfl := Option.some.inj he'
    simp_all [wellFormed, exprNodes, Node.WellFormed, Expr.Sound]
  all_goals exact ⟨nofun⟩

instance : Reads (genericArrow? g) := by unfold genericArrow?; exact .steps
instance : Reads (assignExpr g) := by unfold assignExpr; exact .steps
instance : Reads (commaExpr g) := by unfold commaExpr; exact .steps

end ScriptSetup.Script.Parse
