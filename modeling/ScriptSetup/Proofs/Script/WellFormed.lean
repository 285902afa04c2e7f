import ScriptSetup.Proofs.Script.Nodes
import ScriptSetup.Script.Grammar.Module

/-!
# Well-formed trees

Some facts about trees do not follow from their types, such as that the name of a value is no
reserved word. Missing expressions stand only among the elements of an array.

What a reader gives may be a tree, a list of trees with some flags, or no tree at all. `Trees` says
for each such type when a value is well formed. `WellFormed` is the same as a class, so that
instances can say how well-formed values are put together.
-/

set_option autoImplicit false

namespace ScriptSetup.Script

/-- All nodes are well formed. -/
def AllWellFormed (ns : List Node) : Prop :=
  ∀ n ∈ ns, n.WellFormed

section

variable {n : Node} {ns ns' : List Node}

@[simp] theorem allWellFormed_nil : AllWellFormed [] := fun _ => nofun

@[simp] theorem allWellFormed_cons :
    AllWellFormed (n :: ns) ↔ n.WellFormed ∧ AllWellFormed ns :=
  List.forall_mem_cons

@[simp] theorem allWellFormed_append :
    AllWellFormed (ns ++ ns') ↔ AllWellFormed ns ∧ AllWellFormed ns' :=
  List.forall_mem_append

@[simp] theorem allWellFormed_flatMap {α : Type} {as : List α} {f : α → List Node} :
    AllWellFormed (as.flatMap f) ↔ ∀ a ∈ as, AllWellFormed (f a) := by
  simp only [AllWellFormed, List.mem_flatMap, forall_exists_index, and_imp]
  exact forall_comm.trans (forall_congr' fun a => forall_comm)

@[simp] theorem allWellFormed_typeNodes (t : Option TypeText) : AllWellFormed (typeNodes t) := by
  cases t with
  | none => exact allWellFormed_nil
  | some t => exact allWellFormed_cons.2 ⟨trivial, allWellFormed_nil⟩

end

/-! ## Values with trees inside -/

/-- Values that may have trees inside. -/
class Trees (α : Type) where
  /-- the trees inside are well formed -/
  wellFormed : α → Prop

export Trees (wellFormed)

/-- The trees inside a value are well formed. -/
class WellFormed {α : Type} [Trees α] (a : α) : Prop where
  out : wellFormed a

/-- Values without trees inside. -/
class NoTrees (α : Type) : Prop

instance {α : Type} [NoTrees α] : Trees α := ⟨fun _ => True⟩

/-- All values of the type are well formed. -/
class AlwaysWellFormed (α : Type) [Trees α] : Prop where
  out : ∀ a : α, wellFormed a

section

variable {α β : Type} [Trees α] [Trees β]

instance : Trees (List α) := ⟨fun as => ∀ a ∈ as, wellFormed a⟩

instance : Trees (Option α) := ⟨fun a? => ∀ a, a? = some a → wellFormed a⟩

instance : Trees (α × β) := ⟨fun x => wellFormed x.1 ∧ wellFormed x.2⟩

instance {α : Type} [NoTrees α] : AlwaysWellFormed α := ⟨fun _ => trivial⟩

instance [AlwaysWellFormed α] : AlwaysWellFormed (List α) :=
  ⟨fun _ a _ => AlwaysWellFormed.out a⟩

instance [AlwaysWellFormed α] : AlwaysWellFormed (Option α) :=
  ⟨fun _ a _ => AlwaysWellFormed.out a⟩

instance [AlwaysWellFormed α] [AlwaysWellFormed β] : AlwaysWellFormed (α × β) :=
  ⟨fun _ => ⟨AlwaysWellFormed.out _, AlwaysWellFormed.out _⟩⟩

instance [AlwaysWellFormed α] (a : α) : WellFormed a := ⟨AlwaysWellFormed.out a⟩

instance (a : {a : α // wellFormed a}) : WellFormed a.1 := ⟨a.2⟩

/-! ### Pairs, options and lists -/

instance (a : α) (b : β) [ha : WellFormed a] [hb : WellFormed b] : WellFormed (a, b) :=
  ⟨ha.out, hb.out⟩

instance (x : α × β) [hx : WellFormed x] : WellFormed x.1 := ⟨hx.out.1⟩

instance (x : α × β) [hx : WellFormed x] : WellFormed x.2 := ⟨hx.out.2⟩

instance (c : Prop) [Decidable c] (a b : α) [ha : WellFormed a] [hb : WellFormed b] :
    WellFormed (if c then a else b) := by
  split
  · exact ha
  · exact hb

instance : WellFormed (none : Option α) := ⟨nofun⟩

instance (a : α) [ha : WellFormed a] : WellFormed (some a) :=
  ⟨fun _ h => Option.some.inj h ▸ ha.out⟩

instance : WellFormed ([] : List α) := ⟨fun _ => nofun⟩

instance (a : α) (as : List α) [ha : WellFormed a] [has : WellFormed as] : WellFormed (a :: as) :=
  ⟨List.forall_mem_cons.2 ⟨ha.out, has.out⟩⟩

instance (as bs : List α) [has : WellFormed as] [hbs : WellFormed bs] : WellFormed (as ++ bs) :=
  ⟨List.forall_mem_append.2 ⟨has.out, hbs.out⟩⟩

instance (as : List α) (p : α → Bool) [has : WellFormed as] : WellFormed (as.filter p) :=
  ⟨fun a ha => has.out a (List.mem_filter.1 ha).1⟩

instance (as : List (Option α)) [has : WellFormed as] : WellFormed (as.filterMap id) := by
  refine ⟨fun a ha => ?_⟩
  obtain ⟨a?, hmem, h⟩ := List.mem_filterMap.1 ha
  exact has.out a? hmem a h

instance (as : List (List α)) [has : WellFormed as] : WellFormed as.flatten := by
  refine ⟨fun a ha => ?_⟩
  obtain ⟨as', hmem, h⟩ := List.mem_flatten.1 ha
  exact has.out as' hmem a h

instance (as : List α) (f : α → β) [has : WellFormed as]
    [hf : ∀ a : {a : α // wellFormed a}, WellFormed (f a.1)] : WellFormed (as.map f) := by
  refine ⟨fun b hb => ?_⟩
  obtain ⟨a, hmem, rfl⟩ := List.mem_map.1 hb
  exact (hf ⟨a, has.out a hmem⟩).out

end

instance : NoTrees Unit where
instance : NoTrees Bool where
instance : NoTrees Nat where
instance : NoTrees String where
instance : NoTrees Span where
instance : NoTrees Ident where
instance : NoTrees StringLit where
instance : NoTrees TypeText where
instance : NoTrees Token where
instance : NoTrees Context where
instance : NoTrees State where
instance : NoTrees FuncKind where
instance : NoTrees VarKind where
instance : NoTrees BinaryOp where
instance : NoTrees PatternMode where
instance : NoTrees ImportSpecifier where
instance : NoTrees (ForInStep Unit) where

/-! ## Trees -/

instance : Trees Expr := ⟨fun e => AllWellFormed (exprNodes e) ∧ e ≠ .hole⟩
instance : Trees Key := ⟨fun key => AllWellFormed (keyNodes key)⟩
instance : Trees Property := ⟨fun p => AllWellFormed (propertyNodes p)⟩
instance : Trees Func :=
  ⟨fun f => AllWellFormed (funcNodes f) ∧ ∀ p ∈ f.params, p.isParam = true⟩
instance : Trees Pat := ⟨fun p => AllWellFormed (patNodes p)⟩
instance : Trees PatProperty := ⟨fun p => AllWellFormed (patPropertyNodes p)⟩
instance : Trees Stmt := ⟨fun stmt => AllWellFormed (stmtNodes stmt)⟩
instance : Trees Case := ⟨fun c => AllWellFormed (casesNodes [c])⟩
instance : Trees ForHead := ⟨fun head => AllWellFormed (headNodes head)⟩
instance : Trees Decorator := ⟨fun d => wellFormed d.expr⟩
instance : Trees MemberHead := ⟨fun head => wellFormed head.decorators⟩
instance : Trees Member :=
  ⟨fun m => AllWellFormed (memberNodes m) ∧ ∀ p ∈ memberParams m, p.isParam = true⟩
instance : Trees Class := ⟨fun c => wellFormed c.superClass ∧ wellFormed c.members⟩
instance : Trees ModuleItem :=
  ⟨fun item => AllWellFormed (itemNodes item) ∧ ∀ p ∈ itemParams item, p.isParam = true⟩

/-- All of them can stand as parameters. -/
class AreParams (ps : List Pat) : Prop where
  out : ∀ p ∈ ps, p.isParam = true

/-- The same of what is assigned to. -/
class Pat.IsSound (p : Pat) : Prop where
  out : p.Sound

/-- What stands in parentheses is well formed. -/
def ParenItem.IsWellFormed : ParenItem → Prop
  | .expr e => wellFormed e
  | .param p => wellFormed p

instance : Trees ParenItem := ⟨ParenItem.IsWellFormed⟩

section

variable {span superSpan : Span} {id : Ident} {name : Option Ident} {e e' e'' : Expr}
  {e? e?' : Option Expr} {es : List Expr} {key : Key} {prop : Property} {props : List Property}
  {f : Func} {pat : Pat} {pat? : Option Pat} {pats : List Pat} {patProp : PatProperty}
  {patProps : List PatProperty} {stmt stmt' : Stmt} {body body' body'' : List Stmt}
  {cases : List Case} {head : ForHead} {t : TypeText} {t? t?' : Option TypeText} {b b' b'' : Bool}
  {decs : List Decorator} {text text' : String} {lit : StringLit} {op : UnaryOp}
  {updateOp : UpdateOp} {binaryOp : BinaryOp} {assignOp : AssignOp} {metaKind : MetaKind}
  {varKind : VarKind} {typeKind : TypeDeclKind}
  [he : WellFormed e] [he' : WellFormed e'] [he'' : WellFormed e''] [he? : WellFormed e?]
  [he?' : WellFormed e?'] [hes : WellFormed es] [hkey : WellFormed key] [hprop : WellFormed prop]
  [hprops : WellFormed props] [hf : WellFormed f] [hpat : WellFormed pat] [hpat? : WellFormed pat?]
  [hpats : WellFormed pats] [hpatProp : WellFormed patProp] [hpatProps : WellFormed patProps]
  [hstmt : WellFormed stmt] [hstmt' : WellFormed stmt'] [hbody : WellFormed body]
  [hbody' : WellFormed body'] [hbody'' : WellFormed body''] [hcases : WellFormed cases]
  [hhead : WellFormed head] [hdecs : WellFormed decs]

/-! ### Nodes of well-formed trees -/

@[simp] theorem allWellFormed_exprNodes : AllWellFormed (exprNodes e) := he.out.1

@[simp] theorem ne_hole : e ≠ .hole := he.out.2

@[simp] theorem expr_sound : e.Sound := he.out.1 _ e.mem_exprNodes

@[simp] theorem allWellFormed_exprsNodes : AllWellFormed (exprsNodes es) := by
  rw [exprsNodes_eq_flatMap]
  exact allWellFormed_flatMap.2 fun e he => (hes.out e he).1

@[simp] theorem allWellFormed_optionNodes : AllWellFormed (optionNodes e?) := by
  cases e? with
  | none => exact allWellFormed_nil
  | some e => exact (he?.out e rfl).1

@[simp] theorem allWellFormed_keyNodes : AllWellFormed (keyNodes key) := hkey.out

@[simp] theorem allWellFormed_propertiesNodes : AllWellFormed (propertiesNodes props) := by
  rw [propertiesNodes_eq_flatMap]
  exact allWellFormed_flatMap.2 hprops.out

@[simp] theorem allWellFormed_funcNodes : AllWellFormed (funcNodes f) := hf.out.1

@[simp] theorem allWellFormed_patNodes : AllWellFormed (patNodes pat) := hpat.out

@[simp] theorem allWellFormed_patsNodes : AllWellFormed (patsNodes pats) := by
  rw [patsNodes_eq_flatMap]
  exact allWellFormed_flatMap.2 hpats.out

theorem wellFormed_of_patsNodes {ps : List Pat} (h : AllWellFormed (patsNodes ps)) :
    WellFormed ps := by
  rw [patsNodes_eq_flatMap] at h
  exact ⟨allWellFormed_flatMap.1 h⟩

@[simp] theorem allWellFormed_patPropertiesNodes :
    AllWellFormed (patPropertiesNodes patProps) := by
  rw [patPropertiesNodes_eq_flatMap]
  exact allWellFormed_flatMap.2 hpatProps.out

@[simp] theorem allWellFormed_stmtNodes : AllWellFormed (stmtNodes stmt) := hstmt.out

@[simp] theorem allWellFormed_stmtsNodes : AllWellFormed (stmtsNodes body) := by
  rw [stmtsNodes_eq_flatMap]
  exact allWellFormed_flatMap.2 hbody.out

@[simp] theorem allWellFormed_paramNodes : AllWellFormed (paramNodes pat?) := by
  cases pat? with
  | none => exact allWellFormed_nil
  | some pat => exact hpat?.out pat rfl

@[simp] theorem allWellFormed_casesNodes : AllWellFormed (casesNodes cases) := by
  rw [casesNodes_eq_flatMap]
  exact allWellFormed_flatMap.2 hcases.out

@[simp] theorem allWellFormed_headNodes : AllWellFormed (headNodes head) := hhead.out

/-! ### Expressions -/

attribute [local simp] wellFormed exprNodes Node.WellFormed Expr.Sound Pat.Sound keyNodes
  propertyNodes patNodes patPropertyNodes stmtNodes casesNodes headNodes

instance : WellFormed (Expr.this span) := ⟨by simp⟩

instance [hid : id.IsFree] : WellFormed (Expr.ident id) :=
  ⟨by simpa using hid⟩

instance : WellFormed (Expr.bool span b) := ⟨by simp⟩
instance : WellFormed (Expr.null span) := ⟨by simp⟩
instance : WellFormed (Expr.regex span text text') := ⟨by simp⟩
instance : WellFormed (Expr.taggedTemplate span e t? es) := ⟨by simp⟩
instance : WellFormed (Expr.spread span e) := ⟨by simp⟩
instance : WellFormed (Expr.array span es) := ⟨by simp⟩
instance : WellFormed (Expr.object span props) := ⟨by simp⟩
instance : WellFormed (Expr.func name f) := ⟨by simp⟩
instance : WellFormed (Expr.classExpr name span) := ⟨by simp⟩
instance : WellFormed (Expr.arrow span b t? pats t?' body) := ⟨by simp⟩
instance : WellFormed (Expr.arrowExpr span b t? pats t?' e) := ⟨by simp⟩
instance : WellFormed (Expr.unary span op e) := ⟨by simp⟩
instance : WellFormed (Expr.update span updateOp b e) := ⟨by simp⟩
instance : WellFormed (Expr.binary span binaryOp e e') := ⟨by simp⟩
instance [h : pat.IsSound] : WellFormed (Expr.assign span assignOp pat e) :=
  ⟨by simpa using h.out⟩
instance : WellFormed (Expr.cond span e e' e'') := ⟨by simp⟩
instance : WellFormed (Expr.seq span es) := ⟨by simp⟩
instance : WellFormed (Expr.paren span e) := ⟨by simp⟩
instance : WellFormed (Expr.member span e key) := ⟨by simp⟩
instance : WellFormed (Expr.superMember span key) := ⟨by simp⟩
instance : WellFormed (Expr.call span e t? es) := ⟨by simp⟩
instance : WellFormed (Expr.importCall span es) := ⟨by simp⟩
instance : WellFormed (Expr.new span e es) := ⟨by simp⟩
instance : WellFormed (Expr.chainMember span b e key) := ⟨by simp⟩
instance : WellFormed (Expr.chainCall span b e t? es) := ⟨by simp⟩
instance : WellFormed (Expr.yield span b e?) := ⟨by simp⟩
instance : WellFormed (Expr.await span e) := ⟨by simp⟩
instance : WellFormed (Expr.metaProperty span metaKind) := ⟨by simp⟩
instance : WellFormed (Expr.privateName id) := ⟨by simp⟩
instance : WellFormed (Expr.typeAssertion span t e) := ⟨by simp⟩
instance : WellFormed (Expr.constAssertion span e) := ⟨by simp⟩
instance : WellFormed (Expr.asType span e t) := ⟨by simp⟩
instance : WellFormed (Expr.satisfiesType span e t) := ⟨by simp⟩
instance : WellFormed (Expr.nonNull span e) := ⟨by simp⟩
instance : WellFormed (Expr.instantiation span e t) := ⟨by simp⟩
instance : WellFormed (Expr.jsx span es) := ⟨by simp⟩

/-! ### Keys, properties, functions and patterns -/

instance : WellFormed (Key.ident id) := ⟨by simp⟩
instance : WellFormed (Key.string lit) := ⟨by simp⟩
instance : WellFormed (Key.number span text) := ⟨by simp⟩
instance : WellFormed (Key.bigint span text) := ⟨by simp⟩
instance : WellFormed (Key.computed span e) := ⟨by simp⟩
instance : WellFormed (Key.privateName id) := ⟨by simp⟩
instance : WellFormed (Property.spread span e) := ⟨by simp⟩
instance : WellFormed (Property.shorthand id) := ⟨by simp⟩
instance : WellFormed (Property.keyValue key e) := ⟨by simp⟩
instance : WellFormed (Property.initialized id e) := ⟨by simp⟩
instance : WellFormed (Property.getter span key t? body) := ⟨by simp⟩
instance : WellFormed (Property.setter span key pat body) := ⟨by simp⟩
instance : WellFormed (Property.method span key f) := ⟨by simp⟩

instance [h : AreParams pats] : WellFormed (Func.mk span b b' t? pats t?' b'' body) :=
  ⟨by simp [funcNodes], h.out⟩

instance : WellFormed (Pat.hole) := ⟨by simp⟩
instance : WellFormed (Pat.ident id b t?) := ⟨by simp⟩
instance : WellFormed (Pat.array span pats t?) := ⟨by simp⟩
instance : WellFormed (Pat.object span patProps t?) := ⟨by simp⟩
instance : WellFormed (Pat.rest span pat t?) := ⟨by simp⟩
instance : WellFormed (Pat.withDefault span pat e) := ⟨by simp⟩
instance : WellFormed (Pat.expr e) := ⟨by simp⟩
instance : WellFormed (PatProperty.keyValue key pat) := ⟨by simp⟩
instance : WellFormed (PatProperty.shorthand span id e?) := ⟨by simp⟩
instance : WellFormed (PatProperty.rest span pat) := ⟨by simp⟩

/-! ### Statements -/

instance : WellFormed (Stmt.block span body) := ⟨by simp⟩
instance : WellFormed (Stmt.empty span) := ⟨by simp⟩
instance : WellFormed (Stmt.debugger span) := ⟨by simp⟩
instance : WellFormed (Stmt.return span e?) := ⟨by simp⟩
instance : WellFormed (Stmt.labeled span id stmt) := ⟨by simp⟩
instance : WellFormed (Stmt.break span name) := ⟨by simp⟩
instance : WellFormed (Stmt.continue span name) := ⟨by simp⟩
instance : WellFormed (Stmt.ifThen span e stmt) := ⟨by simp⟩
instance : WellFormed (Stmt.ifElse span e stmt stmt') := ⟨by simp⟩
instance : WellFormed (Stmt.switch span e cases) := ⟨by simp⟩
instance : WellFormed (Stmt.throw span e) := ⟨by simp⟩
instance : WellFormed (Stmt.tryCatch span body pat? body') := ⟨by simp⟩
instance : WellFormed (Stmt.tryFinally span body body') := ⟨by simp⟩
instance : WellFormed (Stmt.tryCatchFinally span body pat? body' body'') := ⟨by simp⟩
instance : WellFormed (Stmt.while span e stmt) := ⟨by simp⟩
instance : WellFormed (Stmt.doWhile span stmt e) := ⟨by simp⟩
instance : WellFormed (Stmt.for span head e? e?' stmt) := ⟨by simp⟩
instance : WellFormed (Stmt.forIn span head e stmt) := ⟨by simp⟩
instance : WellFormed (Stmt.forOf span b head e stmt) := ⟨by simp⟩
instance : WellFormed (Stmt.expr span e) := ⟨by simp⟩
instance : WellFormed (Stmt.withObject span e stmt) := ⟨by simp⟩
instance : WellFormed (Stmt.varDecl span b varKind pats) := ⟨by simp⟩
instance : WellFormed (Stmt.funcDecl id f) := ⟨by simp⟩
instance : WellFormed (Stmt.classDecl id span) := ⟨by simp⟩
instance : WellFormed (Stmt.usingDecl span pats) := ⟨by simp⟩
instance : WellFormed (Stmt.typeDecl typeKind span body) := ⟨by simp⟩
instance : WellFormed (Case.mk e? body) := ⟨by simp⟩
instance : WellFormed (ForHead.none) := ⟨by simp⟩
instance : WellFormed (ForHead.varDecl span varKind pats) := ⟨by simp⟩
instance : WellFormed (ForHead.usingDecl span pats) := ⟨by simp⟩
instance : WellFormed (ForHead.pat pat) := ⟨by simp⟩

/-! ### Parts of functions -/

instance : WellFormed f.params := by
  obtain ⟨_, _, _, _, ps, _, _, _⟩ := f
  have h := hf.out.1
  simp only [funcNodes, allWellFormed_append, patsNodes_eq_flatMap,
    allWellFormed_flatMap] at h
  exact ⟨h.1.1.2⟩

instance : WellFormed f.body := by
  obtain ⟨_, _, _, _, _, _, _, body⟩ := f
  have h := hf.out.1
  simp only [funcNodes, allWellFormed_append, stmtsNodes_eq_flatMap,
    allWellFormed_flatMap] at h
  exact ⟨h.2⟩

/-! ### Classes and modules -/

instance : WellFormed (Decorator.mk span e) := ⟨he.out⟩

instance (start : Nat) (isDeclare hasAccess isStatic isAbstract isOverride isReadonly
    isAccessor : Bool) : WellFormed (MemberHead.mk start decs isDeclare hasAccess isStatic
      isAbstract isOverride isReadonly isAccessor) :=
  ⟨hdecs.out⟩

instance (head : MemberHead) [h : WellFormed head] : WellFormed head.decorators := ⟨h.out⟩

theorem allWellFormed_decoratorsNodes : AllWellFormed (decoratorsNodes decs) :=
  allWellFormed_flatMap.2 fun d hd => (hdecs.out d hd).1

instance : WellFormed (Member.field span decs b key t? e?) :=
  ⟨by simp [memberNodes, allWellFormed_decoratorsNodes], fun _ => nofun⟩

instance (kind : MethodKind) (paramDecs : List (List Decorator)) [h : WellFormed paramDecs] :
    WellFormed (Member.method span decs kind key f paramDecs) := by
  have hparams : ∀ ds ∈ paramDecs, AllWellFormed (decoratorsNodes ds) := fun ds hds =>
    allWellFormed_flatMap.2 fun d hd => (h.out ds hds d hd).1
  exact ⟨by simpa [memberNodes, allWellFormed_decoratorsNodes] using hparams, hf.out.2⟩

instance (what : ClassOnly) (inside : List Ident) :
    WellFormed (Member.classOnly what span inside) :=
  ⟨allWellFormed_nil, fun _ => nofun⟩

instance : WellFormed Member.empty := ⟨allWellFormed_nil, fun _ => nofun⟩

instance (members : List Member) [h : WellFormed members] : WellFormed (Class.mk span e? members) :=
  ⟨he?.out, h.out⟩

instance (c : Class) [h : WellFormed c] : WellFormed (ModuleItem.component c) := by
  have : WellFormed c.superClass := ⟨h.out.1⟩
  have hmembers : ∀ m ∈ c.members, AllWellFormed (memberNodes m) := fun m hm => (h.out.2 m hm).1
  refine ⟨by simpa [itemNodes] using hmembers, fun p hp => ?_⟩
  obtain ⟨m, hm, hp⟩ := List.mem_flatMap.1 hp
  exact (h.out.2 m hm).2 p hp

instance (decl : ImportDecl) : WellFormed (ModuleItem.importDecl decl) :=
  ⟨allWellFormed_nil, fun _ => nofun⟩

instance : WellFormed (ModuleItem.defaultDecl span) := ⟨allWellFormed_nil, fun _ => nofun⟩

instance : WellFormed (ModuleItem.moduleDecl span) := ⟨allWellFormed_nil, fun _ => nofun⟩

instance : WellFormed (ModuleItem.exportDecl span stmt) := ⟨hstmt.out, fun _ => nofun⟩

instance : WellFormed (ModuleItem.stmt stmt) := ⟨hstmt.out, fun _ => nofun⟩

instance : WellFormed (ParenItem.expr e) := ⟨he.out⟩

instance : WellFormed (ParenItem.param pat) := ⟨hpat.out⟩

end

end ScriptSetup.Script
