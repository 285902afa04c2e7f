import ScriptSetup.Script.SelfNames

/-!
# Trees of classes and modules

Only one class of a module is looked into, the one that is exported by default. Its tree and
that of the module are built from expressions and statements, so they are not part of the
recursion of `Script.Tree`.
-/

set_option autoImplicit false

namespace ScriptSetup.Script

/-- `@expr`, with the span from the `@` on. -/
structure Decorator where
  span : Span
  expr : Expr
  deriving Inhabited

/-- What kind of method a member is. -/
inductive MethodKind where
  | method | getter | setter
  deriving DecidableEq, Repr, Inhabited

/-- Members that nothing outside a class corresponds to. -/
inductive ClassOnly where
  | constructor
  /-- a constructor without a body -/
  | constructorSignature
  | privateMethod | privateField | indexSignature | staticBlock | autoAccessor
  deriving DecidableEq, Repr, Inhabited

/-- The member in words. -/
def ClassOnly.text : ClassOnly → String
  | constructor | constructorSignature => "constructor"
  | privateMethod => "private method"
  | privateField => "private field"
  | indexSignature => "index signature"
  | staticBlock => "static block"
  | autoAccessor => "auto accessor"

/-- Members of a class. -/
inductive Member where
  | field (span : Span) (decorators : List Decorator) (isReadonly : Bool) (key : Key)
      (type : Option TypeText) (value : Option Expr)
  /-- `paramDecorators` has one list for each parameter -/
  | method (span : Span) (decorators : List Decorator) (kind : MethodKind) (key : Key)
      (f : Func) (paramDecorators : List (List Decorator))
  /-- `inside` lists the self accesses in the member -/
  | classOnly (what : ClassOnly) (span : Span) (inside : List Ident)
  /-- a semicolon between members -/
  | empty
  deriving Inhabited

/-- A class. -/
structure Class where
  span : Span
  superClass : Option Expr
  members : List Member
  deriving Inhabited

/-- The name of an import or export in another module. -/
inductive ExportName where
  | ident (name : String)
  | string (value : String)
  deriving DecidableEq, Repr, Inhabited

/-- One name that an import binds. -/
inductive ImportSpecifier where
  | default (binds : String)
  | namespace (binds : String)
  | named (isType : Bool) (imported : Option ExportName) (binds : String)
  deriving DecidableEq, Repr, Inhabited

/-- An import declaration. -/
structure ImportDecl where
  span : Span
  isType : Bool
  specifiers : List ImportSpecifier
  source : StringLit
  /-- what stands in braces after `with` -/
  attributes : List Property
  deriving Inhabited

/-- Items of a module. -/
inductive ModuleItem where
  | importDecl (decl : ImportDecl)
  /-- the class that is exported by default -/
  | component (body : Class)
  /-- another declaration that is exported by default -/
  | defaultDecl (span : Span)
  | exportDecl (span : Span) (decl : Stmt)
  /-- any other import or export -/
  | moduleDecl (span : Span)
  | stmt (s : Stmt)
  deriving Inhabited

/-! ## Self accesses of members -/

/-- The accesses `this.n` inside decorators. -/
def decoratorsSelfNames (ds : List Decorator) : List Ident :=
  ds.flatMap fun d => d.expr.selfNames

/-- The accesses `this.n` inside parameters, each after its decorators. -/
def paramsSelfNames (decorators : List (List Decorator)) (params : List Pat) : List Ident :=
  (List.range params.length).flatMap fun i =>
    decoratorsSelfNames (decorators.getD i []) ++ (params.getD i .hole).selfNames

/-- The accesses `this.n` inside a member. -/
def Member.selfNames : Member → List Ident
  | field _ decorators _ key type value =>
    key.selfNames ++ (value.map Expr.selfNames).getD [] ++ TypeText.selfNamesOf type
      ++ decoratorsSelfNames decorators
  | method _ decorators _ key f paramDecorators =>
    key.selfNames ++ paramsSelfNames paramDecorators f.params ++ decoratorsSelfNames decorators
      ++ stmtsSelfNames f.body ++ TypeText.selfNamesOf f.typeParams
      ++ TypeText.selfNamesOf f.returnType
  | classOnly _ _ inside => inside
  | empty => []

end ScriptSetup.Script
