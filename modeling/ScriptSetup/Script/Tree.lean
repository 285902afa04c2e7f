import ScriptSetup.Text.Span

/-!
# Syntax trees of a logic block

The tree of a module, as far as the conversion looks at it. Every node knows the bytes it
was read from. Three things are kept short on purpose:

* a type is a `TypeText`: types are copied, never looked into;
* a class that is not the component is its name and place: nothing in it is converted;
* an element written with tags is its place and the expressions inside it.

An element list (of an array or of arguments) is a list of expressions, where
`Expr.spread` and `Expr.hole` stand for `...e` and for an omitted element, and a declarator
with an initial value is a pattern with a default.
-/

set_option autoImplicit false

namespace ScriptSetup.Script

/-- A name and where it stands. -/
structure Ident where
  name : String
  span : Span
  deriving DecidableEq, Repr, Inhabited

/-- A string literal: the text it denotes, with U+FFFD for half of a surrogate pair, and how
it is written, quotes included. -/
structure StringLit where
  span : Span
  value : String
  raw : String
  deriving DecidableEq, Repr, Inhabited

/-- A type (or a list of type arguments or parameters) in the source, and the names `n` read
through `this.n` in computed member names inside it. -/
structure TypeText where
  span : Span
  selfNames : List Ident
  deriving DecidableEq, Repr, Inhabited

/-- Operators before an operand. -/
inductive UnaryOp where
  | minus | plus | not | bitNot | typeOf | void | delete
  deriving DecidableEq, Repr, Inhabited

/-- `++` and `--`. -/
inductive UpdateOp where
  | increment | decrement
  deriving DecidableEq, Repr, Inhabited

/-- Operators between two operands. -/
inductive BinaryOp where
  | eq | ne | strictEq | strictNe | lt | le | gt | ge
  | shiftLeft | shiftRight | shiftRightZero
  | add | sub | mul | div | mod | exp
  | bitOr | bitXor | bitAnd | logicalOr | logicalAnd | nullish
  | inside | instanceOf
  deriving DecidableEq, Repr, Inhabited

/-- Operators of an assignment. -/
inductive AssignOp where
  | assign | add | sub | mul | div | mod | exp
  | shiftLeft | shiftRight | shiftRightZero
  | bitOr | bitXor | bitAnd | logicalAnd | logicalOr | nullish
  deriving DecidableEq, Repr, Inhabited

/-- The keyword of a variable declaration. -/
inductive VarKind where
  | var | let | const
  deriving DecidableEq, Repr, Inhabited

/-- `new.target` and `import.meta`. -/
inductive MetaKind where
  | newTarget | importMeta
  deriving DecidableEq, Repr, Inhabited

/-- Declarations that are copied as written. -/
inductive TypeDeclKind where
  | interface | alias | enum | namespace
  deriving DecidableEq, Repr, Inhabited

namespace UnaryOp

/-- The operator as written. -/
def text : UnaryOp → String
  | minus => "-"
  | plus => "+"
  | not => "!"
  | bitNot => "~"
  | typeOf => "typeof"
  | void => "void"
  | delete => "delete"

end UnaryOp

namespace UpdateOp

/-- The operator as written. -/
def text : UpdateOp → String
  | increment => "++"
  | decrement => "--"

end UpdateOp

namespace BinaryOp

/-- The operator as written. -/
def text : BinaryOp → String
  | eq => "=="
  | ne => "!="
  | strictEq => "==="
  | strictNe => "!=="
  | lt => "<"
  | le => "<="
  | gt => ">"
  | ge => ">="
  | shiftLeft => "<<"
  | shiftRight => ">>"
  | shiftRightZero => ">>>"
  | add => "+"
  | sub => "-"
  | mul => "*"
  | div => "/"
  | mod => "%"
  | exp => "**"
  | bitOr => "|"
  | bitXor => "^"
  | bitAnd => "&"
  | logicalOr => "||"
  | logicalAnd => "&&"
  | nullish => "??"
  | inside => "in"
  | instanceOf => "instanceof"

/-- How tightly the operator binds; a larger number binds tighter. -/
def precedence : BinaryOp → Nat
  | logicalOr | nullish => 1
  | logicalAnd => 2
  | bitOr => 3
  | bitXor => 4
  | bitAnd => 5
  | eq | ne | strictEq | strictNe => 6
  | lt | le | gt | ge | inside | instanceOf => 7
  | shiftLeft | shiftRight | shiftRightZero => 8
  | add | sub => 9
  | mul | div | mod => 10
  | exp => 11

/-- All operators, in declaration order. -/
def all : List BinaryOp :=
  [eq, ne, strictEq, strictNe, lt, le, gt, ge, shiftLeft, shiftRight, shiftRightZero,
    add, sub, mul, div, mod, exp, bitOr, bitXor, bitAnd, logicalOr, logicalAnd, nullish,
    inside, instanceOf]

/-- The operator with this text. -/
def ofText? (s : String) : Option BinaryOp :=
  all.find? fun op => op.text == s

end BinaryOp

namespace AssignOp

/-- The operator as written. -/
def text : AssignOp → String
  | assign => "="
  | add => "+="
  | sub => "-="
  | mul => "*="
  | div => "/="
  | mod => "%="
  | exp => "**="
  | shiftLeft => "<<="
  | shiftRight => ">>="
  | shiftRightZero => ">>>="
  | bitOr => "|="
  | bitXor => "^="
  | bitAnd => "&="
  | logicalAnd => "&&="
  | logicalOr => "||="
  | nullish => "??="

/-- All operators, in declaration order. -/
def all : List AssignOp :=
  [assign, add, sub, mul, div, mod, exp, shiftLeft, shiftRight, shiftRightZero, bitOr,
    bitXor, bitAnd, logicalAnd, logicalOr, nullish]

/-- The operator with this text. -/
def ofText? (s : String) : Option AssignOp :=
  all.find? fun op => op.text == s

end AssignOp

/-- The keyword as written. -/
def VarKind.text : VarKind → String
  | .var => "var"
  | .let => "let"
  | .const => "const"

/-! ## The tree -/

mutual

/-- Expressions. -/
inductive Expr where
  | this (span : Span)
  | ident (id : Ident)
  | string (lit : StringLit)
  | number (span : Span) (raw : String)
  | bigint (span : Span) (raw : String)
  | bool (span : Span) (value : Bool)
  | null (span : Span)
  | regex (span : Span) (pattern flags : String)
  /-- one more chunk than expressions -/
  | template (span : Span) (chunks : List String) (exprs : List Expr)
  | taggedTemplate (span : Span) (tag : Expr) (typeArgs : Option TypeText) (exprs : List Expr)
  /-- an omitted array element -/
  | hole
  /-- `...e` among array elements or arguments -/
  | spread (span : Span) (arg : Expr)
  | array (span : Span) (elems : List Expr)
  | object (span : Span) (props : List Property)
  | func (name : Option Ident) (f : Func)
  | classExpr (name : Option Ident) (span : Span)
  /-- an arrow function with a block -/
  | arrow (span : Span) (isAsync : Bool) (typeParams : Option TypeText) (params : List Pat)
      (returnType : Option TypeText) (body : List Stmt)
  /-- an arrow function whose body is an expression -/
  | arrowExpr (span : Span) (isAsync : Bool) (typeParams : Option TypeText) (params : List Pat)
      (returnType : Option TypeText) (body : Expr)
  | unary (span : Span) (op : UnaryOp) (arg : Expr)
  | update (span : Span) (op : UpdateOp) (isBefore : Bool) (arg : Expr)
  | binary (span : Span) (op : BinaryOp) (left right : Expr)
  | assign (span : Span) (op : AssignOp) (target : Pat) (value : Expr)
  | cond (span : Span) (test cons alt : Expr)
  | seq (span : Span) (exprs : List Expr)
  | paren (span : Span) (inner : Expr)
  | member (span : Span) (obj : Expr) (prop : Key)
  | superMember (span : Span) (prop : Key)
  | call (span : Span) (callee : Expr) (typeArgs : Option TypeText) (args : List Expr)
  | superCall (span superSpan : Span) (typeArgs : Option TypeText) (args : List Expr)
  | importCall (span : Span) (args : List Expr)
  | new (span : Span) (callee : Expr) (args : List Expr)
  /-- a link of an optional chain; `isOptional` where `?.` is written -/
  | chainMember (span : Span) (isOptional : Bool) (obj : Expr) (prop : Key)
  | chainCall (span : Span) (isOptional : Bool) (callee : Expr) (typeArgs : Option TypeText)
      (args : List Expr)
  | yield (span : Span) (delegate : Bool) (arg : Option Expr)
  | await (span : Span) (arg : Expr)
  | metaProperty (span : Span) (kind : MetaKind)
  | privateName (id : Ident)
  /-- `<T>e` -/
  | typeAssertion (span : Span) (type : TypeText) (arg : Expr)
  | constAssertion (span : Span) (arg : Expr)
  | asType (span : Span) (arg : Expr) (type : TypeText)
  | satisfiesType (span : Span) (arg : Expr) (type : TypeText)
  | nonNull (span : Span) (arg : Expr)
  /-- `e<T>` without a call -/
  | instantiation (span : Span) (arg : Expr) (typeArgs : TypeText)
  | jsx (span : Span) (inside : List Expr)

/-- How a property is named, in a literal, a pattern, a class or an access. -/
inductive Key where
  | ident (id : Ident)
  | string (lit : StringLit)
  | number (span : Span) (raw : String)
  | bigint (span : Span) (raw : String)
  | computed (span : Span) (expr : Expr)
  | privateName (id : Ident)

/-- Properties of an object literal. -/
inductive Property where
  | spread (span : Span) (arg : Expr)
  | shorthand (id : Ident)
  | keyValue (key : Key) (value : Expr)
  /-- `a = e`, which only a pattern gives a meaning -/
  | initialized (id : Ident) (value : Expr)
  | getter (span : Span) (key : Key) (returnType : Option TypeText) (body : List Stmt)
  | setter (span : Span) (key : Key) (param : Pat) (body : List Stmt)
  | method (span : Span) (key : Key) (f : Func)

/-- Functions, without their name. A signature alone has no body. -/
inductive Func where
  | mk (span : Span) (isAsync isGenerator : Bool) (typeParams : Option TypeText)
      (params : List Pat) (returnType : Option TypeText) (hasBody : Bool) (body : List Stmt)

/-- Binding and assignment patterns. -/
inductive Pat where
  /-- an omitted array element -/
  | hole
  | ident (id : Ident) (isOptional : Bool) (type : Option TypeText)
  | array (span : Span) (elems : List Pat) (type : Option TypeText)
  | object (span : Span) (props : List PatProperty) (type : Option TypeText)
  | rest (span : Span) (arg : Pat) (type : Option TypeText)
  /-- a pattern with a default, or a declarator with its initial value -/
  | withDefault (span : Span) (left : Pat) (right : Expr)
  | expr (e : Expr)

/-- Properties of an object pattern. -/
inductive PatProperty where
  | keyValue (key : Key) (value : Pat)
  | shorthand (span : Span) (id : Ident) (init : Option Expr)
  | rest (span : Span) (arg : Pat)

/-- Statements and declarations. -/
inductive Stmt where
  | block (span : Span) (body : List Stmt)
  | empty (span : Span)
  | debugger (span : Span)
  | return (span : Span) (arg : Option Expr)
  | labeled (span : Span) (label : Ident) (body : Stmt)
  | break (span : Span) (label : Option Ident)
  | continue (span : Span) (label : Option Ident)
  | ifThen (span : Span) (test : Expr) (cons : Stmt)
  | ifElse (span : Span) (test : Expr) (cons alt : Stmt)
  | switch (span : Span) (subject : Expr) (cases : List Case)
  | throw (span : Span) (arg : Expr)
  | tryCatch (span : Span) (body : List Stmt) (param : Option Pat) (handler : List Stmt)
  | tryFinally (span : Span) (body finalizer : List Stmt)
  | tryCatchFinally (span : Span) (body : List Stmt) (param : Option Pat)
      (handler finalizer : List Stmt)
  | while (span : Span) (test : Expr) (body : Stmt)
  | doWhile (span : Span) (body : Stmt) (test : Expr)
  | for (span : Span) (init : ForHead) (test update : Option Expr) (body : Stmt)
  | forIn (span : Span) (left : ForHead) (right : Expr) (body : Stmt)
  | forOf (span : Span) (isAwait : Bool) (left : ForHead) (right : Expr) (body : Stmt)
  | expr (span : Span) (e : Expr)
  | withObject (span : Span) (obj : Expr) (body : Stmt)
  | varDecl (span : Span) (isDeclare : Bool) (kind : VarKind) (declarators : List Pat)
  | funcDecl (name : Ident) (f : Func)
  | classDecl (name : Ident) (span : Span)
  | usingDecl (span : Span) (declarators : List Pat)
  /-- `inside` holds the statements and expressions within the declaration -/
  | typeDecl (kind : TypeDeclKind) (span : Span) (inside : List Stmt)

/-- A `case` or, without a test, the `default` of a `switch`. -/
inductive Case where
  | mk (test : Option Expr) (body : List Stmt)

/-- What stands first in the head of a `for`. -/
inductive ForHead where
  | none
  | varDecl (span : Span) (kind : VarKind) (declarators : List Pat)
  | usingDecl (span : Span) (declarators : List Pat)
  | pat (p : Pat)

end

instance : Inhabited Expr := ⟨.hole⟩
instance : Inhabited Key := ⟨.ident default⟩
instance : Inhabited Property := ⟨.shorthand default⟩
instance : Inhabited Func := ⟨.mk default false false none [] none false []⟩
instance : Inhabited Pat := ⟨.hole⟩
instance : Inhabited PatProperty := ⟨.shorthand default default none⟩
instance : Inhabited Stmt := ⟨.empty default⟩
instance : Inhabited Case := ⟨.mk none []⟩
instance : Inhabited ForHead := ⟨.none⟩

end ScriptSetup.Script
