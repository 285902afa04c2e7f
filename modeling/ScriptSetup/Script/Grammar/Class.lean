import ScriptSetup.Script.Grammar.Function

/-!
# Classes

A member starts with decorators and modifiers, each of which can also be the name of the
member. Which one it is follows from the token after it.
-/

set_option autoImplicit false

namespace ScriptSetup.Script

/-- The decorators and modifiers of a member. -/
structure MemberHead where
  start : Nat
  decorators : List Decorator
  isDeclare : Bool := false
  hasAccess : Bool := false
  isStatic : Bool := false
  isAbstract : Bool := false
  isOverride : Bool := false
  isReadonly : Bool := false
  isAccessor : Bool := false

/-- The context of a value or block that belongs to a class. -/
def Context.enterField (ctx : Context) : Context :=
  { ctx.enter {} with inFunction := false, inField := true }

/-- A key that names the constructor. -/
def Key.isConstructor : Key → Bool
  | .ident id => id.name == "constructor"
  | .string lit => lit.value == "constructor"
  | _ => false

/-- A key that starts with `#`. -/
def Key.isPrivate : Key → Bool
  | .privateName _ => true
  | _ => false

/-- A key that is this name. -/
def Key.isNamed (name : String) : Key → Bool
  | .ident id => id.name == name
  | _ => false

/-- A parameter that stands for the receiver. -/
def Pat.isThis : Pat → Bool
  | .ident id _ _ => id.name == "this"
  | _ => false

namespace Parse

/-- A method rather than a field follows its name. -/
def isMethodNext : Parse Bool := do
  return (← isPunct "(") || ((← typed) && (← isAngle))

/-- A field ends or goes on here, without help of a line end. -/
def isFieldNext : Parse Bool := do
  if ← isPunctIn ["=", "\x7d", ";"] then return true
  if ← typed then isPunctIn ["!", ":"] else return false

/-- The name of a class member. -/
def classKey (g : Grammar) : Parse Key := do
  let span ← tokenSpan
  match ← token with
  | .privateName name =>
    advance
    if name == "constructor" then fault span (.reserved "#constructor")
    return .privateName ⟨name, span⟩
  | _ => propertyKey g

/-! ## Methods -/

/-- Checks the parameters of an accessor. The receiver does not count. -/
def checkAccessor (kind : MethodKind) (span : Span) (params : List Pat) : Parse Unit := do
  let params := params.filter (!·.isThis)
  match kind, params with
  | .method, _ | .getter, [] => return ()
  | .setter, [p] => if p.isRest then report span (.misplaced "A rest parameter of a setter")
  | _, _ => report span (.misplaced "These parameters")

/-- A method after its name. -/
def methodMember (g : Grammar) (head : MemberHead) (kind : MethodKind) (fk : FuncKind)
    (key : Key) : Parse Member := do
  let (f, paramDecorators) ← function g fk head.start
  let span ← spanFrom head.start
  if head.isReadonly then report span (.misplaced "readonly")
  if head.isAbstract && f.hasBody then report span (.misplaced "The body of an abstract method")
  checkAccessor kind span f.params
  if key.isPrivate then
    if head.hasAccess then report key.span (.misplaced "The access of a private name")
    return .classOnly .privateMethod span
      (paramsSelfNames paramDecorators f.params ++ decoratorsSelfNames head.decorators
        ++ stmtsSelfNames f.body ++ TypeText.selfNamesOf f.typeParams
        ++ TypeText.selfNamesOf f.returnType)
  return .method span head.decorators kind key f paramDecorators

/-- The constructor after its name. -/
def constructorMember (g : Grammar) (head : MemberHead) (key : Key) : Parse Member := do
  if (← typed) && (← isAngle) then
    fault (← tokenSpan) (.misplaced "A type parameter of a constructor")
  let (f, paramDecorators) ← function g { isConstructor := true } head.start
  let span ← spanFrom head.start
  if f.returnType.isSome then report span (.misplaced "The type of a constructor")
  if head.isStatic || head.isAbstract || head.isReadonly || head.isOverride then
    report span (.misplaced "A modifier of a constructor")
  return .classOnly (if f.hasBody then .constructor else .constructorSignature) span
    (key.selfNames ++ paramsSelfNames paramDecorators f.params ++ stmtsSelfNames f.body)

/-! ## Fields -/

/-- A field after its name: type, value and end. -/
def fieldMember (g : Grammar) (head : MemberHead) (isOptional : Bool) (key : Key) :
    Parse Member := do
  if key.isConstructor then report key.span (.misplaced "A field named constructor")
  if key.isPrivate && (head.hasAccess || head.isDeclare) then
    report key.span (.misplaced "This modifier of a private name")
  if (← typed) && !isOptional then
    let _ ← eat "!"
  let type ← typeAnn? g
  let value ←
    if ← eat "=" then some <$> withReader (·.enterField) g.assign else pure none
  if head.isAbstract && value.isSome then
    report key.span (.misplaced "The value of an abstract field")
  semicolon
  let span ← spanFrom head.start
  let inside := key.selfNames ++ (value.map Expr.selfNames).getD []
    ++ TypeText.selfNamesOf type ++ decoratorsSelfNames head.decorators
  if head.isAccessor then return .classOnly .autoAccessor span inside
  if key.isPrivate then return .classOnly .privateField span inside
  return .field span head.decorators head.isReadonly key type value

/-! ## Members -/

/-- A method or field whose name is read, but that may turn out to be a modifier. -/
def namedMember (g : Grammar) (head : MemberHead) : Parse Member := do
  let key ← classKey g
  let isOptional ← if ← typed then eat "?" else pure false
  if ← isMethodNext then
    if head.isDeclare then report key.span (.misplaced "declare")
    if key.isConstructor && !head.isStatic then return ← constructorMember g head key
    return ← methodMember g head .method {} key
  let starOnNextLine := (← newlineBefore) && (← isPunct "*")
  let isAccessor := (key.isNamed "get" || key.isNamed "set") && !starOnNextLine
    && !(← isFieldNext)
  if !isAccessor && ((← isFieldNext) || (← canInsertSemicolon)) then
    return ← fieldMember g head isOptional key
  if key.isNamed "async" && !(← newlineBefore) then
    let isGenerator ← eat "*"
    let key ← classKey g
    if key.isConstructor then report key.span (.misplaced "An async constructor")
    if ← typed then
      let _ ← eat "?"
    return ← methodMember g head .method { isAsync := true, isGenerator } key
  if isAccessor then
    let kind := if key.isNamed "get" then MethodKind.getter else .setter
    let key ← classKey g
    if key.isConstructor then report key.span (.misplaced "An accessor named constructor")
    return ← methodMember g head kind {} key
  unexpected "* for generator, private key, identifier or async"

/-- A block that runs when the class is made. `static` is its only modifier. -/
def staticBlock (g : Grammar) (head : MemberHead) : Parse Member := do
  if head.isDeclare || head.hasAccess || head.isAbstract || head.isOverride || head.isReadonly then
    report (← tokenSpan) (.misplaced "A modifier of a block")
  let body ← withReader (·.enterField) (blockBody g)
  return .classOnly .staticBlock (← spanFrom head.start) (stmtsSelfNames body)

/-- Reads modifiers, each at most once and in order. -/
def memberModifiers (head : MemberHead) : Parse MemberHead :=
  iterate (fun head => do
    if !(← typed) then return none
    let span ← tokenSpan
    let follows ←
      match ← nextOnLine with
      | some (.punct p) => pure (["[", "*", "\x7b"].contains p)
      | some .eof | none => pure false
      | some _ => pure true
    if !follows then return none
    let wrong := report span (.misplaced "This modifier")
    if ← eatWord "abstract" then
      if head.isAbstract || head.isOverride then wrong
      return some { head with isAbstract := true }
    if ← eatWord "override" then
      if head.isOverride || head.isReadonly || head.isDeclare || !(← read).hasSuper then wrong
      return some { head with isOverride := true }
    if ← eatWord "readonly" then
      if head.isReadonly then wrong
      return some { head with isReadonly := true }
    if ← eatWord "static" then
      if head.isOverride then wrong
      return some { head with isStatic := true }
    return none) head

/-- Reads `accessor` where it is a modifier, after the others. -/
def accessorModifier (head : MemberHead) : Parse MemberHead := do
  if !(← typed) || head.isAccessor || head.isReadonly then return head
  if (← isWord "accessor") && (← nextToken) != .punct "(" then
    advance
    return { head with isAccessor := true }
  else return head

/-- A member after `declare`, access, `static` and `accessor` are read. -/
def memberAfterStatic (g : Grammar) (head : MemberHead) : Parse Member := do
  if head.isStatic && (← isPunct "\x7b") then return ← staticBlock g head
  let head ← memberModifiers head >>= accessorModifier
  if head.isStatic && (← isPunct "\x7b") then return ← staticBlock g head
  if (← typed) && !head.isAbstract && !head.isOverride && !head.hasAccess
      && (← isPunct "[") && (← isIndexSignature) then
    let inside ← indexSignature g
    typeMemberEnd
    return .classOnly .indexSignature (← spanFrom head.start) inside
  if ← eat "*" then
    let key ← classKey g
    if key.isConstructor then report key.span (.misplaced "A generator constructor")
    return ← methodMember g head .method { isGenerator := true } key
  namedMember g head

/-- A member whose name is the word just read, when what follows says so. -/
def memberNamed? (g : Grammar) (head : MemberHead) (id : Ident) : Parse (Option Member) := do
  if ← isMethodNext then return some (← methodMember g head .method {} (.ident id))
  if ← isFieldNext then return some (← fieldMember g head false (.ident id))
  return none

/-- Steps over `public`, `protected` or `private` as a modifier. -/
def eatAccess : Parse Bool := do
  if !(← typed) || !(← isWordIn ["public", "protected", "private"]) then return false
  match ← nextOnLine with
  | some (.punct p) =>
    if ["[", "*"].contains p then
      advance
      return true
    else return false
  | some .eof | none => return false
  | some _ =>
    advance
    return true

/-- A member of a class. -/
def classMember (g : Grammar) : Parse Member := do
  if ← eat ";" then return .empty
  let start ← here
  let decs ← decorators g
  let head : MemberHead := { start, decorators := decs }
  let word ← tokenSpan
  let declareFirst ← if ← typed then eatWord "declare" else pure false
  if declareFirst then
    if let some m ← memberNamed? g head ⟨"declare", word⟩ then return m
  let hasAccess ← eatAccess
  let word ← tokenSpan
  let declareLast ← if (← typed) && !declareFirst then eatWord "declare" else pure false
  let head := { head with hasAccess, isDeclare := declareFirst || declareLast }
  if declareLast then
    if let some m ← memberNamed? g head ⟨"declare", word⟩ then return m
  let word ← tokenSpan
  let isStatic ← eatWord "static"
  if isStatic then
    if let some m ← memberNamed? g head ⟨"static", word⟩ then return m
  let head := { head with isStatic }
  let word ← tokenSpan
  let isAccessor ← if ← typed then eatWord "accessor" else pure false
  if isAccessor then
    if let some m ← memberNamed? g head ⟨"accessor", word⟩ then return m
  memberAfterStatic g { head with isAccessor }

/-! ## Classes -/

/-- A list of types that a class or interface builds on. -/
def heritage (g : Grammar) : Parse Unit := do
  let item : Parse Unit := do
    dottedName
    let _ ← typeArgsOnLine g
  item
  let _ ← collect do
    if ← eat "," then
      item
      return some ()
    else return none

/-- The class that a class extends, without its type arguments. -/
def superClass (g : Grammar) : Parse Expr := do
  let e ← g.leftHand
  if (← typed) && (← isAngle) then
    let _ ← typeArgs g
  match e with
  | .instantiation _ e _ => return e
  | _ => return e

/-- Names that are types already. -/
def isTypeName (name : String) : Bool :=
  ["any", "bigint", "boolean", "intrinsic", "never", "null", "number", "object", "string",
    "symbol", "unknown", "void"].contains name

/-- A constructor with a body. -/
def isConstructorMember : Member → Bool
  | .classOnly .constructor _ _ => true
  | _ => false

/-- The members of a class, braces included. -/
def classMembers (g : Grammar) : Parse (List Member) := do
  expect "\x7b"
  let members ← collect do
    if ← isPunct "\x7d" then return none else return some (← classMember g)
  if 1 < (members.filter isConstructorMember).length then
    report (← tokenSpan) (.misplaced "A second constructor")
  expect "\x7d"
  return members

/-- A class from the word `class` on. Its text counts from `start`. -/
def classFrom (g : Grammar) (start : Nat) : Parse (Option Ident × Class) := do
  expectWord "class"
  let name ← if ← isName then some <$> boundName else pure none
  if ← typed then
    if let some id := name then
      if isTypeName id.name then report id.span (.reserved id.name)
  let _ ← typeParams? g
  let super ← if ← eatWord "extends" then some <$> superClass g else pure none
  if (← typed) && (← isWord "implements") then
    advance
    heritage g
  let members ← withReader
    (fun ctx => { ctx with hasSuper := super.isSome, inForHead := false, allowIn := true,
                           inCond := false, colonFollows := false, arrowAt := none })
    (classMembers g)
  return (name, ⟨← spanFrom start, super, members⟩)

end Parse

end ScriptSetup.Script
