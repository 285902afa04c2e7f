import ScriptSetup.Script.Grammar.Template

/-!
# Types

Types are read for where they start and end. All that is kept of what stands inside is the
self accesses in computed member names, the only expressions a type can hold.
-/

set_option autoImplicit false

namespace ScriptSetup.Script.Parse

/-! ## Lists in angle brackets -/

/-- Items with commas between them, between `<` and `>`. At least one has to stand there. -/
def angleList {α : Type} (item : Parse α) : Parse (List α) := do
  splitPunct '<'
  expect "<"
  let first ← item
  let rest ← collect do
    splitPunct '>'
    if ← isPunct ">" then return none
    expect ","
    splitPunct '>'
    if ← isPunct ">" then return some none
    return some (some (← item))
  closeAngle
  return first :: rest.filterMap id

/-- The text of types from `start` on, with the self accesses of its parts. -/
def typeFrom (start : Nat) (names : List Ident) : Parse TypeText :=
  return ⟨← spanFrom start, names⟩

/-- Type arguments, angle brackets included. -/
def typeArgs (g : Grammar) : Parse TypeText := do
  let start ← here
  let args ← inBrackets (angleList g.type)
  typeFrom start (args.flatMap (·.selfNames))

/-- A type parameter with its modifiers, constraint and default. -/
def typeParam (g : Grammar) : Parse (List Ident) := do
  let _ ← collect do
    match ← token, ← nextToken with
    | .word m false, .word _ _ =>
      if ["in", "out", "const"].contains m then
        advance
        return some ()
      else return none
    | _, _ => return none
  let _ ← anyName
  let constraint ← if ← eatWord "extends" then (·.selfNames) <$> g.type else pure []
  let fallback ← if ← eat "=" then (·.selfNames) <$> g.type else pure []
  return constraint ++ fallback

/-- Type parameters, angle brackets included. -/
def typeParams (g : Grammar) : Parse TypeText := do
  let start ← here
  let params ← inBrackets (angleList (typeParam g))
  typeFrom start params.flatten

/-- Type parameters where they may be written. -/
def typeParams? (g : Grammar) : Parse (Option TypeText) := do
  if (← typed) && (← isAngle) then return some (← typeParams g) else return none

/-- A type after a colon, where one may be written. -/
def typeAnn? (g : Grammar) : Parse (Option TypeText) := do
  if !(← typed) then return none
  if ← eat ":" then return some (← inBrackets g.type) else return none

/-- What a function gives, after the current token: a type, or a predicate on a parameter. -/
def returnTypeAfter (g : Grammar) (mark : String) : Parse TypeText := do
  expect mark
  let start ← here
  let asserts ←
    if ← isWord "asserts" then canBeName (← nextToken) else pure false
  if asserts then advance
  let isOn ←
    if ← isName then pure ((← nextOnLine) == some (.word "is" false)) else pure false
  if asserts || isOn then
    let _ ← anyName
    if isOn then
      advance
      let t ← g.type
      typeFrom start t.selfNames
    else typeFrom start []
  else g.type

/-- The type after a colon that says what a function gives, where it may be written. -/
def returnType? (g : Grammar) : Parse (Option TypeText) := do
  if (← typed) && (← isPunct ":") then
    return some (← inBrackets (returnTypeAfter g ":"))
  else return none

/-! ## Members of object types -/

/-- Steps over an access or `readonly` modifier that a parameter or pattern follows. -/
def eatParamModifier : Parse Bool := do
  if !(← typed) then return false
  if ← isWordIn ["public", "protected", "private", "readonly"] then
    match ← nextToken with
    | .word _ _ | .punct "\x7b" | .punct "[" =>
      advance
      return true
    | _ => return false
  else return false

/-- A parameter of a signature, which cannot have a default. -/
def signatureParam (g : Grammar) : Parse (Bool × List Ident) := do
  let isRest ← eat "..."
  let _ ← eatParamModifier
  let pat ← g.binding
  let _ ← eat "?"
  let type ← typeAnn? g
  if ← isPunct "=" then unexpected ","
  return (isRest, pat.selfNames ++ TypeText.selfNamesOf type)

/-- The parameters of a signature, parentheses included. -/
def signatureParams (g : Grammar) : Parse (List Ident) := do
  expect "("
  let start ← here
  let (params, trailing) ← inBrackets (commaList ")" (signatureParam g))
  if params.dropLast.any (·.1) || (trailing && params.getLast?.any (·.1)) then
    report (← spanFrom start) (.misplaced "A rest parameter before others")
  return params.flatMap (·.2)

/-- Type parameters, parameters and result of a call. -/
def signature (g : Grammar) : Parse (List Ident) := do
  let typeParams ← typeParams? g
  let params ← signatureParams g
  let result ← returnType? g
  return TypeText.selfNamesOf typeParams ++ params ++ TypeText.selfNamesOf result

/-- The name of a member of an object type. -/
def typeMemberKey (g : Grammar) : Parse (List Ident) := do
  match ← token with
  | .punct "[" =>
    advance
    let e ← inBrackets g.assign
    expect "]"
    return e.selfNames
  | .word _ _ | .string _ _ | .number _ | .bigint _ =>
    advance
    return []
  | _ => unexpected "identifier"

/-- A member name can start with this token. -/
def startsMemberKey : Token → Bool
  | .word _ _ | .string _ _ | .number _ | .bigint _ | .privateName _ | .punct "[" => true
  | _ => false

/-- Steps over a modifier of a member, when what follows is a member name. -/
def eatMemberModifier (word : String) : Parse Bool := do
  if ← isWord word then
    match ← nextOnLine with
    | some t =>
      if startsMemberKey t then
        advance
        return true
      else return false
    | none => return false
  else return false

/-- `[key: K]` rather than a computed name comes next. -/
def isIndexSignature : Parse Bool :=
  lookahead do
    expect "["
    let _ ← name
    isPunct ":"

/-- The index of an index signature and the type of what it gives. -/
def indexSignature (g : Grammar) : Parse (List Ident) := do
  expect "["
  let _ ← anyName
  expect ":"
  let key ← inBrackets g.type
  expect "]"
  let value ← typeAnn? g
  return key.selfNames ++ TypeText.selfNamesOf value

/-- The end of a member of an object type. -/
def typeMemberEnd : Parse Unit := do
  unless ← eat "," do semicolon

/-- A named member of an object type: a property, a method or an accessor. -/
def namedTypeMember (g : Grammar) (isReadonly : Bool) : Parse (List Ident) := do
  let isGetter ← if isReadonly then pure false else eatMemberModifier "get"
  let isSetter ← if isReadonly || isGetter then pure false else eatMemberModifier "set"
  let key ← typeMemberKey g
  if isGetter || isSetter then return key ++ (← signature g)
  let _ ← eat "?"
  if (← isPunct "(") || (← isAngle) then
    if isReadonly then unexpected ":"
    return key ++ (← signature g)
  return key ++ TypeText.selfNamesOf (← typeAnn? g)

/-- A member of an object type or interface, up to what ends it. -/
def unendedTypeMember (g : Grammar) : Parse (List Ident) := do
  if (← isPunct "(") || (← isAngle) then return ← signature g
  if (← isWord "new") && ((← nextToken) == .punct "(" || (← nextToken) == .punct "<") then
    advance
    return ← signature g
  let isReadonly ← eatMemberModifier "readonly"
  if (← isPunct "[") && (← isIndexSignature) then indexSignature g
  else namedTypeMember g isReadonly

/-- A member of an object type or interface. -/
def typeMember (g : Grammar) : Parse (List Ident) := do
  let names ← unendedTypeMember g
  typeMemberEnd
  return names

/-- The members of an object type or interface, braces included. -/
def typeMembers (g : Grammar) : Parse (List Ident) := do
  expect "\x7b"
  let members ← inBrackets <| collect do
    if ← isPunct "\x7d" then return none else return some (← typeMember g)
  expect "\x7d"
  return members.flatten

/-! ## Mapped types, tuples and imported types -/

/-- Reads the sign of a modifier of a mapped type, when there is one. -/
def eatSign : Parse Bool := do
  if ← eat "+" then return true else eat "-"

/-- A mapped type rather than a list of members comes next. -/
def isMappedType : Parse Bool :=
  lookahead do
    expect "\x7b"
    if ← eatSign then isWord "readonly"
    else
      let _ ← eatWord "readonly"
      expect "["
      let _ ← name
      isWord "in"

/-- `{ [K in T]: V }` with its modifiers. -/
def mappedType (g : Grammar) : Parse (List Ident) := do
  expect "\x7b"
  if ← eatSign then expectWord "readonly"
  else
    let _ ← eatWord "readonly"
  expect "["
  let _ ← anyName
  expectWord "in"
  let key ← g.type
  let renamed ← if ← eatWord "as" then (·.selfNames) <$> g.type else pure []
  expect "]"
  if ← eatSign then expect "?"
  else
    let _ ← eat "?"
  let value ← if ← eat ":" then (·.selfNames) <$> g.type else pure []
  semicolon
  expect "\x7d"
  return key.selfNames ++ renamed ++ value

/-- Steps over the label of a tuple element and says whether it is marked as optional. -/
def tupleLabel : Parse (Option Bool) :=
  attempt do
    let _ ← anyName
    let isOptional ← eat "?"
    if ← eat ":" then return some isOptional else return none

/-- A tuple element: whether it is optional, whether it is a rest, and its self accesses. -/
def tupleElement (g : Grammar) : Parse (Bool × Bool × List Ident) := do
  let isRest ← eat "..."
  match ← tupleLabel with
  | some isOptional =>
    let t ← g.type
    return (isOptional, isRest, t.selfNames)
  | none =>
    let t ← g.type
    let isOptional ← eat "?"
    return (isOptional, isRest, t.selfNames)

/-- An element that has to be there follows one that may be missing. -/
def requiredAfterOptional : Bool → List (Bool × Bool × List Ident) → Bool
  | _, [] => false
  | seen, (isOptional, isRest, _) :: rest =>
    (seen && !isOptional && !isRest) || requiredAfterOptional (seen || isOptional) rest

/-- A tuple type. -/
def tupleType (g : Grammar) : Parse (List Ident) := do
  let start ← here
  expect "["
  let (elems, _) ← commaList "]" (tupleElement g)
  if requiredAfterOptional false elems then
    report (← spanFrom start) (.misplaced "A required element after an optional one")
  return elems.flatMap (·.2.2)

/-- Names with dots between them. -/
def dottedName : Parse Unit := do
  let _ ← anyName
  let _ ← collect do
    if ← eat "." then
      let _ ← anyName
      return some ()
    else return none

/-- Type arguments that stand on the line of what they apply to. -/
def typeArgsOnLine (g : Grammar) : Parse (List Ident) := do
  if !(← newlineBefore) && (← isAngle) then (·.selfNames) <$> typeArgs g else return []

/-- `import("m").n` as a type. -/
def importType (g : Grammar) : Parse (List Ident) := do
  expectWord "import"
  expect "("
  let _ ← stringLit
  if ← eat "," then
    unless ← isPunct ")" do
      let _ ← inBrackets g.assign
      let _ ← eat ","
  expect ")"
  if ← eat "." then dottedName
  typeArgsOnLine g

/-- Type names that stand for themselves. -/
def builtinTypes : List String :=
  ["any", "bigint", "boolean", "never", "null", "number", "object", "string", "symbol",
    "undefined", "unknown", "void", "intrinsic"]

/-- Reserved words that a type can start with. -/
def typeStartWords : List String := ["break", "enum", "null", "void"]

/-- A word that is neither a type nor the name of one. -/
def isNeverType (word : String) : Bool :=
  word == "let" || (reservedWords.contains word && !typeStartWords.contains word)

/-! ## Types by how tightly they bind -/

/-- A type that is not built from others by an operator. -/
def primaryType (g : Grammar) : Parse TypeText := do
  let start ← here
  match ← token with
  | .string _ _ | .number _ | .bigint _ =>
    advance
    typeFrom start []
  | .punct "-" =>
    advance
    match ← token with
    | .number _ | .bigint _ =>
      advance
      typeFrom start []
    | _ => unexpected "number"
  | .punct "\x7b" =>
    let names ← if ← isMappedType then inBrackets (mappedType g) else typeMembers g
    typeFrom start names
  | .punct "[" =>
    let names ← inBrackets (tupleType g)
    typeFrom start names
  | .punct "(" =>
    advance
    let t ← inBrackets g.type
    expect ")"
    typeFrom start t.selfNames
  | .punct "`" =>
    let (_, ts) ← templateParts false g.type
    typeFrom start (ts.flatMap (·.selfNames))
  | .word "this" false =>
    advance
    if (← isWord "is") && !(← newlineBefore) then
      advance
      let t ← g.type
      typeFrom start t.selfNames
    else typeFrom start []
  | .word "import" false =>
    let names ← importType g
    typeFrom start names
  | .word "typeof" false =>
    advance
    let names ←
      if ← isWord "import" then importType g
      else do
        dottedName
        typeArgsOnLine g
    typeFrom start names
  | .word "true" false | .word "false" false =>
    advance
    typeFrom start []
  | .word "asserts" false =>
    if (← nextToken) == .word "this" false then
      advance
      advance
      let names ← if ← eatWord "is" then (·.selfNames) <$> g.type else pure []
      typeFrom start names
    else
      dottedName
      let names ← typeArgsOnLine g
      typeFrom start names
  | .word w false =>
    if builtinTypes.contains w && (← nextToken) != .punct "." then
      advance
      typeFrom start []
    else if isNeverType w then unexpected "type"
    else
      dottedName
      let names ← typeArgsOnLine g
      typeFrom start names
  | .word _ true =>
    dottedName
    let names ← typeArgsOnLine g
    typeFrom start names
  | _ => unexpected "type"

/-- A type with `[]` and `[K]` after it. -/
def arrayType (g : Grammar) : Parse TypeText := do
  let start ← here
  let first ← primaryType g
  iterate (fun t => do
    if (← isPunct "[") && !(← newlineBefore) then
      advance
      if ← eat "]" then return some (← typeFrom start t.selfNames)
      else
        let index ← inBrackets g.type
        expect "]"
        return some (← typeFrom start (t.selfNames ++ index.selfNames))
    else return none) first

/-- `infer T`, with a constraint where it is not the start of a condition. -/
def inferType (g : Grammar) : Parse TypeText := do
  let start ← here
  expectWord "infer"
  let _ ← anyName
  let constraint ←
    if ← isWord "extends" then
      attempt do
        advance
        let t ← withReader (fun ctx => { ctx with noConditionalType := true }) g.type
        if (← read).noConditionalType || !(← isPunct "?") then return some t.selfNames
        else return none
    else pure none
  typeFrom start (constraint.getD [])

/-- A type with the operators `keyof`, `unique` and `readonly` before it. -/
def operatorType (g : Grammar) : Parse TypeText := do
  let start ← here
  let ops ← collect do
    if ← isWordIn ["keyof", "unique", "readonly"] then
      advance
      return some ()
    else return none
  let t ← if ← isWord "infer" then inferType g else arrayType g
  if ops.isEmpty then return t else typeFrom start t.selfNames

/-- Types with an operator between them, which may also stand before the first. -/
def joinedTypes (op : String) (item : Parse TypeText) : Parse (List TypeText) := do
  let _ ← eat op
  let first ← item
  let rest ← collect do
    if ← eat op then return some (← item) else return none
  return first :: rest

/-- The text of joined types from `start` on. A leading operator belongs to it only where another
follows. -/
def joinedText (start : Nat) : List TypeText → Parse TypeText
  | [t] => return t
  | ts => typeFrom start (ts.flatMap (·.selfNames))

/-- Types with an operator between them, as one. -/
def typesJoinedBy (op : String) (item : Parse TypeText) : Parse TypeText := do
  let start ← here
  joinedText start (← joinedTypes op item)

/-- The type of a function rather than one in parentheses comes next. -/
def isFunctionType (g : Grammar) : Parse Bool := do
  if ← isAngle then return true
  if !(← isPunct "(") then return false
  lookahead do
    advance
    if ← isPunctIn [")", "..."] then return true
    let _ ← eatParamModifier
    match ← token with
    | .word _ _ => advance
    | .punct "\x7b" | .punct "[" =>
      let _ ← g.binding
    | _ => unexpected "parameter"
    if ← isPunctIn [":", ",", "?", "="] then return true
    if ← eat ")" then isPunct "=>" else return false

/-- The type of a function or constructor, after `new` and `abstract`. -/
def functionType (g : Grammar) (start : Nat) : Parse TypeText := do
  let typeParams ← typeParams? g
  let params ← signatureParams g
  let result ← returnTypeAfter g "=>"
  typeFrom start (TypeText.selfNamesOf typeParams ++ params ++ result.selfNames)

/-- The alternatives of a type without a condition on top. The type of a function has none but
itself: what follows its arrow is all part of its result. -/
def typeAlternatives (g : Grammar) : Parse (List TypeText) := do
  let start ← here
  if ← isFunctionType g then return [← functionType g start]
  else if (← isWord "abstract") && (← nextToken) == .word "new" false then
    advance
    advance
    return [← functionType g start]
  else if ← eatWord "new" then return [← functionType g start]
  else joinedTypes "|" (typesJoinedBy "&" (operatorType g))

/-- A type without a condition on top. -/
def plainType (g : Grammar) : Parse TypeText := do
  let start ← here
  joinedText start (← typeAlternatives g)

/-- A type. -/
def anyType (g : Grammar) : Parse TypeText := do
  let start ← here
  let check ← g.plainType
  if (← read).noConditionalType || (← newlineBefore) || !(← isWord "extends") then
    return check
  advance
  let extended ← withReader (fun ctx => { ctx with noConditionalType := true }) g.plainType
  expect "?"
  let yes ← withReader (fun ctx => { ctx with noConditionalType := false }) g.type
  expect ":"
  let no ← withReader (fun ctx => { ctx with noConditionalType := false }) g.type
  typeFrom start (check.selfNames ++ extended.selfNames ++ yes.selfNames ++ no.selfNames)

end ScriptSetup.Script.Parse
