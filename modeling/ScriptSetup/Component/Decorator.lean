import ScriptSetup.Component.Hooks
import ScriptSetup.Decimal.Literal
import ScriptSetup.Script.ModuleTree

/-!
# Decorators of members

A decorator with a meaning is a name, or a call of a name. Its arguments say how a field becomes
an input, what a method watches or which event it raises; arguments that cannot mean anything
are a fault of the whole component.
-/

set_option autoImplicit false

namespace ScriptSetup

/-- The name of a property, where it is known without running anything. -/
def Script.Key.staticName? : Script.Key → Option String
  | .ident id => some id.name
  | .string lit => some lit.value
  | .number _ raw => some (Decimal.literalValue raw).text
  | .bigint _ _ | .computed _ _ | .privateName _ => none

namespace Component

open Script

/-! ## Faults -/

/-- What is wrong with a decorator. -/
inductive DecoratorFault where
  | onlyOnMethods | onlyOnFields
  | noWatchedPath | badWatchOptions
  | badEventName
  | spreadArgument | spreadOption | badType | computedOption | unsupportedOption | badArgument
  deriving DecidableEq, Repr, Inhabited

/-- The fault in words. -/
def DecoratorFault.reason : DecoratorFault → String
  | onlyOnMethods => "only applies to methods"
  | onlyOnFields => "only applies to fields"
  | noWatchedPath => "expected the watched path as first argument"
  | badWatchOptions => "expected an options object as second argument"
  | badEventName => "expected a string event name"
  | spreadArgument => "spread arguments are not supported"
  | spreadOption => "spread in options object"
  | badType => "`type` must be a constructor or an array of constructors"
  | computedOption => "computed keys in options object"
  | unsupportedOption => "unsupported property in options object"
  | badArgument => "expected an options object, a constructor or an array of constructors"

/-- A decorator that cannot mean anything on its member. -/
structure MalformedDecorator where
  decorator : DecoratorKind
  member : String
  fault : DecoratorFault
  span : Span
  deriving DecidableEq, Repr, Inhabited

/-- The malformed decorator in words. -/
def MalformedDecorator.message (m : MalformedDecorator) : String :=
  let decorator := m.decorator.name
  let member := m.member
  let reason := m.fault.reason
  s!"malformed @{decorator} on `{member}`: {reason}"

/-! ## Calls -/

/-- A decorator written as `@Name` or `@Name(args)`. -/
structure DecoratorCall where
  name : String
  args : List Expr
  span : Span
  deriving Inhabited

/-- The decorator as a name with arguments, when it is one. -/
def DecoratorCall.of? (d : Decorator) : Option DecoratorCall :=
  match d.expr with
  | .ident id => some ⟨id.name, [], d.span⟩
  | .call _ (.ident id) _ args => some ⟨id.name, args, d.span⟩
  | _ => none

/-- The kind of the decorator and its call, when it carries a meaning. -/
def recognized? (d : Decorator) : Option (DecoratorKind × DecoratorCall) := do
  let call ← DecoratorCall.of? d
  let kind ← DecoratorKind.ofName? call.name
  return (kind, call)

/-! ## Inputs -/

/-- The default value of an input. -/
inductive InputDefault where
  /-- `default: value` -/
  | value (e : Expr)
  /-- `default() { … }` -/
  | factory (f : Func)

/-- What the argument of `@Prop` says. -/
structure InputOptions where
  constructors : Option (List String) := none
  required : Bool := false
  fallback : Option InputDefault := none

/-- The name that an expression is. -/
def exprName? : Expr → Option String
  | .ident id => some id.name
  | _ => none

/-- One constructor, or an array of constructors. -/
def constructors? : Expr → Option (List String)
  | .ident id => some [id.name]
  | .array _ es => es.mapM exprName?
  | _ => none

/-- A literal that counts as true. -/
def isTruthyLiteral : Expr → Bool
  | .bool _ b => b
  | .number _ raw => !(Decimal.literalValue raw).isZero
  | .string lit => !lit.value.isEmpty
  | _ => false

/-- Takes one option of an input into account. -/
def inputOption (o : InputOptions) : Property → Except DecoratorFault InputOptions
  | .keyValue key value =>
    match key.staticName? with
    | none => .error .computedOption
    | some "type" =>
      match constructors? value with
      | some cs => .ok { o with constructors := some cs }
      | none => .error .badType
    | some "required" => .ok { o with required := isTruthyLiteral value }
    | some "default" => .ok { o with fallback := some (.value value) }
    | some _ => .ok o
  | .method _ key f =>
    match key.staticName? with
    | none => .error .computedOption
    | some "default" => .ok { o with fallback := some (.factory f) }
    | some _ => .ok o
  | .spread _ _ => .error .spreadOption
  | _ => .error .unsupportedOption

/-- Reads the arguments of `@Prop`. Only the first counts, and none means no constraints. -/
def inputOptions : List Expr → Except DecoratorFault InputOptions
  | [] => .ok {}
  | .spread _ _ :: _ => .error .spreadArgument
  | .object _ props :: _ => props.foldlM inputOption {}
  | e :: _ =>
    match constructors? e with
    | some cs => .ok { constructors := some cs }
    | none => .error .badArgument

/-! ## Watchers and events -/

/-- Reads the arguments of `@Watch`: what is watched, and the options. -/
def watchArguments : List Expr → Except DecoratorFault (Expr × Option Expr)
  | [] | .spread _ _ :: _ => .error .noWatchedPath
  | [target] => .ok (target, none)
  | target :: .object span props :: _ => .ok (target, some (.object span props))
  | _ :: _ :: _ => .error .badWatchOptions

/-- Reads the arguments of `@Emit`: the name of the event, which by default is that of the
method. -/
def eventName (method : String) : List Expr → Except DecoratorFault String
  | [] => .ok (kebabCase method)
  | .string lit :: _ => .ok lit.value
  | _ => .error .badEventName

end Component

end ScriptSetup
