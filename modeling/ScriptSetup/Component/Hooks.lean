/-!
# Names with a meaning

Methods that the framework calls by name, the decorators that carry meaning, and the event name
that a method gives by default.
-/

set_option autoImplicit false

namespace ScriptSetup.Component

/-! ## Lifecycle hooks -/

/-- The methods that run at a point of a component's life, each with the function that
registers such code. -/
def lifecycleHooks : List (String × String) :=
  [("beforeMount", "onBeforeMount"),
    ("mounted", "onMounted"),
    ("beforeUpdate", "onBeforeUpdate"),
    ("updated", "onUpdated"),
    ("beforeDestroy", "onBeforeUnmount"),
    ("beforeUnmount", "onBeforeUnmount"),
    ("destroyed", "onUnmounted"),
    ("unmounted", "onUnmounted"),
    ("activated", "onActivated"),
    ("deactivated", "onDeactivated"),
    ("errorCaptured", "onErrorCaptured"),
    ("serverPrefetch", "onServerPrefetch"),
    ("renderTracked", "onRenderTracked"),
    ("renderTriggered", "onRenderTriggered")]

/-- The methods that run while a component is set up. Their statements move to the top. -/
def setupHooks : List String := ["beforeCreate", "created"]

/-- The function that registers code for a lifecycle method. -/
def lifecycleTarget? (name : String) : Option String :=
  lifecycleHooks.lookup name

/-- The method runs while a component is set up. -/
def isSetupHook (name : String) : Bool :=
  setupHooks.contains name

/-! ## Decorators -/

/-- The decorators that carry meaning. -/
inductive DecoratorKind where
  /-- state of the component -/
  | ref
  /-- an input that the parent gives -/
  | prop
  /-- a method that runs when a value changes -/
  | watch
  /-- a method that raises an event -/
  | emit
  deriving DecidableEq, Repr, Inhabited

namespace DecoratorKind

/-- The decorator as written. -/
def name : DecoratorKind → String
  | ref => "Ref"
  | prop => "Prop"
  | watch => "Watch"
  | emit => "Emit"

/-- The decorator with this name. -/
def ofName? : String → Option DecoratorKind
  | "Ref" => some ref
  | "Prop" => some prop
  | "Watch" => some watch
  | "Emit" => some emit
  | _ => none

end DecoratorKind

/-! ## Event names -/

/-- An ASCII capital. -/
def isCapital (c : Char) : Bool :=
  'A' ≤ c && c ≤ 'Z'

/-- The small letter of an ASCII capital. -/
def toSmall (c : Char) : Char :=
  if isCapital c then Char.ofNat (c.toNat + 32) else c

/-- Small letters, with a dash before each letter that was a capital. -/
def dashCapitals : List Char → List Char
  | [] => []
  | c :: cs => if isCapital c then '-' :: toSmall c :: dashCapitals cs else c :: dashCapitals cs

/-- A name in small letters, with a dash before each capital but a first one. -/
def kebabCase (name : String) : String :=
  match name.toList with
  | [] => ""
  | c :: cs => String.ofList (toSmall c :: dashCapitals cs)

end ScriptSetup.Component
