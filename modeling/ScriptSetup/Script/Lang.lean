/-!
# Languages of a logic block

The `lang` attribute of a logic block says which grammar its text follows. Everything but
the three known values is plain JavaScript.
-/

set_option autoImplicit false

namespace ScriptSetup.Script

/-- The language of a logic block. -/
inductive Lang where
  | typeScript | tsx | javaScript | jsx
  deriving DecidableEq, Repr, Inhabited

namespace Lang

/-- The language that a `lang` attribute names. -/
def ofAttr : Option String → Lang
  | some "ts" => typeScript
  | some "tsx" => tsx
  | some "jsx" => jsx
  | _ => javaScript

/-- Types may be written. -/
def isTyped : Lang → Bool
  | typeScript | tsx => true
  | javaScript | jsx => false

/-- Elements may be written with tags. -/
def hasTags : Lang → Bool
  | tsx | jsx => true
  | typeScript | javaScript => false

end Lang

end ScriptSetup.Script
