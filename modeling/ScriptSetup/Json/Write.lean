import ScriptSetup.Text.Lines

/-!
# Writing JSON

A `Value` is written over several lines, two spaces for each level. Empty lists and objects stand
on one line. Characters outside ASCII are written as they are.
-/

set_option autoImplicit false

namespace ScriptSetup.Json

open Text

/-- A JSON value of the kinds that are written here. -/
inductive Value where
  | text (s : String)
  | number (n : Nat)
  | list (items : List Value)
  | object (members : List (String × Value))
  deriving Repr, Inhabited

/-- Two hexadecimal digits of a number below 256. -/
def hexPair (n : Nat) : List Char :=
  let digit (d : Nat) : Char := if d < 10 then Char.ofNat (0x30 + d) else Char.ofNat (0x57 + d)
  [digit (n / 16), digit (n % 16)]

/-- A character inside quotes. -/
def escapeChar (c : Char) : List Char :=
  match c with
  | '"' => ['\\', '"']
  | '\\' => ['\\', '\\']
  | '\x08' => ['\\', 'b']
  | '\x0c' => ['\\', 'f']
  | '\n' => ['\\', 'n']
  | '\r' => ['\\', 'r']
  | '\t' => ['\\', 't']
  | c => if c.toNat < 0x20 then ['\\', 'u', '0', '0'] ++ hexPair c.toNat else [c]

/-- A text in quotes. -/
def quote (s : String) : String :=
  "\"" ++ String.ofList (s.toList.flatMap escapeChar) ++ "\""

/-- Lines one level deeper, between brackets. -/
def bracketed (before after : String) (level : Nat) (items : List String) : String :=
  if items.isEmpty then before ++ after
  else
    before ++ "\n" ++ join ",\n" (items.map (pad (level + 1) ++ ·)) ++ "\n" ++ pad level ++ after

mutual

/-- The value as it is written at a level. -/
def Value.render (level : Nat) : Value → String
  | .text s => quote s
  | .number n => toString n
  | .list items => bracketed "[" "]" level (Value.renderAll (level + 1) items)
  | .object members => bracketed "\x7b" "\x7d" level (Value.renderMembers (level + 1) members)

/-- The items of a list. -/
def Value.renderAll (level : Nat) : List Value → List String
  | [] => []
  | item :: rest => item.render level :: Value.renderAll level rest

/-- The members of an object. -/
def Value.renderMembers (level : Nat) : List (String × Value) → List String
  | [] => []
  | (key, value) :: rest =>
    (quote key ++ ": " ++ value.render level) :: Value.renderMembers level rest

end

end ScriptSetup.Json
