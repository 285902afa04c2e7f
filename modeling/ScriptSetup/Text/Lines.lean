/-!
# Text in pieces

Joining, padding and searching texts. Everything is said through the characters of a text.
-/

set_option autoImplicit false

namespace ScriptSetup.Text

/-- The texts with a separator between each two. -/
def join (sep : String) : List String → String
  | [] => ""
  | [s] => s
  | s :: t :: rest => s ++ sep ++ join sep (t :: rest)

/-- The character stands in the text. -/
def hasChar (c : Char) (text : String) : Bool :=
  text.toList.contains c

/-- More than one line. -/
def isMultiline (text : String) : Bool :=
  hasChar '\n' text

/-- The text starts with these characters. -/
def startsWith (start text : String) : Bool :=
  start.toList.isPrefixOf text.toList

/-- The text ends with these characters. -/
def endsWith (stop text : String) : Bool :=
  stop.toList.isSuffixOf text.toList

/-- Two spaces for each level. -/
def pad (level : Nat) : String :=
  String.ofList (List.replicate (2 * level) ' ')

/-- What stands before and after the first such character. -/
def splitOnce? (c : Char) (text : String) : Option (String × String) :=
  let before := text.toList.takeWhile (· != c)
  match text.toList.drop before.length with
  | [] => none
  | _ :: after => some (String.ofList before, String.ofList after)

/-- What stands after the last such character, or the whole text. -/
def afterLast (c : Char) (text : String) : String :=
  String.ofList (text.toList.reverse.takeWhile (· != c)).reverse

/-- The parts of the characters between each two such characters. -/
def splitList (c : Char) (cs : List Char) : List (List Char) :=
  cs.foldr (fun d parts => if d = c then [] :: parts else parts.modifyHead (d :: ·)) [[]]

/-- The parts of the text between each two such characters. -/
def splitAll (c : Char) (text : String) : List String :=
  (splitList c text.toList).map String.ofList

/-- The lines of the characters. A line feed ends a line, with a carriage return right before it;
what follows the last one is a line of its own unless it is empty. -/
def lineList : List Char → List (List Char)
  | [] => []
  | '\n' :: cs => [] :: lineList cs
  | '\r' :: '\n' :: cs => [] :: lineList cs
  | c :: cs =>
    match lineList cs with
    | [] => [[c]]
    | line :: rest => (c :: line) :: rest

/-- The lines of a text. -/
def lines (text : String) : List String :=
  (lineList text.toList).map String.ofList

end ScriptSetup.Text
