/-!
# Blank characters

White space is the Unicode property `White_Space`. A text is blank when it holds nothing
else, and `Text.trimEnd` removes all of it from the end of a text.
-/

set_option autoImplicit false

namespace ScriptSetup.Text

/-- A character with the Unicode property `White_Space`. -/
def isBlankChar (c : Char) : Bool :=
  let n := c.toNat
  (0x09 ≤ n && n ≤ 0x0d) || n == 0x20 || n == 0x85 || n == 0xa0 || n == 0x1680
    || (0x2000 ≤ n && n ≤ 0x200a) || n == 0x2028 || n == 0x2029 || n == 0x202f
    || n == 0x205f || n == 0x3000

/-- Nothing but white space. -/
def isBlank (text : String) : Bool :=
  text.toList.all isBlankChar

/-- The characters up to the last one that is no white space. -/
def dropBlankEnd (cs : List Char) : List Char :=
  (cs.reverse.dropWhile isBlankChar).reverse

/-- The text without the white space at its end. -/
def trimEnd (text : String) : String :=
  String.ofList (dropBlankEnd text.toList)

end ScriptSetup.Text
