/-!
# Quoted text

A text as a literal in single quotes: a backslash and a quote have a backslash before them, and
everything else stands for itself.
-/

set_option autoImplicit false

namespace ScriptSetup.Text

/-- Puts a backslash before each place of a character. -/
def escapeChar (c : Char) (cs : List Char) : List Char :=
  cs.flatMap fun d => if d = c then ['\\', d] else [d]

/-- The text as a literal in single quotes. Quotes come last, so that their backslashes stay
single. -/
def quote (text : String) : String :=
  String.ofList ('\'' :: escapeChar '\'' (escapeChar '\\' text.toList) ++ ['\''])

end ScriptSetup.Text
