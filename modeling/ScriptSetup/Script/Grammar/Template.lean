import ScriptSetup.Script.Grammar.Basic

/-!
# Templates

The text of a template is not made of tokens. `templateParts` reads it chunk by chunk, with a
reader for what stands between `${` and `}`: an expression, or in a type another type.
-/

set_option autoImplicit false

namespace ScriptSetup.Script.Parse

/-- Reads a chunk after the current token, a backquote or a closing brace, and says whether a
hole follows it. A chunk with a malformed escape is read only where `lenient` allows it. -/
def templateChunk (lenient : Bool) : Parse (String × Bool) := do
  let s ← get
  match s.here with
  | [] => unexpected "template"
  | _ :: cs =>
    match scanTemplate cs with
    | none => fault ⟨s.start, s.stop⟩ (.unclosed "template")
    | some (body, more, rest) =>
      if !lenient && (decodeEscapes body.length body).isNone then
        fault ⟨s.start, s.stop⟩ (.malformed "escape in a template")
      else
        resume (1 + Text.byteLength body + (if more then 2 else 1)) rest
        return (String.ofList body, more)

/-- Reads a template from its opening backquote: the chunks and what stands in the holes. -/
def templateParts {α : Type} (lenient : Bool) (hole : Parse α) : Parse (List String × List α) := do
  let (first, more) ← templateChunk lenient
  let (chunks, holes, _) ← iterate (fun (chunks, holes, more) => do
    if more then
      let a ← inBrackets hole
      unless ← isPunct "\x7d" do unexpected "\x7d"
      let (chunk, more) ← templateChunk lenient
      return some (chunk :: chunks, a :: holes, more)
    else return none) ([first], [], more)
  return (chunks.reverse, holes.reverse)

end ScriptSetup.Script.Parse
