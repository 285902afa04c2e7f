import ScriptSetup.Glob.Basic

/-!
# Matching paths

A path is matched byte by byte. Each part of a pattern may take several beginnings of the bytes
before it: `Token.rests` lists what can be left over, and a pattern fits a path when nothing is
one of the things that can be left over.
-/

set_option autoImplicit false

namespace ScriptSetup.Glob

/-- The byte of a slash. -/
def slash : UInt8 := 0x2f

/-- All ends of the bytes, the whole first. -/
def suffixes : List UInt8 → List (List UInt8)
  | [] => [[]]
  | b :: bs => (b :: bs) :: suffixes bs

/-- All ends of the bytes that follow a slash. -/
def afterSlashes : List UInt8 → List (List UInt8)
  | [] => []
  | b :: bs => if b = slash then bs :: afterSlashes bs else afterSlashes bs

/-- The ranges of bytes that a range of characters stands for: the last byte of its start is
joined with the first byte of its end, and other bytes stand for themselves. -/
def byteRanges (range : Char × Char) : List (UInt8 × UInt8) :=
  let lo := String.utf8EncodeChar range.1
  let hi := String.utf8EncodeChar range.2
  let single (bs : List UInt8) : List (UInt8 × UInt8) := bs.map fun b => (b, b)
  if range.1 = range.2 then single lo
  else
    single lo.dropLast ++ (lo.getLast?.toList.zip hi.head?.toList) ++ single hi.tail

/-- The byte belongs to one of the ranges. -/
def inRanges (ranges : List (Char × Char)) (b : UInt8) : Bool :=
  ranges.any fun range => (byteRanges range).any fun (lo, hi) => lo ≤ b && b ≤ hi

mutual

/-- The part stands for nothing at all. -/
def Token.isVoid : Token → Bool
  | .alternatives branches => Token.allVoid branches
  | _ => false

/-- Each part of a branch stands for nothing. -/
def Token.isVoidBranch : List Token → Bool
  | [] => true
  | t :: rest => Token.isVoid t && Token.isVoidBranch rest

/-- Each branch stands for nothing. -/
def Token.allVoid : List (List Token) → Bool
  | [] => true
  | branch :: rest => Token.isVoidBranch branch && Token.allVoid rest

end

mutual

/-- What can be left over of the bytes after a part of a pattern. -/
def Token.rests : Token → List UInt8 → List (List UInt8)
  | .literal c, bs =>
    let code := String.utf8EncodeChar c
    if code.isPrefixOf bs then [bs.drop code.length] else []
  | .any, bs => bs.tail?.toList
  | .star, bs => suffixes bs
  | .anyStart, bs => bs :: afterSlashes bs
  | .anyEnd, bs => if bs.head? = some slash then suffixes bs.tail else []
  | .anyMiddle, bs => if bs.head? = some slash then bs.tail :: afterSlashes bs.tail else []
  | .oneOf negated ranges, bs =>
    match bs with
    | [] => []
    | b :: rest => if inRanges ranges b != negated then [rest] else []
  | .alternatives branches, bs =>
    if Token.allVoid branches then [bs] else Token.restsOfAny branches bs

/-- What can be left over after a branch, from any of several beginnings. -/
def Token.restsOfBranch : List Token → List (List UInt8) → List (List UInt8)
  | [], starts => starts
  | t :: rest, starts =>
    Token.restsOfBranch rest (starts.flatMap (Token.rests t)).eraseDups

/-- What can be left over after one of several branches. A branch that stands for nothing does
not count beside others. -/
def Token.restsOfAny : List (List Token) → List UInt8 → List (List UInt8)
  | [], _ => []
  | branch :: rest, bs =>
    let here := if Token.isVoidBranch branch then [] else Token.restsOfBranch branch [bs]
    here ++ Token.restsOfAny rest bs

end

/-- The pattern is `**` alone. -/
def isEverything : List Token → Bool
  | [.anyStart] => true
  | _ => false

/-- The pattern fits the path. The pattern `**` fits every path. -/
def fits (pattern : List Token) (path : String) : Bool :=
  isEverything pattern || (Token.restsOfBranch pattern [path.toUTF8.toList]).contains []

end ScriptSetup.Glob
