import Mathlib.Data.List.Chain
import ScriptSetup.Json.Scan
import ScriptSetup.Proofs.Json.Pieces

/-!
# JSON with comments between its tokens

The tokens of JSON carry the rules for their characters, and `Derives` says which lists of tokens
are values. A `Layout` puts white space and comments before each token and at the end. Written
with `Filler.bare` it is a JSON text; written with `Filler.commented` it is the same text with
comments in it; `Filler.left` is what remains of the second when the comments are taken out: a line
comment leaves its line feed.
-/

set_option autoImplicit false

namespace ScriptSetup.Json

/-! ## Tokens -/

inductive Punct where
  | openList | closeList | openObject | closeObject | comma | colon
  deriving DecidableEq, Repr

def Punct.char : Punct → Char
  | openList => '['
  | closeList => ']'
  | openObject => '\x7b'
  | closeObject => '\x7d'
  | comma => ','
  | colon => ':'

def isHexDigit (c : Char) : Bool :=
  ('0' ≤ c && c ≤ '9') || ('a' ≤ c && c ≤ 'f') || ('A' ≤ c && c ≤ 'F')

/-- What a string is made of between its quotes. -/
inductive StringItem where
  | plain (c : Char) (hquote : c ≠ '"') (hescape : c ≠ '\\') (hcontrol : 0x20 ≤ c.toNat)
  | escape (c : Char) (h : c ∈ ['"', '\\', '/', 'b', 'f', 'n', 'r', 't'])
  | unit (digits : List Char) (hlength : digits.length = 4) (h : ∀ c ∈ digits, isHexDigit c)

def StringItem.chars : StringItem → List Char
  | plain c _ _ _ => [c]
  | escape c _ => ['\\', c]
  | unit digits _ _ => '\\' :: 'u' :: digits

structure Digits where
  chars : List Char
  ne_nil : chars ≠ []
  isDigit : ∀ c ∈ chars, Number.isDigit c

structure Exponent where
  mark : Char
  isMark : mark = 'e' ∨ mark = 'E'
  sign : List Char
  isSign : sign ∈ [[], ['+'], ['-']]
  digits : Digits

def Exponent.chars (e : Exponent) : List Char :=
  e.mark :: e.sign ++ e.digits.chars

structure Numeral where
  negative : Bool
  whole : Digits
  /-- a zero stands in front only when it is the only digit -/
  leading : whole.chars.head? = some '0' → whole.chars = ['0']
  fraction : Option Digits
  exponent : Option Exponent

namespace Numeral

/-- A numeral after its whole part. -/
def tail (n : Numeral) : List Char :=
  (n.fraction.elim [] fun d => '.' :: d.chars) ++ n.exponent.elim [] Exponent.chars

def unsigned (n : Numeral) : List Char :=
  n.whole.chars ++ n.tail

def chars (n : Numeral) : List Char :=
  if n.negative then '-' :: n.unsigned else n.unsigned

end Numeral

inductive Word where
  | true | false | null
  deriving DecidableEq, Repr

def Word.chars : Word → List Char
  | true => ['t', 'r', 'u', 'e']
  | false => ['f', 'a', 'l', 's', 'e']
  | null => ['n', 'u', 'l', 'l']

inductive Lexeme where
  | punct (p : Punct)
  | string (items : List StringItem)
  | numeral (n : Numeral)
  | word (w : Word)

namespace Lexeme

def chars : Lexeme → List Char
  | punct p => [p.char]
  | string items => '"' :: items.flatMap StringItem.chars ++ ['"']
  | numeral n => n.chars
  | word w => w.chars

def isPunct : Lexeme → Bool
  | punct _ => true
  | string _ | numeral _ | word _ => false

end Lexeme

/-! ## Values -/

/-- What a list of tokens may be. -/
inductive Part where
  | value
  /-- values with commas between them -/
  | elements
  /-- keys with their values and commas between them -/
  | members
  deriving DecidableEq, Repr

/-- The grammar of JSON. -/
inductive Derives : Part → List Lexeme → Prop
  | string (items : List StringItem) : Derives .value [.string items]
  | numeral (n : Numeral) : Derives .value [.numeral n]
  | word (w : Word) : Derives .value [.word w]
  | emptyList : Derives .value [.punct .openList, .punct .closeList]
  | list {ls : List Lexeme} (h : Derives .elements ls) :
      Derives .value (.punct .openList :: ls ++ [.punct .closeList])
  | emptyObject : Derives .value [.punct .openObject, .punct .closeObject]
  | object {ls : List Lexeme} (h : Derives .members ls) :
      Derives .value (.punct .openObject :: ls ++ [.punct .closeObject])
  | element {ls : List Lexeme} (h : Derives .value ls) : Derives .elements ls
  | elements {ls ls' : List Lexeme} (h : Derives .value ls) (h' : Derives .elements ls') :
      Derives .elements (ls ++ .punct .comma :: ls')
  | member {ls : List Lexeme} (key : List StringItem) (h : Derives .value ls) :
      Derives .members (.string key :: .punct .colon :: ls)
  | members {ls ls' : List Lexeme} (key : List StringItem) (h : Derives .value ls)
      (h' : Derives .members ls') :
      Derives .members (.string key :: .punct .colon :: ls ++ .punct .comma :: ls')

/-- Of two tokens side by side one is punctuation. -/
def Apart (ls : List Lexeme) : Prop :=
  ls.IsChain fun l l' => l.isPunct ∨ l'.isPunct

theorem Apart.append_punct {ls ls' : List Lexeme} {p : Punct} (h : Apart ls)
    (h' : Apart (.punct p :: ls')) : Apart (ls ++ .punct p :: ls') :=
  List.isChain_append.2 ⟨h, h', fun _ _ _ hl => by cases hl; exact .inr rfl⟩

theorem Apart.punct_cons {ls : List Lexeme} (p : Punct) (h : Apart ls) : Apart (.punct p :: ls) :=
  List.isChain_cons.2 ⟨fun _ _ => .inl rfl, h⟩

theorem Apart.key {ls : List Lexeme} (items : List StringItem) (h : Apart ls) :
    Apart (.string items :: .punct .colon :: ls) :=
  List.isChain_cons.2 ⟨fun _ hl => by cases hl; exact .inr rfl, h.punct_cons .colon⟩

theorem Derives.apart {part : Part} {ls : List Lexeme} (h : Derives part ls) : Apart ls := by
  have hclose (p : Punct) : Apart [.punct p] := .singleton _
  induction h with
  | string _ | numeral _ | word _ => exact .singleton _
  | emptyList | emptyObject => exact (hclose _).punct_cons _
  | list _ ih | object _ ih => exact (ih.punct_cons _).append_punct (hclose _)
  | element _ ih => exact ih
  | elements _ _ ih ih' => exact ih.append_punct (ih'.punct_cons _)
  | member key _ ih => exact ih.key key
  | members key _ _ ih ih' => exact (ih.key key).append_punct (ih'.punct_cons _)

/-! ## Layouts -/

/-- What may stand between two tokens. Comments are closed. -/
inductive Filler where
  | space (c : Char) (h : isSpace c)
  | line (body : List Char) (h : '\n' ∉ body)
  | block (body : List Char) (h : ¬ commentEnd <:+: body ++ ['*'])

namespace Filler

/-- A filler as it stands, a line comment with its line feed. -/
def commented : Filler → List Char
  | space c _ => [c]
  | line body _ => (Piece.lineComment body).chars ++ ['\n']
  | block body _ => (Piece.blockComment body).chars

/-- A filler where no comments are put in. -/
def bare : Filler → List Char
  | space c _ => [c]
  | line _ _ | block _ _ => []

/-- What remains of a filler without comments. -/
def left : Filler → List Char
  | space c _ => [c]
  | line _ _ => ['\n']
  | block _ _ => []

end Filler

/-- Tokens, each with what stands before it, and what stands after the last one. -/
structure Layout where
  tokens : List (List Filler × Lexeme)
  last : List Filler

namespace Layout

def lexemes (l : Layout) : List Lexeme :=
  l.tokens.map (·.2)

/-- The characters of a layout when fillers are written so. -/
def chars (write : Filler → List Char) (l : Layout) : List Char :=
  (l.tokens.flatMap fun t => t.1.flatMap write ++ t.2.chars) ++ l.last.flatMap write

/-- The text of a layout when fillers are written so. -/
def text (write : Filler → List Char) (l : Layout) : String :=
  String.ofList (l.chars write)

end Layout

/-- The text is one value of JSON, with white space between its tokens. -/
def IsJson (text : String) : Prop :=
  ∃ l : Layout, Derives .value l.lexemes ∧ l.text Filler.bare = text

/-! ## Taking the comments out of a layout -/

/-- Characters that are outside strings and are no part of a comment, whatever follows. -/
def isInert (c : Char) : Bool :=
  c != '"' && c != '/'

theorem dropComments_inert {cs : List Char} (h : ∀ c ∈ cs, isInert c) (rest : List Char) :
    dropComments .plain (cs ++ rest) = cs ++ dropComments .plain rest := by
  induction cs with
  | nil => rfl
  | cons c cs ih =>
    have hc := h c (.head cs)
    simp only [isInert, Bool.and_eq_true, bne_iff_ne] at hc
    have hlead : (Piece.other c).Leads (cs ++ rest) := ⟨hc.1, fun hslash => (hc.2 hslash).elim⟩
    have hdrop := dropComments_leads hlead
    rw [ih fun d hd => h d (.tail c hd)] at hdrop
    exact hdrop

theorem isInert_of_isDigit {c : Char} (h : Number.isDigit c) : isInert c := by
  simp only [isInert, Bool.and_eq_true, bne_iff_ne]
  constructor <;> rintro rfl <;> revert h <;> decide

theorem isInert_of_isSpace {c : Char} (h : isSpace c) : isInert c := by
  simp only [isInert, Bool.and_eq_true, bne_iff_ne]
  constructor <;> rintro rfl <;> revert h <;> decide

theorem Exponent.isInert_of_mem {e : Exponent} {c : Char} (h : c ∈ e.chars) : isInert c := by
  simp only [Exponent.chars, List.cons_append, List.mem_cons, List.mem_append] at h
  rcases h with rfl | hsign | hdigit
  · rcases e.isMark with hmark | hmark <;> rw [hmark] <;> rfl
  · have hmem := e.isSign
    revert hsign
    simp only [List.mem_cons, List.not_mem_nil, or_false] at hmem
    rcases hmem with hs | hs | hs <;> rw [hs]
    · simp
    · simpa using fun h : c = '+' => h ▸ rfl
    · simpa using fun h : c = '-' => h ▸ rfl
  · exact isInert_of_isDigit (e.digits.isDigit c hdigit)

theorem Numeral.isInert_of_mem {n : Numeral} {c : Char} (h : c ∈ n.chars) : isInert c := by
  have hunsigned (h : c ∈ n.unsigned) : isInert c := by
    rcases List.mem_append.1 h with hwhole | htail
    · exact isInert_of_isDigit (n.whole.isDigit c hwhole)
    · rcases List.mem_append.1 htail with hfraction | hexponent
      · cases hf : n.fraction with
        | none => simp [hf] at hfraction
        | some d =>
          rw [hf] at hfraction
          rcases List.mem_cons.1 hfraction with rfl | hdigit
          · rfl
          · exact isInert_of_isDigit (d.isDigit c hdigit)
      · cases he : n.exponent with
        | none => simp [he] at hexponent
        | some e =>
          rw [he] at hexponent
          exact Exponent.isInert_of_mem hexponent
  rw [Numeral.chars] at h
  split at h
  · rcases List.mem_cons.1 h with rfl | h
    · rfl
    · exact hunsigned h
  · exact hunsigned h

theorem isStringBody_items (items : List StringItem) :
    StringBody (items.flatMap StringItem.chars) := by
  have hhex {cs : List Char} {tail : List Char} (h : ∀ c ∈ cs, isHexDigit c)
      (htail : StringBody tail) : StringBody (cs ++ tail) := by
    induction cs with
    | nil => exact htail
    | cons c cs ih =>
      have hc := h c (.head cs)
      refine .plain ?_ ?_ (ih fun d hd => h d (.tail c hd)) <;> rintro rfl <;> revert hc <;> decide
  induction items with
  | nil => exact .nil
  | cons item items ih =>
    cases item with
    | plain c hquote hescape _ => exact .plain hquote hescape ih
    | escape c _ => exact .escaped c ih
    | unit digits _ h =>
      have htail := hhex h ih
      simpa [StringItem.chars] using StringBody.escaped 'u' htail

theorem dropComments_lexeme (l : Lexeme) (rest : List Char) :
    dropComments .plain (l.chars ++ rest) = l.chars ++ dropComments .plain rest := by
  cases l with
  | punct p => exact dropComments_inert (List.all_eq_true.1 (by cases p <;> rfl)) rest
  | string items =>
    exact dropComments_leads (p := .string (items.flatMap StringItem.chars))
      (isStringBody_items items)
  | numeral n => exact dropComments_inert (fun _ => Numeral.isInert_of_mem) rest
  | word w => exact dropComments_inert (List.all_eq_true.1 (by cases w <;> rfl)) rest

theorem Filler.dropComments_bare (f : Filler) (rest : List Char) :
    dropComments .plain (f.bare ++ rest) = f.bare ++ dropComments .plain rest := by
  cases f with
  | space c h => exact dropComments_inert (by simpa [bare] using isInert_of_isSpace h) rest
  | line _ _ | block _ _ => rfl

theorem Filler.dropComments_commented (f : Filler) (rest : List Char) :
    dropComments .plain (f.commented ++ rest) = f.left ++ dropComments .plain rest := by
  cases f with
  | space c h => exact dropComments_inert (by simpa [commented] using isInert_of_isSpace h) rest
  | line body h =>
    have hlead : (Piece.lineComment body).Leads ('\n' :: rest) := ⟨h, fun c hc => by
      simpa using hc.symm⟩
    have hdrop := dropComments_leads hlead
    simpa [Filler.commented, Filler.left, Piece.isComment, dropComments] using hdrop
  | block body h => exact dropComments_leads (p := .blockComment body) h

/-- When taking comments out turns `write f` into `keep f` for every filler, it turns a layout
that is written the one way into the layout that is written the other. -/
theorem Layout.dropComments_chars {write keep : Filler → List Char}
    (h : ∀ f rest, dropComments .plain (write f ++ rest) = keep f ++ dropComments .plain rest)
    (l : Layout) : dropComments .plain (l.chars write) = l.chars keep := by
  have hgap (fs : List Filler) (rest : List Char) :
      dropComments .plain (fs.flatMap write ++ rest) =
        fs.flatMap keep ++ dropComments .plain rest := by
    induction fs with
    | nil => rfl
    | cons f fs ih => simp only [List.flatMap_cons, List.append_assoc, h, ih]
  obtain ⟨tokens, last⟩ := l
  induction tokens with
  | nil => simpa [Layout.chars, dropComments] using hgap last []
  | cons t tokens ih =>
    simp only [Layout.chars, List.flatMap_cons, List.append_assoc] at ih ⊢
    rw [hgap, dropComments_lexeme, ih]

/-- A JSON text has no comments. -/
theorem withoutComments_of_isJson {text : String} (h : IsJson text) :
    withoutComments text = text := by
  obtain ⟨l, -, rfl⟩ := h
  rw [withoutComments, Layout.text, String.toList_ofList,
    l.dropComments_chars Filler.dropComments_bare]

theorem Layout.withoutComments_commented (l : Layout) :
    withoutComments (l.text Filler.commented) = l.text Filler.left := by
  rw [withoutComments, Layout.text, String.toList_ofList,
    l.dropComments_chars Filler.dropComments_commented]
  rfl

end ScriptSetup.Json
