import Mathlib.Logic.ExistsUnique
import ScriptSetup.Json.Comments

/-!
# The pieces of a text with comments

A text is made of strings, comments and other characters, one after another. `Piece.Leads p rest`
says that `p` is the first piece of a text that goes on with `rest`; what it asks of `rest` is what
makes the piece as long as it can be. So each text comes apart in one way only, and taking the
comments out leaves the other pieces.

After that no comment is left: a slash that stands alone has no comment behind it, so no two
slashes meet.
-/

set_option autoImplicit false

namespace ScriptSetup.Json

/-! ## Pieces -/

/-- A piece of a text. `body` is what stands between the marks at both ends. -/
inductive Piece where
  | string (body : List Char)
  /-- a string that the text ends in -/
  | openString (body : List Char)
  | lineComment (body : List Char)
  | blockComment (body : List Char)
  /-- a comment that the text ends in -/
  | openComment (body : List Char)
  | other (c : Char)
  deriving DecidableEq, Repr

/-- The end of a comment that starts with `/*`. -/
def commentEnd : List Char := ['*', '/']

/-- Characters with no quote among them but after a backslash, which stands before any character. -/
inductive StringBody : List Char → Prop
  | nil : StringBody []
  | plain {c : Char} {cs : List Char} (hquote : c ≠ '"') (hescape : c ≠ '\\') (h : StringBody cs) :
      StringBody (c :: cs)
  | escaped (c : Char) {cs : List Char} (h : StringBody cs) : StringBody ('\\' :: c :: cs)

/-- The same, where the last backslash may have nothing after it. -/
def OpenBody (cs : List Char) : Prop :=
  StringBody cs ∨ ∃ body, StringBody body ∧ cs = body ++ ['\\']

namespace Piece

/-- The characters of a piece. -/
def chars : Piece → List Char
  | string body => '"' :: body ++ ['"']
  | openString body => '"' :: body
  | lineComment body => '/' :: '/' :: body
  | blockComment body => '/' :: '*' :: body ++ commentEnd
  | openComment body => '/' :: '*' :: body
  | other c => [c]

def isComment : Piece → Bool
  | lineComment _ | blockComment _ | openComment _ => true
  | string _ | openString _ | other _ => false

/-- The piece is the first one of a text that goes on with `rest`. -/
def Leads (rest : List Char) : Piece → Prop
  | string body => StringBody body
  | openString body => OpenBody body ∧ rest = []
  | lineComment body => '\n' ∉ body ∧ ∀ c ∈ rest.head?, c = '\n'
  | blockComment body => ¬ commentEnd <:+: body ++ ['*']
  | openComment body => ¬ commentEnd <:+: body ∧ rest = []
  | other c => c ≠ '"' ∧ (c = '/' → ∀ d ∈ rest.head?, d ≠ '/' ∧ d ≠ '*')

end Piece

variable {body rest cs : List Char} {ps : List Piece} {p : Piece}

/-- The text comes apart into these pieces, from left to right. -/
inductive Splits : List Char → List Piece → Prop
  | nil : Splits [] []
  | cons {p : Piece} {rest : List Char} {ps : List Piece} (h : p.Leads rest)
      (hrest : Splits rest ps) : Splits (p.chars ++ rest) (p :: ps)

/-- The characters of the pieces that are no comments. -/
def keptChars (ps : List Piece) : List Char :=
  (ps.filter (!·.isComment)).flatMap Piece.chars

/-! ## The first piece -/

/-- The body of a string, and what follows the closing quote when there is one. -/
def splitString : List Char → List Char × Option (List Char)
  | [] => ([], none)
  | '"' :: cs => ([], some cs)
  | '\\' :: c :: cs => ('\\' :: c :: (splitString cs).1, (splitString cs).2)
  | c :: cs => (c :: (splitString cs).1, (splitString cs).2)

theorem splitString_closed (h : StringBody body) (rest : List Char) :
    splitString (body ++ '"' :: rest) = (body, some rest) := by
  induction h with
  | nil => rfl
  | plain hquote hescape _ ih => simp [splitString, hescape, ih]
  | escaped c _ ih => simp [splitString, ih]

theorem splitString_open (h : OpenBody body) : splitString body = (body, none) := by
  have hend {body : List Char} (tail : List Char) (h : StringBody body)
      (ht : splitString tail = (tail, none)) :
      splitString (body ++ tail) = (body ++ tail, none) := by
    induction h with
    | nil => exact ht
    | plain hquote hescape _ ih => simp [splitString, hescape, ih]
    | escaped c _ ih => simp [splitString, ih]
  rcases h with h | ⟨body, h, rfl⟩
  · simpa using hend [] h rfl
  · exact hend _ h rfl

/-- What `splitString` takes off is a body, and it stops at a quote or at the end. -/
theorem splitString_spec (cs : List Char) :
    match splitString cs with
    | (body, some rest) => cs = body ++ '"' :: rest ∧ StringBody body
    | (body, none) => cs = body ∧ OpenBody body := by
  fun_induction splitString cs with
  | case1 => exact ⟨rfl, .inl .nil⟩
  | case2 cs => exact ⟨rfl, .nil⟩
  | case3 c cs ih =>
    generalize splitString cs = r at ih
    match r, ih with
    | (body, some rest), ih => exact ⟨by rw [ih.1]; rfl, .escaped c ih.2⟩
    | (body, none), ih =>
      refine ⟨by rw [ih.1], ih.2.imp (.escaped c) ?_⟩
      rintro ⟨body', h, rfl⟩
      exact ⟨_, .escaped c h, rfl⟩
  | case4 c cs hquote hescape ih =>
    have hquote : c ≠ '"' := fun h => hquote h
    generalize splitString cs = r at ih
    by_cases hc : c = '\\'
    · subst hc
      obtain rfl : cs = [] := by
        cases cs with
        | nil => rfl
        | cons d cs => exact (hescape d cs rfl rfl).elim
      match r, ih with
      | (body, some rest), ih => simp at ih
      | (body, none), ih => exact ⟨by rw [← ih.1], .inr ⟨[], .nil, by rw [← ih.1]; rfl⟩⟩
    · match r, ih with
      | (body, some rest), ih => exact ⟨by rw [ih.1]; rfl, .plain hquote hc ih.2⟩
      | (body, none), ih =>
        refine ⟨by rw [ih.1], ih.2.imp (.plain hquote hc) ?_⟩
        rintro ⟨body', h, rfl⟩
        exact ⟨_, .plain hquote hc h, rfl⟩

/-- The body of a comment, and what follows its end when there is one. -/
def splitComment : List Char → List Char × Option (List Char)
  | [] => ([], none)
  | '*' :: '/' :: cs => ([], some cs)
  | c :: cs => (c :: (splitComment cs).1, (splitComment cs).2)

theorem splitComment_closed (h : ¬ commentEnd <:+: body ++ ['*']) (rest : List Char) :
    splitComment (body ++ commentEnd ++ rest) = (body, some rest) := by
  induction body with
  | nil => rfl
  | cons c body ih =>
    have hbody : ¬ commentEnd <:+: body ++ ['*'] := fun hin =>
      h (hin.trans (List.suffix_cons c _).isInfix)
    have hfront : c = '*' → (body ++ commentEnd ++ rest).head? ≠ some '/' := by
      rintro rfl hhead
      cases body with
      | nil => simp [commentEnd] at hhead
      | cons d body =>
        obtain rfl : d = '/' := by simpa using hhead
        exact h ⟨[], body ++ ['*'], rfl⟩
    generalize hcs : body ++ commentEnd ++ rest = cs at ih hfront
    rw [List.cons_append, List.cons_append, hcs, splitComment, ih hbody]
    intro cs' hc hcs'
    exact hfront hc (by rw [hcs']; rfl)

theorem splitComment_open (h : ¬ commentEnd <:+: body) : splitComment body = (body, none) := by
  induction body with
  | nil => rfl
  | cons c body ih =>
    rw [splitComment, ih fun hin => h (hin.trans (List.suffix_cons c _).isInfix)]
    rintro cs rfl rfl
    exact h ⟨[], cs, rfl⟩

/-- What `splitComment` takes off holds no end, and it stops at the first end. -/
theorem splitComment_spec (cs : List Char) :
    match splitComment cs with
    | (body, some rest) => cs = body ++ commentEnd ++ rest ∧ ¬ commentEnd <:+: body ++ ['*']
    | (body, none) => cs = body ∧ ¬ commentEnd <:+: body := by
  fun_induction splitComment cs with
  | case1 | case2 cs => exact ⟨rfl, by decide⟩
  | case3 c cs hend ih =>
    have hinfix {body : List Char} (hin : commentEnd <:+: c :: body)
        (h : ¬ commentEnd <:+: body) : c = '*' ∧ ∃ tail, body = '/' :: tail := by
      rcases List.infix_cons_iff.1 hin with hpre | hin
      · obtain ⟨tail, htail⟩ := hpre
        obtain ⟨rfl, rfl⟩ := List.cons.inj htail
        exact ⟨rfl, tail, rfl⟩
      · exact (h hin).elim
    generalize splitComment cs = r at ih
    match r, ih with
    | (body, some rest), ⟨hcs, hbody⟩ =>
      refine ⟨by rw [hcs]; rfl, fun hin => ?_⟩
      obtain ⟨rfl, tail, htail⟩ := hinfix hin hbody
      cases body with
      | nil => cases htail
      | cons d body =>
        obtain rfl : d = '/' := (List.cons.inj htail).1
        exact hend _ rfl hcs
    | (body, none), ⟨hcs, hbody⟩ =>
      refine ⟨by rw [hcs], fun hin => ?_⟩
      obtain ⟨rfl, tail, rfl⟩ := hinfix hin hbody
      exact hend tail rfl hcs

/-- The first piece of a text, and what follows it. -/
def front : List Char → Option (Piece × List Char)
  | [] => none
  | '"' :: cs =>
    match splitString cs with
    | (body, some rest) => some (.string body, rest)
    | (body, none) => some (.openString body, [])
  | '/' :: '/' :: cs => some (.lineComment (cs.takeWhile (· != '\n')), cs.dropWhile (· != '\n'))
  | '/' :: '*' :: cs =>
    match splitComment cs with
    | (body, some rest) => some (.blockComment body, rest)
    | (body, none) => some (.openComment body, [])
  | c :: cs => some (.other c, cs)

theorem front_of_leads (h : p.Leads rest) : front (p.chars ++ rest) = some (p, rest) := by
  cases p with
  | string body =>
    have hsplit := splitString_closed h rest
    simp [Piece.chars, front, hsplit]
  | openString body =>
    obtain ⟨hbody, rfl⟩ := h
    simp [Piece.chars, front, splitString_open hbody]
  | lineComment body =>
    obtain ⟨hbody, hrest⟩ := h
    have hall : ∀ c ∈ body, (c != '\n') = true := fun c hc => by
      simpa using fun heq : c = '\n' => hbody (heq ▸ hc)
    have hstop : rest.takeWhile (· != '\n') = [] ∧ rest.dropWhile (· != '\n') = rest := by
      cases rest with
      | nil => exact ⟨rfl, rfl⟩
      | cons c rest =>
        obtain rfl := hrest c rfl
        exact ⟨rfl, rfl⟩
    simp [Piece.chars, front, List.takeWhile_append_of_pos hall, List.dropWhile_append_of_pos hall,
      hstop]
  | blockComment body =>
    have hsplit := splitComment_closed h rest
    simp only [List.append_assoc] at hsplit
    simp [Piece.chars, front, hsplit]
  | openComment body =>
    obtain ⟨hbody, rfl⟩ := h
    simp [Piece.chars, front, splitComment_open hbody]
  | other c =>
    obtain ⟨hquote, hslash⟩ := h
    rw [Piece.chars, List.singleton_append, front]
    · exact fun hc => hquote hc
    · rintro cs rfl rfl
      exact (hslash rfl '/' rfl).1 rfl
    · rintro cs rfl rfl
      exact (hslash rfl '*' rfl).2 rfl

theorem exists_leads (c : Char) (cs : List Char) :
    ∃ p rest, c :: cs = Piece.chars p ++ rest ∧ p.Leads rest := by
  by_cases hquote : c = '"'
  · subst hquote
    have hspec := splitString_spec cs
    split at hspec
    next body rest _ =>
      obtain ⟨rfl, hbody⟩ := hspec
      exact ⟨.string body, rest, by simp [Piece.chars], hbody⟩
    next body _ =>
      obtain ⟨rfl, hbody⟩ := hspec
      exact ⟨.openString _, [], by simp [Piece.chars], hbody, rfl⟩
  · by_cases hline : c = '/' ∧ cs.head? = some '/'
    · obtain ⟨rfl, hhead⟩ := hline
      obtain ⟨cs, rfl⟩ := List.head?_eq_some_iff.1 hhead
      refine ⟨.lineComment (cs.takeWhile (· != '\n')), cs.dropWhile (· != '\n'), ?_, ?_, ?_⟩
      · simp [Piece.chars]
      · intro hin
        simpa using List.all_eq_true.1 List.all_takeWhile _ hin
      · intro d hd
        have hstop := List.head?_dropWhile_not (· != '\n') cs
        rw [Option.mem_def.1 hd] at hstop
        simpa using hstop
    · by_cases hblock : c = '/' ∧ cs.head? = some '*'
      · obtain ⟨rfl, hhead⟩ := hblock
        obtain ⟨cs, rfl⟩ := List.head?_eq_some_iff.1 hhead
        have hspec := splitComment_spec cs
        split at hspec
        next body rest _ =>
          obtain ⟨rfl, hbody⟩ := hspec
          exact ⟨.blockComment body, rest, by simp [Piece.chars], hbody⟩
        next body _ =>
          obtain ⟨rfl, hbody⟩ := hspec
          exact ⟨.openComment _, [], by simp [Piece.chars], hbody, rfl⟩
      · refine ⟨.other c, cs, rfl, hquote, fun hc d hd => ⟨?_, ?_⟩⟩
        · rintro rfl
          exact hline ⟨hc, hd⟩
        · rintro rfl
          exact hblock ⟨hc, hd⟩

/-! ## One way to come apart -/

theorem Piece.chars_ne_nil (p : Piece) : p.chars ≠ [] := by
  cases p <;> exact List.cons_ne_nil _ _

theorem exists_splits (cs : List Char) : ∃ ps, Splits cs ps := by
  cases cs with
  | nil => exact ⟨[], .nil⟩
  | cons c tail =>
    obtain ⟨p, rest, heq, hp⟩ := exists_leads c tail
    have hlt : rest.length < (c :: tail).length := by
      rw [heq, List.length_append]
      exact Nat.lt_add_of_pos_left (List.length_pos_iff.2 p.chars_ne_nil)
    obtain ⟨ps, hps⟩ := exists_splits rest
    exact ⟨p :: ps, heq ▸ .cons hp hps⟩
  termination_by cs.length
  decreasing_by exact hlt

theorem Splits.unique {qs : List Piece} (hp : Splits cs ps) (hq : Splits cs qs) : ps = qs := by
  induction hp generalizing qs with
  | nil =>
    cases hcs : ([] : List Char) with
    | nil =>
      generalize hnil : ([] : List Char) = cs at hq
      cases hq with
      | nil => rfl
      | cons h hrest => exact (Piece.chars_ne_nil _ (List.append_eq_nil_iff.1 hnil.symm).1).elim
    | cons => cases hcs
  | @cons p rest ps h hrest ih =>
    generalize hcs : p.chars ++ rest = cs at hq
    cases hq with
    | nil => exact (Piece.chars_ne_nil _ (List.append_eq_nil_iff.1 hcs).1).elim
    | @cons q rest' qs h' hrest' =>
      have hfront := front_of_leads h
      rw [hcs, front_of_leads h'] at hfront
      obtain ⟨rfl, rfl⟩ := Prod.mk.inj (Option.some.inj hfront)
      rw [ih hrest']

/-! ## Taking comments out -/

theorem dropComments_quoted (h : StringBody body) (rest : List Char) :
    dropComments .quoted (body ++ '"' :: rest) = body ++ '"' :: dropComments .plain rest := by
  induction h with
  | nil => rfl
  | plain hquote hescape _ ih => simp [dropComments, hescape, ih]
  | escaped c _ ih => simp [dropComments, ih]

theorem dropComments_open (h : OpenBody body) : dropComments .quoted body = body := by
  have hend {body : List Char} (tail : List Char) (h : StringBody body)
      (ht : dropComments .quoted tail = tail) :
      dropComments .quoted (body ++ tail) = body ++ tail := by
    induction h with
    | nil => exact ht
    | plain hquote hescape _ ih => simp [dropComments, hescape, ih]
    | escaped c _ ih => simp [dropComments, ih]
  rcases h with h | ⟨body, h, rfl⟩
  · simpa using hend [] h rfl
  · exact hend _ h rfl

theorem dropComments_line (hbody : '\n' ∉ body) (hrest : ∀ c ∈ rest.head?, c = '\n') :
    dropComments .line (body ++ rest) = dropComments .plain rest := by
  induction body with
  | nil =>
    cases rest with
    | nil => rfl
    | cons c rest =>
      obtain rfl := hrest c rfl
      rfl
  | cons c body ih =>
    obtain ⟨hc, hbody⟩ := not_or.1 (mt List.mem_cons.2 hbody)
    rw [List.cons_append, dropComments, ih hbody]
    exact fun h => hc h.symm

theorem dropComments_block (cs : List Char) :
    dropComments .block cs = ((splitComment cs).2.map (dropComments .plain)).getD [] := by
  fun_induction splitComment cs with
  | case1 | case2 cs => rfl
  | case3 c cs hend ih => rw [dropComments, ih]; exact hend

/-- The first piece is left out when it is a comment. -/
theorem dropComments_leads (h : p.Leads rest) : dropComments .plain (p.chars ++ rest) =
      (if p.isComment then [] else p.chars) ++ dropComments .plain rest := by
  cases p with
  | string body =>
    have hbody := dropComments_quoted h rest
    simp [Piece.chars, Piece.isComment, dropComments, hbody]
  | openString body =>
    obtain ⟨hbody, rfl⟩ := h
    simp [Piece.chars, Piece.isComment, dropComments, dropComments_open hbody]
  | lineComment body =>
    have hbody := dropComments_line h.1 h.2
    simpa [Piece.chars, Piece.isComment, dropComments] using hbody
  | blockComment body =>
    have hbody := splitComment_closed h rest
    simp only [List.append_assoc] at hbody
    simp [Piece.chars, Piece.isComment, dropComments, dropComments_block, hbody]
  | openComment body =>
    obtain ⟨hbody, rfl⟩ := h
    simp [Piece.chars, Piece.isComment, dropComments, dropComments_block, splitComment_open hbody]
  | other c =>
    obtain ⟨hquote, hslash⟩ := h
    rw [Piece.chars, List.singleton_append, dropComments]
    · rfl
    · exact fun hc => hquote hc
    · rintro cs rfl rfl
      exact (hslash rfl '/' rfl).1 rfl
    · rintro cs rfl rfl
      exact (hslash rfl '*' rfl).2 rfl

/-- Taking the comments out of a text leaves the pieces that are no comments. -/
theorem Splits.dropComments_eq (h : Splits cs ps) : dropComments .plain cs = keptChars ps := by
  induction h with
  | nil => rfl
  | @cons p rest ps hp _ ih =>
    rw [dropComments_leads hp, ih, keptChars, keptChars, List.filter_cons]
    cases p.isComment <;> simp

/-! ## Twice is as good as once -/

/-- A piece that is kept leads what is kept of the rest. A slash has no comment behind it. -/
theorem Piece.Leads.kept (h : p.Leads rest) (hrest : Splits rest ps) (hp : p.isComment = false) :
    p.Leads (keptChars ps) := by
  cases p with
  | string body => exact h
  | openString body =>
    obtain ⟨hbody, rfl⟩ := h
    exact ⟨hbody, hrest.dropComments_eq.symm⟩
  | lineComment _ | blockComment _ | openComment _ => cases hp
  | other c =>
    refine ⟨h.1, fun hc d hd => ?_⟩
    have hnext := h.2 hc
    cases hrest with
    | nil => cases hd
    | @cons q rest' qs hq hrest' =>
      cases q with
      | lineComment _ | blockComment _ | openComment _ => exact ((hnext '/' rfl).1 rfl).elim
      | string _ | openString _ | other _ => exact hnext d hd

theorem Splits.kept (h : Splits cs ps) : Splits (keptChars ps) (ps.filter (!·.isComment)) := by
  induction h with
  | nil => exact .nil
  | @cons p rest ps hp hrest ih =>
    cases hcomment : p.isComment with
    | true => simpa [keptChars, hcomment] using ih
    | false =>
      have hcons := Splits.cons (hp.kept hrest hcomment) ih
      simpa [keptChars, hcomment] using hcons

/-- Taking comments out a second time changes nothing. -/
theorem dropComments_idem (cs : List Char) :
    dropComments .plain (dropComments .plain cs) = dropComments .plain cs := by
  obtain ⟨ps, hps⟩ := exists_splits cs
  rw [hps.dropComments_eq, hps.kept.dropComments_eq, keptChars, List.filter_filter]
  simp [keptChars]

end ScriptSetup.Json
