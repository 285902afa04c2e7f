import Mathlib.Data.List.Chain
import ScriptSetup.Proofs.Block.TagGrammar

/-!
# Tokens tile their source

The tokens of a tag lose nothing: between them stand blanks only, and each is the longest text at
its place that fits a pattern. `Stands` says which token stands at the front of a text, and what
matches a pattern at a place is the start of the token that stands there. Where the text starts
does not matter but for the places of the tokens.
-/

set_option autoImplicit false

namespace ScriptSetup.Block

open Text

/-! ## Patterns -/

/-- The texts of the tokens of a kind. The end of the text and what is invalid have no pattern. -/
def TagTokenKind.Matches : TagTokenKind → List Char → Prop
  | .close, text => text = ['>']
  | .selfClose, text => text = ['/', '>']
  | .equals, text => text = ['=']
  | .slash, text => text = ['/']
  | .doubleQuoted, text => ∃ body, text = '"' :: body ++ ['"'] ∧ '"' ∉ body
  | .singleQuoted, text => ∃ body, text = '\'' :: body ++ ['\''] ∧ '\'' ∉ body
  | .name, text => text ≠ [] ∧ ∀ c ∈ text, isTagNameChar c = true
  | .eof, _ | .invalid, _ => False

namespace TagToken

theorem Stands.matches {kind : TagTokenKind} {text rest : List Char} (h : Stands kind text rest)
    (hkind : kind ≠ .invalid) : kind.Matches text := by
  cases h with
  | quoted _ hquote hbody => cases hquote <;> exact ⟨_, rfl, hbody⟩
  | name hne hchars => exact ⟨hne, hchars⟩
  | stray | unclosed => exact absurd rfl hkind
  | _ => rfl

/-- What matches at the front of a text is the start of the token that stands there. -/
theorem exists_stands_of_matches {kind : TagTokenKind} {text : List Char} (h : kind.Matches text)
    (rest : List Char) :
    ∃ kind' more rest', rest = more ++ rest' ∧ Stands kind' (text ++ more) rest' := by
  have whole {kind : TagTokenKind} (hstands : Stands kind text rest) :
      ∃ kind' more rest', rest = more ++ rest' ∧ Stands kind' (text ++ more) rest' :=
    ⟨kind, [], rest, rfl, (List.append_nil text).symm ▸ hstands⟩
  cases kind with
  | close =>
    obtain rfl : text = ['>'] := h
    exact whole (.close rest)
  | selfClose =>
    obtain rfl : text = ['/', '>'] := h
    exact whole (.selfClose rest)
  | equals =>
    obtain rfl : text = ['='] := h
    exact whole (.equals rest)
  | doubleQuoted =>
    obtain ⟨body, rfl, hbody⟩ := h
    exact whole (.quoted rest .double hbody)
  | singleQuoted =>
    obtain ⟨body, rfl, hbody⟩ := h
    exact whole (.quoted rest .single hbody)
  | slash =>
    obtain rfl : text = ['/'] := h
    by_cases hclose : rest.head? = some '>'
    · obtain ⟨rest', rfl⟩ := List.head?_eq_some_iff.1 hclose
      exact ⟨_, ['>'], rest', rfl, .selfClose rest'⟩
    · exact whole (.slash hclose)
  | name =>
    obtain ⟨hne, hchars⟩ := h
    refine ⟨.name, rest.takeWhile isTagNameChar, rest.dropWhile isTagNameChar,
      List.takeWhile_append_dropWhile.symm, .name (by simp [hne]) ?_ ?_⟩
    · exact List.forall_mem_append.2 ⟨hchars, List.all_eq_true.1 List.all_takeWhile⟩
    · exact endsName_dropWhile rest
  | eof | invalid => exact h.elim

/-- One token stands at the front of a text. -/
theorem Stands.unique {kind kind' : TagTokenKind} {text text' rest rest' : List Char}
    (h : Stands kind text rest) (h' : Stands kind' text' rest')
    (heq : text ++ rest = text' ++ rest') : text = text' := by
  obtain ⟨c, cs, hcs⟩ : ∃ c cs, text ++ rest = c :: cs :=
    List.exists_cons_of_ne_nil fun hnil => h.ne_nil (List.append_eq_nil_iff.1 hnil).1
  have hscan := h.scan_eq hcs.symm
  rw [h'.scan_eq (heq ▸ hcs).symm] at hscan
  exact congrArg (·.2.1) hscan.symm

theorem Stands.longest {kind kind' : TagTokenKind} {text text' rest : List Char}
    (h : Stands kind text rest) (hmatches : kind'.Matches text') (hfront : text' <+: text ++ rest) :
    text' <+: text := by
  obtain ⟨after, hafter⟩ := hfront
  obtain ⟨kind'', more, rest', rfl, hstands⟩ := exists_stands_of_matches hmatches after
  rw [← List.append_assoc] at hafter
  exact ⟨more, hstands.unique h hafter⟩

/-! ## Places -/

/-- Blanks stand between two tokens. -/
def Follows (p q : TagToken × List Char) : Prop :=
  ∃ blank, p.2 = blank ++ q.1.text ++ q.2 ∧ (∀ c ∈ blank, isTagBlank c = true) ∧
    q.1.span.start = p.1.span.stop + byteLength blank

namespace Lexes

variable {offset : Nat} {cs : List Char} {ps : List (TagToken × List Char)}

/-- The end of the text stands at its end. -/
theorem eof_eq (h : Lexes offset cs ps) : ∀ p ∈ ps, p.1.kind = .eof →
    p.1 = ⟨.eof, .ofOffsets (offset + byteLength cs) (offset + byteLength cs), []⟩ := by
  induction h with
  | eof offset => exact List.forall_mem_singleton.2 fun _ => rfl
  | blank _ _ ih => exact fun p hp hkind => by rw [ih p hp hkind, Nat.add_assoc]; rfl
  | token hstands _ ih =>
    refine List.forall_mem_cons.2 ⟨fun hkind => absurd hkind hstands.ne_eof, fun p hp hkind => ?_⟩
    rw [ih p hp hkind, Nat.add_assoc, byteLength_append]

theorem follows (h : Lexes offset cs ps) (hsize : offset + byteLength cs < Span.limit)
    {t : TagToken} (ht : t.span.stop = offset) : ((t, cs) :: ps).IsChain Follows := by
  induction h generalizing t with
  | eof offset =>
    refine .cons_cons ⟨[], rfl, by simp, ?_⟩ (.singleton _)
    exact (Nat.mod_eq_of_lt hsize).trans ht.symm
  | @blank offset c cs ps hc h ih =>
    rw [byteLength_cons, ← Nat.add_assoc] at hsize
    -- the chain from behind the blank, whose first link takes the blank in
    have hchain := @ih hsize ⟨.eof, ⟨offset, offset + c.utf8Size⟩, []⟩ rfl
    cases hchain with
    | cons_cons hfollows hchain =>
      obtain ⟨blank, hcs, hblank, hstart⟩ := hfollows
      refine .cons_cons ⟨c :: blank, ?_, List.forall_mem_cons.2 ⟨hc, hblank⟩, ?_⟩ hchain
      · rw [show cs = _ from hcs]
        rfl
      · rw [hstart, ht, byteLength_cons, Nat.add_assoc]
    | singleton => exact .singleton _
  | @token offset kind text rest ps _ _ ih =>
    rw [byteLength_append, ← Nat.add_assoc] at hsize
    refine .cons_cons ⟨[], rfl, by simp, ?_⟩ (ih hsize (Nat.mod_eq_of_lt (by omega)))
    exact (Nat.mod_eq_of_lt (by omega)).trans ht.symm

end Lexes

end TagToken

/-! ## The tokens of a source -/

/-- The text from one span to the next is blank. -/
def BlankBetween (source : List Char) (s s' : Span) : Prop :=
  ∃ blank, Span.slice? ⟨s.stop, s'.start⟩ source = some blank ∧
    ∀ c ∈ blank, isTagBlank c = true

/-- The tokens are those of the source from `base` on. -/
structure Tiles (source : List Char) (base : Nat) (tokens : List TagToken) : Prop where
  /-- the end of the source comes last, and nowhere else -/
  ends : ∃ front, tokens = front ++ [⟨.eof, ⟨byteLength source, byteLength source⟩, []⟩] ∧
    ∀ t ∈ front, t.kind ≠ .eof
  covers : ∀ t ∈ tokens, t.span.slice? source = some t.text
  nonempty : ∀ t ∈ tokens, t.kind ≠ .eof → t.span.start < t.span.stop
  ordered : tokens.Pairwise fun t u => t.span.stop ≤ u.span.start
  blanks : (⟨base, base⟩ :: tokens.map (·.span)).IsChain (BlankBetween source)
  fits : ∀ t ∈ tokens, t.kind ≠ .eof → t.kind ≠ .invalid → t.kind.Matches t.text
  /-- no pattern matches more at the place of a token -/
  longest : ∀ t ∈ tokens, t.kind ≠ .eof → ∀ rest, dropBytes source t.span.start = some rest →
    ∀ kind text, TagTokenKind.Matches kind text → text <+: rest → text <+: t.text
  apart : tokens.IsChain fun t u => t.span.stop = u.span.start →
    ¬ (t.kind = .name ∧ u.kind = .name) ∧ ¬ (t.kind = .slash ∧ u.kind = .close)
  /-- what is invalid is a bracket, or a quote that is not closed up to the end of the source -/
  faults : ∀ t ∈ tokens, t.kind = .invalid → t.text = ['<'] ∨
    ∃ quote body, (quote = '"' ∨ quote = '\'') ∧ t.text = quote :: body ∧ quote ∉ body ∧
      t.span.stop = byteLength source

namespace TagToken

theorem LiesIn.covers {before cs : List Char} {p : TagToken × List Char}
    (h : LiesIn (byteLength before) cs p) : p.1.span.Covers (before ++ cs) p.1.text := by
  obtain ⟨passed, rfl, hspan⟩ := h
  exact ⟨before ++ passed, p.2, by simp, by rw [hspan, byteLength_append]⟩

theorem LiesIn.dropBytes_eq {before cs : List Char} {p : TagToken × List Char}
    (h : LiesIn (byteLength before) cs p) :
    dropBytes (before ++ cs) p.1.span.start = some (p.1.text ++ p.2) := by
  obtain ⟨passed, rfl, hspan⟩ := h
  rw [hspan, List.append_assoc passed, ← List.append_assoc, ← byteLength_append]
  exact dropBytes_append _ _

theorem LiesIn.blankBetween {before cs : List Char} {p q : TagToken × List Char}
    (h : LiesIn (byteLength before) cs p) (hfollows : Follows p q) :
    BlankBetween (before ++ cs) p.1.span q.1.span := by
  obtain ⟨passed, rfl, hspan⟩ := h
  obtain ⟨blank, hrest, hblank, hstart⟩ := hfollows
  refine ⟨blank, Span.Covers.slice? ⟨before ++ passed ++ p.1.text, q.1.text ++ q.2, ?_, ?_⟩, hblank⟩
  · simp [hrest]
  · rw [hstart, hspan]
    simp [Nat.add_assoc]

/-- Neither two names nor a slash and a closing bracket follow each other directly. -/
theorem Follows.apart {p q : TagToken × List Char} (h : Follows p q)
    (hp : p.1.kind ≠ .eof → Stands p.1.kind p.1.text p.2)
    (hq : q.1.kind ≠ .eof → Stands q.1.kind q.1.text q.2)
    (hplace : p.1.span.stop = q.1.span.start) :
    ¬ (p.1.kind = .name ∧ q.1.kind = .name) ∧ ¬ (p.1.kind = .slash ∧ q.1.kind = .close) := by
  obtain ⟨blank, hrest, -, hstart⟩ := h
  obtain rfl : blank = [] := byteLength_eq_zero (by omega)
  obtain ⟨⟨kind, span, text⟩, rest⟩ := p
  obtain ⟨⟨kind', span', text'⟩, rest'⟩ := q
  constructor
  · rintro ⟨rfl, rfl⟩
    obtain _ | _ | _ | _ | ⟨_, ⟨⟩, _⟩ | ⟨-, -, hends⟩ := hp (by simp)
    obtain _ | _ | _ | _ | ⟨_, ⟨⟩, _⟩ | ⟨hne, hchars, -⟩ := hq (by simp)
    obtain ⟨c, cs, rfl⟩ := List.exists_cons_of_ne_nil hne
    have hc := hends c (by rw [hrest]; rfl)
    rw [hchars c List.mem_cons_self] at hc
    cases hc
  · rintro ⟨rfl, rfl⟩
    obtain _ | _ | _ | hslash | ⟨_, ⟨⟩, _⟩ := hp (by simp)
    obtain _ | _ | _ | _ | ⟨_, ⟨⟩, _⟩ := hq (by simp)
    exact hslash (by rw [hrest]; rfl)

theorem Stands.invalid_text {text rest : List Char} (h : Stands .invalid text rest) :
    text = ['<'] ∨ ∃ quote body, (quote = '"' ∨ quote = '\'') ∧ text = quote :: body ∧
      quote ∉ body ∧ rest = [] := by
  obtain _ | _ | _ | _ | ⟨_, ⟨⟩, _⟩ | _ | _ | ⟨hquote, hbody⟩ := h
  · exact .inl rfl
  · refine .inr ⟨_, _, ?_, rfl, hbody, rfl⟩
    cases hquote
    · exact .inl rfl
    · exact .inr rfl

/-- The tokens of a text from any character on tile it, where the source is short enough. They are
the same wherever the text starts. -/
theorem lex_tiles (before cs : List Char) :
    (byteLength (before ++ cs) < Span.limit →
      Tiles (before ++ cs) (byteLength before) (lex (byteLength before) cs)) ∧
      lex (byteLength before) cs =
        (lex 0 cs).map (place (·.shift (byteLength before))) := by
  refine ⟨fun hsize => ?_, ?_⟩
  · rw [byteLength_append] at hsize
    obtain ⟨ps, h, hlex⟩ := exists_lexes (byteLength before) cs
    have hlies := h.liesIn hsize
    have hstands := h.stands
    rw [hlex]
    -- the source up to `base` stands for the token before the first
    let first : TagToken := ⟨.eof, ⟨byteLength before, byteLength before⟩, []⟩
    have hfirst : LiesIn (byteLength before) cs (first, cs) := ⟨[], rfl, rfl⟩
    have hchain : ((first, cs) :: ps).IsChain Follows := h.follows hsize rfl
    constructor
    case ends =>
      obtain ⟨front, last, rfl, hlast, hfront⟩ := h.eq_concat
      refine ⟨front.map (·.1), ?_, List.forall_mem_map.2 hfront⟩
      rw [List.map_append, List.map_singleton, h.eof_eq last (by simp) hlast,
        Span.ofOffsets_eq (Nat.le_refl _) hsize, byteLength_append]
    case covers => exact List.forall_mem_map.2 fun p hp => (hlies p hp).covers.slice?
    case nonempty => exact List.forall_mem_map.2 (h.start_lt_stop hsize)
    case ordered => exact List.pairwise_map.2 (h.pairwise hsize)
    case blanks =>
      have hblanks := hchain.imp_of_mem_imp fun p q hp _ hfollows =>
        (List.forall_mem_cons.2 ⟨hfirst, hlies⟩ p hp).blankBetween hfollows
      rw [List.map_map]
      exact (List.isChain_map fun p : TagToken × List Char => p.1.span).2 hblanks
    case fits =>
      exact List.forall_mem_map.2 fun p hp hkind hvalid => (hstands p hp hkind).matches hvalid
    case longest =>
      refine List.forall_mem_map.2 fun p hp hkind rest hrest kind text hmatches hfront => ?_
      obtain rfl := Option.some.inj (hrest.symm.trans (hlies p hp).dropBytes_eq)
      exact (hstands p hp hkind).longest hmatches hfront
    case apart =>
      refine (List.isChain_map _).2 (hchain.tail.imp_of_mem_imp fun p q hp hq hfollows => ?_)
      exact hfollows.apart (hstands p hp) (hstands q hq)
    case faults =>
      refine List.forall_mem_map.2 fun p hp hkind => ?_
      have hinvalid := hstands p hp (by simp [hkind])
      rw [hkind] at hinvalid
      obtain htext | ⟨quote, body, hquote, htext, hbody, hrest⟩ := hinvalid.invalid_text
      · exact .inl htext
      · refine .inr ⟨quote, body, hquote, htext, hbody, ?_⟩
        obtain ⟨passed, rfl, hspan⟩ := hlies p hp
        rw [hspan, hrest]
        simp [Nat.add_assoc]
  · rw [← lex_shift, Nat.zero_add]

/-- The tokens of a tag with blanks, a bare value and a slash before its end. -/
theorem lex_tiles_tag :
    Tiles "<a b = c />".toList (byteLength ['<']) (lex (byteLength ['<']) "a b = c />".toList) :=
  (lex_tiles ['<'] "a b = c />".toList).1 (by decide)

theorem lex_replicate_blank (n offset : Nat) :
    lex offset (List.replicate n ' ') = [⟨.eof, .ofOffsets (offset + n) (offset + n), []⟩] := by
  induction n generalizing offset with
  | zero => rw [List.replicate_zero, lex, Nat.add_zero]
  | succ n ih =>
    rw [List.replicate_succ, lex_blank rfl, ih, show ' '.utf8Size = 1 from rfl, Nat.add_assoc,
      Nat.add_comm 1]

/-- The end of a text that is too long is taken for its start. -/
theorem lex_overlong :
    ¬ Tiles (List.replicate Span.limit ' ') 0 (lex 0 (List.replicate Span.limit ' ')) := by
  intro h
  obtain ⟨front, htokens, -⟩ := h.ends
  rw [lex_replicate_blank, Nat.zero_add] at htokens
  cases front with
  | nil =>
    have hstops := congrArg (·.map (·.span.stop)) htokens
    rw [byteLength_replicate rfl] at hstops
    exact absurd hstops (by decide)
  | cons t front => simp at htokens

end TagToken

end ScriptSetup.Block
