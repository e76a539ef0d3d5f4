import Mathlib.Data.List.Induction
import SqlConsole.Proofs.Token.Places
/-!
# Reading tokens loses nothing

What a text is read as says everything about the text but what its blanks and comments are.  The
notions that this needs are said here about texts alone, without the lexer: where a position is
(`Position.IsBehind`), what stands under a span (`Span.Covers`), how a token is spelled (`Spells`),
and which texts are blanks and comments (`Filler`).

* `isBehind_after`: the place that the lexer counts up is the place in the text.
* `filler_of_glued`: pieces without a token are blanks and complete comments.
* `exists_split_of_locate_eq`: a token, with the pieces in front of it and behind it.
* `lossless_of_ofText`: **every token covers a spelling of itself, the spans follow each other, and
  between them are blanks and complete comments only.**
-/

namespace SqlConsole

/-! ## Places in a text -/

/-- A position is where a beginning of the text ends. -/
structure Position.IsBehind (p : Position) (before : Text) : Prop where
  /-- The bytes of that beginning. -/
  offset : p.offset = Text.byteLength before
  /-- Its line feeds, counted from one. -/
  line : p.line = 1 + before.count '\n'
  /-- Its characters since the last line feed, counted from one. -/
  column : p.column = 1 + (before.reverse.takeWhile (· ≠ '\n')).length

/-- Stepping over a text from its beginning leads to the place behind it. -/
theorem Position.isBehind_after (before : Text) : (Position.start.after before).IsBehind before := by
  -- The column looks back from the end, so the last character is taken off first.
  induction before using List.reverseRecOn with
  | nil => exact ⟨rfl, rfl, rfl⟩
  | append_singleton before c ih =>
    obtain ⟨hoffset, hline, hcolumn⟩ := ih
    rw [Position.after_append, Position.after_cons, Position.after_nil, Position.step]
    by_cases hc : c = '\n'
    · rw [if_pos hc]
      refine ⟨?_, ?_, ?_⟩
      · simp only [hoffset, Text.byteLength_append, Text.byteLength_cons, Text.byteLength_nil,
          Nat.add_zero]
      · simp [hline, hc, Nat.add_assoc]
      · simp [hc]
    · rw [if_neg hc]
      refine ⟨?_, ?_, ?_⟩
      · simp only [hoffset, Text.byteLength_append, Text.byteLength_cons, Text.byteLength_nil,
          Nat.add_zero]
      · simp [hline, hc]
      · simp [hcolumn, hc, Nat.add_assoc]

/-- A part of a text stands under a span: between two characters of the text, at the span's
position and up to its end. -/
def Span.Covers (span : Span) (t part : Text) : Prop :=
  ∃ before behind, before ++ part ++ behind = t ∧ span.start.IsBehind before ∧
    span.stop = Text.byteLength (before ++ part)

/-! ## Spellings and fillers -/

/-- How a token is written down.  The same identifier can be written between either of two
quotes. -/
inductive Spells : Token → Text → Prop
  | word (w : Text) : Spells (.word w) w
  | number (digits : Text) : Spells (.number digits) digits
  | symbol (c : Char) : Spells (.symbol c) [c]
  | string (value : Text) : Spells (.string value) ('\'' :: (Text.double '\'' value ++ ['\'']))
  | quoted {q : Char} (hq : q = '`' ∨ q = '"') (name : Text) :
      Spells (.quoted name) (q :: (Text.double q name ++ [q]))

/-- Blanks and complete comments: a line comment with its line feed, and a block comment up to the
first mark that closes it. -/
inductive Filler : Text → Prop
  | nil : Filler []
  | blank {c : Char} {t : Text} (hc : isBlank c) (ht : Filler t) : Filler (c :: t)
  | line {u t : Text} (hu : '\n' ∉ u) (ht : Filler t) : Filler ('-' :: '-' :: (u ++ '\n' :: t))
  | block {u t : Text} (hu : ¬ ['*', '/'] <:+: u ++ ['*']) (ht : Filler t) :
      Filler ('/' :: '*' :: (u ++ '*' :: '/' :: t))

/-- Blanks and complete comments up to the end of a text, which can end the last line comment. -/
def EndFiller (t : Text) : Prop :=
  Filler t ∨ ∃ s u, Filler s ∧ '\n' ∉ u ∧ t = s ++ '-' :: '-' :: u

theorem Filler.append {s t : Text} (hs : Filler s) (ht : Filler t) : Filler (s ++ t) := by
  induction hs with
  | nil => exact ht
  | blank hc _ ih => exact .blank hc ih
  | line hu _ ih => simpa using Filler.line hu ih
  | block hu _ ih => simpa using Filler.block hu ih

theorem EndFiller.of_append {s t : Text} (hs : Filler s) (ht : EndFiller t) : EndFiller (s ++ t) := by
  rcases ht with ht | ⟨v, u, hv, hu, rfl⟩
  · exact .inl (hs.append ht)
  · exact .inr ⟨s ++ v, u, hs.append hv, hu, by rw [List.append_assoc]⟩

namespace Piece

/-- The rest of a block comment ends with the first closing mark. -/
theorem exists_of_closeComment?_self {body : Text} (h : closeComment? body = some (body, [])) :
    ∃ u, body = u ++ ['*', '/'] ∧ ¬ ['*', '/'] <:+: u ++ ['*'] := by
  suffices hgen : ∀ {t inner rest : Text}, closeComment? t = some (inner, rest) →
      ∃ u, inner = u ++ ['*', '/'] ∧ ¬ ['*', '/'] <:+: u ++ ['*'] from hgen h
  intro t inner rest h
  fun_induction closeComment? t generalizing inner rest with
  | case1 => cases h
  | case2 => cases h
  | case3 => cases h; exact ⟨[], rfl, by decide⟩
  | case4 c d r hcd ih =>
    obtain ⟨⟨inner, after⟩, hr, heq⟩ := Option.map_eq_some_iff.1 h
    obtain ⟨rfl, rfl⟩ := Prod.mk.inj heq
    obtain ⟨u, rfl, hu⟩ := ih hr
    refine ⟨c :: u, rfl, fun hinfix => ?_⟩
    rcases List.infix_cons_iff.1 hinfix with hprefix | htail
    · -- The mark would begin at `c`, where the comment goes on.
      have hbody := closeComment?_text hr
      obtain ⟨rfl, hslash⟩ := List.cons_prefix_cons.1 hprefix
      cases u with
      | nil => simp at hslash
      | cons e u =>
        obtain ⟨rfl, -⟩ := List.cons.inj hbody
        obtain ⟨hslash, -⟩ := List.cons_prefix_cons.1 hslash
        exact hcd ⟨rfl, hslash.symm⟩
    · exact hu htail

/-- A line feed at the beginning of a text goes with the line comment in front of it. -/
theorem filler_lineComment {u t : Text} (hu : '\n' ∉ u) (ht : Filler t)
    (hfeed : t.head? = some '\n') : Filler ('-' :: '-' :: (u ++ t)) := by
  cases ht with
  | nil => cases hfeed
  | blank hc ht =>
    obtain rfl := Option.some.inj hfeed
    exact .line hu ht
  | line | block => cases hfeed

/-- No token begins with a line feed. -/
theorem head?_ne_of_token {k : Token} {lexeme : Text} (h : (Piece.token k lexeme).WellFormed) :
    lexeme.head? ≠ some '\n' := by
  intro hhead
  cases h with
  | @quoted q hq value =>
    obtain rfl := Option.some.inj hhead
    rcases hq with hq | hq | hq <;> cases hq
  | @number c t hc ht =>
    obtain rfl := Option.some.inj hhead
    revert hc
    decide
  | @word c t hblank hdigit hc ht =>
    obtain rfl := Option.some.inj hhead
    revert hblank
    decide
  | @symbol c hblank hquote hdigit hword =>
    obtain rfl := Option.some.inj hhead
    revert hblank
    decide

/-- Behind a line comment comes a line feed, or the text ends. -/
theorem Glued.behind_lineComment {u rest : Text} {ps : List Piece}
    (h : Glued (.comment ('-' :: '-' :: u) :: ps) rest) (hhead : rest.head? ≠ some '\n') :
    '\n' ∉ u ∧ (ps = [] ∧ rest = [] ∨ (ps.flatMap text).head? = some '\n') := by
  obtain ⟨hwf, hseam, hglued⟩ := h
  refine ⟨?_, ?_⟩
  · cases hwf with
    | lineComment hu => exact fun hfeed => hu '\n' hfeed rfl
  cases ps with
  | nil =>
    cases rest with
    | nil => exact .inl ⟨rfl, rfl⟩
    | cons d rest =>
      have hd : d = '\n' := by simpa [Seam, endsBefore] using hseam
      exact (hhead (congrArg some hd)).elim
  | cons p ps =>
    obtain ⟨c, t, htext⟩ := List.exists_cons_of_ne_nil hglued.1.text_ne_nil
    have hc : c = '\n' := by simpa [Seam, endsBefore, htext] using hseam
    exact .inr (by simp [htext, hc])

/-- Pieces without a token in front of a text that begins with no line feed are blanks and complete
comments. -/
theorem filler_of_glued {ps : List Piece} {rest : Text} (h : Glued ps rest)
    (hps : ps.filterMap token? = []) (hrest : rest ≠ []) (hhead : rest.head? ≠ some '\n') :
    Filler (ps.flatMap text) := by
  induction ps with
  | nil => exact .nil
  | cons p ps ih =>
    cases h.1 with
    | blank hc => exact .blank hc (ih h.2.2 hps)
    | @lineComment u =>
      obtain ⟨hu, ⟨-, hend⟩ | hfeed⟩ := h.behind_lineComment hhead
      · exact (hrest hend).elim
      · exact filler_lineComment hu (ih h.2.2 hps) hfeed
    | blockComment hclose =>
      obtain ⟨u, rfl, hu⟩ := exists_of_closeComment?_self hclose
      simpa [text] using Filler.block hu (ih h.2.2 hps)
    | quoted | number | word | symbol => cases hps

/-- At the end of the text the last of them can be a line comment. -/
theorem endFiller_of_glued {ps : List Piece} (h : Glued ps []) (hps : ps.filterMap token? = []) :
    EndFiller (ps.flatMap text) := by
  induction ps with
  | nil => exact .inl .nil
  | cons p ps ih =>
    cases h.1 with
    | @blank c hc => exact .of_append (.blank hc .nil) (ih h.2.2 hps)
    | @lineComment u =>
      obtain ⟨hu, ⟨rfl, -⟩ | hfeed⟩ := h.behind_lineComment (by simp)
      · exact .inr ⟨[], u, .nil, hu, by simp [text]⟩
      rcases ih h.2.2 hps with ht | ⟨s, v, hs, hv, heq⟩
      · exact .inl (filler_lineComment hu ht hfeed)
      · have hfeed' : s.head? = some '\n' := by
          rw [heq, List.head?_append] at hfeed
          cases s with
          | nil => cases hfeed
          | cons c s => exact hfeed
        refine .inr ⟨'-' :: '-' :: (u ++ s), v, filler_lineComment hu hs hfeed', hv, ?_⟩
        simp [text, heq]
    | blockComment hclose =>
      obtain ⟨u, rfl, hu⟩ := exists_of_closeComment?_self hclose
      simpa [text] using EndFiller.of_append (.block hu .nil) (ih h.2.2 hps)
    | quoted | number | word | symbol => cases hps

/-! ## The tokens of a text with their spans -/

/-- A token that is found stands between the pieces in front of it and those behind it. -/
theorem exists_split_of_locate_eq {p : Position} {ps : List Piece} {ts us : List Located}
    {k : Located} (h : locate p ps = ts ++ k :: us) :
    ∃ before lexeme behind, ps = before ++ .token k.token lexeme :: behind ∧
      locate p before = ts ∧ k.span.start = p.after (before.flatMap text) ∧
      k.span.stop = (p.after (before.flatMap text ++ lexeme)).offset ∧
      locate (p.after (before.flatMap text ++ lexeme)) behind = us := by
  obtain ⟨before, lexeme, behind, rfl, hbefore, hstart, -⟩ := exists_of_locate_eq h
  refine ⟨before, lexeme, behind, rfl, hbefore, hstart, ?_⟩
  rw [locate_append, hbefore, List.append_cancel_left_eq, locate_cons] at h
  obtain ⟨hk, hbehind⟩ := List.cons.inj h
  rw [Position.after_append]
  exact ⟨(congrArg (·.span.stop) hk).symm, hbehind⟩

/-- Each token ends before the next one begins. -/
theorem pairwise_locate {ps : List Piece} (hwf : ∀ q ∈ ps, q.WellFormed) (p : Position) :
    (locate p ps).Pairwise fun a b => a.span.stop ≤ b.span.start.offset := by
  induction ps generalizing p with
  | nil => exact .nil
  | cons piece ps ih =>
    obtain ⟨-, hps⟩ := List.forall_mem_cons.1 hwf
    have htail := ih hps (p.after piece.text)
    cases piece with
    | blank | comment => exact htail
    | token k lexeme => exact .cons (fun b hb => (offset_of_mem_locate hps hb).1) htail

/-- A token is a spelling of itself. -/
theorem spells_of_wellFormed {k : Token} {lexeme : Text} (h : (Piece.token k lexeme).WellFormed) :
    Spells k lexeme := by
  cases h with
  | @quoted q hq value =>
    rcases hq with rfl | hq
    · exact .string value
    · have hne : q ≠ '\'' := by rcases hq with rfl | rfl <;> decide
      rw [quotedToken, if_neg hne]
      exact .quoted hq value
  | number => exact .number _
  | word => exact .word _
  | symbol => exact .symbol _

/-- Pieces without a place for a token hold no token. -/
theorem filterMap_token?_of_locate_eq_nil {p : Position} {ps : List Piece}
    (h : locate p ps = []) : ps.filterMap token? = [] := by
  rw [← map_token_locate p ps, h, List.map_nil]

end Piece

namespace Lexed

open Piece

/-- Where the last of some tokens ends, or else the text begins. -/
def endOf (ts : List Located) : Nat := (ts.getLast?.map (·.span.stop)).getD 0

/-- The tokens of a text tell everything about it but its blanks and comments. -/
structure Lossless (lexed : Lexed) (t : Text) : Prop where
  /-- The tokens end behind the whole text, with an empty span. -/
  finish : lexed.finish.span.start.IsBehind t ∧ lexed.finish.span.stop = Text.byteLength t
  /-- No span is empty, and none reaches beyond the text. -/
  spans : ∀ k ∈ lexed.tokens,
    k.span.start.offset < k.span.stop ∧ k.span.stop ≤ Text.byteLength t
  /-- Each span ends before those of the later tokens begin. -/
  ordered : lexed.tokens.Pairwise fun a b => a.span.stop ≤ b.span.start.offset
  /-- A token is spelled by the part of the text under its span, which begins at the line and the
  column that the span says. -/
  tokens : ∀ k ∈ lexed.tokens, ∃ lexeme, k.span.Covers t lexeme ∧ Spells k.token lexeme
  /-- In front of the first token, and between two tokens that follow each other, are blanks and
  complete comments. -/
  gaps : ∀ ts k us, lexed.tokens = ts ++ k :: us →
    ∃ gap, Text.slice? (endOf ts) k.span.start.offset t = some gap ∧ Filler gap
  /-- So is what stands behind the last token, where the text can end a line comment. -/
  lastGap : ∃ gap, Text.slice? (endOf lexed.tokens) (Text.byteLength t) t = some gap ∧ EndFiller gap

/-- The first tokens of a text take up a beginning of its pieces. -/
theorem exists_front_of_locate_eq {ps : List Piece} {ts us : List Located}
    (h : locate .start ps = ts ++ us) :
    ∃ front rest, ps = front ++ rest ∧ endOf ts = Text.byteLength (front.flatMap text) ∧
      locate (Position.start.after (front.flatMap text)) rest = us := by
  rcases List.eq_nil_or_concat ts with rfl | ⟨ts, a, rfl⟩
  · exact ⟨[], ps, rfl, rfl, h⟩
  rw [List.concat_eq_append, List.append_assoc, List.singleton_append] at h
  obtain ⟨before, lexeme, behind, rfl, -, -, hstop, hbehind⟩ := exists_split_of_locate_eq h
  refine ⟨before ++ [.token a.token lexeme], behind, by simp, ?_, ?_⟩
  · simp [endOf, hstop, text, Position.start]
  · simpa [text] using hbehind

section

variable {t : Text} (ht : Closed t)
include ht

/-- Under the span of a token stands a spelling of it. -/
theorem exists_covers_of_mem {k : Located} (hk : k ∈ locate .start (cut t).pieces) :
    ∃ lexeme, k.span.Covers t lexeme ∧ Spells k.token lexeme ∧ lexeme ≠ [] := by
  obtain ⟨ts, us, hsplit⟩ := List.append_of_mem hk
  obtain ⟨before, lexeme, behind, hps, -, hstart, hstop, -⟩ := exists_split_of_locate_eq hsplit
  have hwf := (glued_of_cut t).wellFormed (.token k.token lexeme) (by simp [hps])
  refine ⟨lexeme, ⟨before.flatMap text, behind.flatMap text, ?_, ?_, ?_⟩,
    spells_of_wellFormed hwf, hwf.text_ne_nil⟩
  · have htext := ht.flatMap_text
    rw [hps] at htext
    simpa [text] using htext
  · rw [hstart]
    exact Position.isBehind_after _
  · simp [hstop, Position.start]

/-- In front of a token, back to the end of the token before it, are blanks and complete
comments. -/
theorem exists_filler {ts us : List Located} {k : Located}
    (h : locate .start (cut t).pieces = ts ++ k :: us) :
    ∃ gap, Text.slice? (endOf ts) k.span.start.offset t = some gap ∧ Filler gap := by
  obtain ⟨front, rest, hps, hend, hrest⟩ := exists_front_of_locate_eq h
  rw [← List.nil_append (k :: us)] at hrest
  obtain ⟨gap, lexeme, behind, rfl, hgap, hstart, -, -⟩ := exists_split_of_locate_eq hrest
  have hglued := glued_of_cut t
  rw [hps, glued_append, glued_append] at hglued
  obtain ⟨-, hgapGlued, hbehind⟩ := hglued
  have hlexeme : lexeme ≠ [] := hbehind.1.text_ne_nil
  refine ⟨gap.flatMap text, ?_, ?_⟩
  · rw [← List.append_assoc] at hps
    have hslice := slice?_pieces ht hps
    rw [hend, hstart, Position.offset_after, Position.offset_after]
    simpa [Position.start] using hslice
  · obtain ⟨c, r, rfl⟩ := List.exists_cons_of_ne_nil hlexeme
    have hhead := head?_ne_of_token hbehind.1
    exact filler_of_glued hgapGlued (filterMap_token?_of_locate_eq_nil hgap)
      (by simp [text]) (by simpa [text] using hhead)

/-- Behind the last token are blanks and comments, up to the end of the text. -/
theorem exists_endFiller :
    ∃ gap, Text.slice? (endOf (locate .start (cut t).pieces)) (Text.byteLength t) t = some gap ∧
      EndFiller gap := by
  obtain ⟨front, rest, hps, hend, hrest⟩ :=
    exists_front_of_locate_eq (List.append_nil (locate .start (cut t).pieces)).symm
  have hglued := glued_of_cut t
  rw [hps, glued_append, Cut.openText, show (cut t).openEnd = none from ht] at hglued
  refine ⟨rest.flatMap text, ?_,
    endFiller_of_glued hglued.2 (filterMap_token?_of_locate_eq_nil hrest)⟩
  have hlength := congrArg Text.byteLength ht.flatMap_text
  rw [hps, List.flatMap_append, Text.byteLength_append] at hlength
  rw [← List.append_nil (front ++ rest)] at hps
  rw [hend, ← hlength]
  exact slice?_pieces ht hps

end

section

variable {t : Text} {lexed : Lexed} (h : ofText t = .ok lexed)
include h

/-- What a text is read as, where it can be read. -/
theorem eq_of_ofText :
    Closed t ∧ lexed = ⟨locate .start (cut t).pieces, Position.start.after t⟩ := by
  obtain ⟨ht, -⟩ := closed_of_ofText h
  rw [ofText_of_closed ht] at h
  exact ⟨ht, (Except.ok.inj h).symm⟩

/-- The tokens end behind the whole text. -/
theorem finish_of_ofText :
    lexed.finish.span.start.IsBehind t ∧ lexed.finish.span.stop = Text.byteLength t := by
  obtain ⟨-, rfl⟩ := eq_of_ofText h
  refine ⟨Position.isBehind_after t, ?_⟩
  simp [Position.span, Position.start]

/-- A token covers a part of the text that is not empty. -/
theorem spans_of_ofText : ∀ k ∈ lexed.tokens,
    k.span.start.offset < k.span.stop ∧ k.span.stop ≤ Text.byteLength t := by
  intro k hk
  obtain ⟨ht, rfl⟩ := eq_of_ofText h
  obtain ⟨lexeme, ⟨before, behind, hwhole, hstart, hstop⟩, -, hne⟩ := exists_covers_of_mem ht hk
  have hpos : Text.byteLength lexeme ≠ 0 := fun hzero => hne (Text.byteLength_eq_zero_iff.1 hzero)
  rw [hstop, hstart.offset, ← hwhole]
  simp only [Text.byteLength_append]
  omega

theorem ordered_of_ofText :
    lexed.tokens.Pairwise fun a b => a.span.stop ≤ b.span.start.offset := by
  obtain ⟨-, rfl⟩ := eq_of_ofText h
  exact pairwise_locate (glued_of_cut t).wellFormed .start

/-- A token covers a spelling of itself. -/
theorem exists_covers_of_ofText : ∀ k ∈ lexed.tokens,
    ∃ lexeme, k.span.Covers t lexeme ∧ Spells k.token lexeme := by
  intro k hk
  obtain ⟨ht, rfl⟩ := eq_of_ofText h
  obtain ⟨lexeme, hcovers, hspells, -⟩ := exists_covers_of_mem ht hk
  exact ⟨lexeme, hcovers, hspells⟩

end

/-- **Reading tokens loses nothing, and positions are exact.** -/
theorem lossless_of_ofText {t : Text} {lexed : Lexed} (h : ofText t = .ok lexed) :
    lexed.Lossless t := by
  have hfinish := finish_of_ofText h
  have hspans := spans_of_ofText h
  have hordered := ordered_of_ofText h
  have htokens := exists_covers_of_ofText h
  obtain ⟨ht, rfl⟩ := eq_of_ofText h
  exact {
    finish := hfinish
    spans := hspans
    ordered := hordered
    tokens := htokens
    gaps := fun ts k us hsplit => exists_filler ht hsplit
    lastGap := exists_endFiller ht }

/-- A text with tokens of every kind behind comments of both kinds, over three lines. -/
def manyForms : Text := "/* * / */SET 'it''s;' -- ü\n=\t`a``b`.\"c\"\n9.5 $ --ende"

/-- What it is read as. -/
def manyFormsRead : Lexed :=
  ⟨[⟨.word "SET", ⟨⟨9, 1, 10⟩, 12⟩⟩, ⟨.string "it's;", ⟨⟨13, 1, 14⟩, 21⟩⟩,
    ⟨.symbol '=', ⟨⟨28, 2, 1⟩, 29⟩⟩, ⟨.quoted "a`b", ⟨⟨30, 2, 3⟩, 36⟩⟩,
    ⟨.symbol '.', ⟨⟨36, 2, 9⟩, 37⟩⟩, ⟨.quoted "c", ⟨⟨37, 2, 10⟩, 40⟩⟩,
    ⟨.number "9.5", ⟨⟨41, 3, 1⟩, 44⟩⟩, ⟨.symbol '$', ⟨⟨45, 3, 5⟩, 46⟩⟩], ⟨53, 3, 13⟩⟩

theorem lossless_manyForms :
    ofText manyForms = .ok manyFormsRead ∧ manyFormsRead.Lossless manyForms := by
  have hread : ofText manyForms = .ok manyFormsRead := by decide +kernel
  exact ⟨hread, lossless_of_ofText hread⟩

end Lexed

end SqlConsole
