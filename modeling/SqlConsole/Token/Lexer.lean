import SqlConsole.Text.Letter
import SqlConsole.Token.Basic
/-!
# Cutting a text into pieces

The lexer cuts a text into pieces: blanks, comments and tokens.  Nothing is lost: the texts of the
pieces, put together again, are the text (`Piece.read_text`, `flatMap_text_cut`).  A piece that is
opened and never closed ends the cut.  `Lexed.ofText` keeps the tokens and works out their spans
from the texts of the pieces before them.
-/

namespace SqlConsole

/-- What can be opened in a text and never be closed. -/
inductive Unclosed where
  | string
  | identifier
  | comment
  deriving DecidableEq, Repr

/-- What a message says about an open end. -/
def Unclosed.message : Unclosed → Text
  | .string => "unterminated string literal"
  | .identifier => "unterminated quoted identifier"
  | .comment => "unterminated block comment"

/-- A piece of a text: a blank, a comment, or a token and the text that spells it. -/
inductive Piece where
  | blank (c : Char)
  | comment (text : Text)
  | token (token : Token) (lexeme : Text)
  deriving DecidableEq, Repr

namespace Piece

/-- The characters of a piece. -/
def text : Piece → Text
  | .blank c => [c]
  | .comment t => t
  | .token _ lexeme => lexeme

/-- The rest of a block comment, its closing mark included, and what follows the comment. -/
def closeComment? : Text → Option (Text × Text)
  | [] => none
  | [_] => none
  | c :: d :: r =>
    if c = '*' ∧ d = '/' then some ("*/", r)
    else (closeComment? (d :: r)).map fun (body, rest) => (c :: body, rest)

/-- What a quoted text says and what follows its closing quote; inside it the quote is written
twice. -/
def closeQuote? (quote : Char) : Text → Option (Text × Text)
  | [] => none
  | [c] => if c = quote then some ([], []) else none
  | c :: d :: r =>
    if c = quote then
      if d = quote then (closeQuote? quote r).map fun (value, rest) => (quote :: value, rest)
      else some ([], d :: r)
    else (closeQuote? quote (d :: r)).map fun (value, rest) => (c :: value, rest)

def quote (q : Char) (value : Text) : Text := q :: (Text.double q value ++ [q])

/-- A quoted token, or the fault of one that is never closed. -/
def readQuoted (q : Char) (make : Text → Token) (fault : Unclosed) (r : Text) :
    Except Unclosed (Piece × Text) :=
  match closeQuote? q r with
  | some (value, rest) => .ok (.token (make value) (quote q value), rest)
  | none => .error fault

/-- Whether a character goes on with a number. -/
def inNumber (c : Char) : Bool := c.isDigit || c == '.'

def beginsWord (c : Char) : Bool := isLetter c || c == '_'

/-- Whether a character goes on with a word. -/
def inWord (c : Char) : Bool := isLetter c || isNumeral c || c == '_' || c == '$'

/-- The first piece of the text `c :: r`, and what follows it. -/
def read (c : Char) (r : Text) : Except Unclosed (Piece × Text) :=
  if isBlank c then .ok (.blank c, r)
  else if c = '-' ∧ r.head? = some '-' then
    .ok (.comment (c :: r.takeWhile (· != '\n')), r.dropWhile (· != '\n'))
  else if c = '/' ∧ r.head? = some '*' then
    match closeComment? r.tail with
    | some (body, rest) => .ok (.comment ('/' :: '*' :: body), rest)
    | none => .error .comment
  else if c = '\'' then readQuoted c .string .string r
  else if c = '`' ∨ c = '"' then readQuoted c .quoted .identifier r
  else if c.isDigit then
    let lexeme := c :: r.takeWhile inNumber
    .ok (.token (.number lexeme) lexeme, r.dropWhile inNumber)
  else if beginsWord c then
    let lexeme := c :: r.takeWhile inWord
    .ok (.token (.word lexeme) lexeme, r.dropWhile inWord)
  else .ok (.token (.symbol c) [c], r)

theorem closeComment?_text {t body rest : Text} (h : closeComment? t = some (body, rest)) :
    body ++ rest = t := by
  fun_induction closeComment? t generalizing body rest with
  | case1 => simp at h
  | case2 => simp at h
  | case3 c d r hcd =>
    obtain ⟨rfl, rfl⟩ := hcd
    simp only [Option.some.injEq, Prod.mk.injEq] at h
    obtain ⟨rfl, rfl⟩ := h
    rfl
  | case4 c d r hcd ih =>
    obtain ⟨⟨b, r'⟩, hr, heq⟩ := Option.map_eq_some_iff.1 h
    simp only [Prod.mk.injEq] at heq
    obtain ⟨rfl, rfl⟩ := heq
    simp [ih hr]

theorem closeQuote?_text {q : Char} {t value rest : Text}
    (h : closeQuote? q t = some (value, rest)) : Text.double q value ++ q :: rest = t := by
  fun_induction closeQuote? q t generalizing value rest with
  | case1 => simp at h
  | case2 =>
    simp only [Option.some.injEq, Prod.mk.injEq] at h
    obtain ⟨rfl, rfl⟩ := h
    simp [Text.double]
  | case3 => simp at h
  | case4 r ih =>
    obtain ⟨⟨v, r'⟩, hr, heq⟩ := Option.map_eq_some_iff.1 h
    simp only [Prod.mk.injEq] at heq
    obtain ⟨rfl, rfl⟩ := heq
    simpa [Text.double] using ih hr
  | case5 =>
    simp only [Option.some.injEq, Prod.mk.injEq] at h
    obtain ⟨rfl, rfl⟩ := h
    simp [Text.double]
  | case6 c d r hc ih =>
    obtain ⟨⟨v, r'⟩, hr, heq⟩ := Option.map_eq_some_iff.1 h
    simp only [Prod.mk.injEq] at heq
    obtain ⟨rfl, rfl⟩ := heq
    simpa [Text.double, hc] using ih hr

theorem readQuoted_text {q : Char} {make : Text → Token} {fault : Unclosed} {r rest : Text}
    {p : Piece} (h : readQuoted q make fault r = .ok (p, rest)) : p.text ++ rest = q :: r := by
  unfold readQuoted at h
  split at h
  · next hq =>
    simp only [Except.ok.injEq, Prod.mk.injEq] at h
    obtain ⟨rfl, rfl⟩ := h
    simpa [text, quote] using closeQuote?_text hq
  · simp at h

/-- A piece and what follows it are the text it was read from. -/
theorem read_text {c : Char} {r rest : Text} {p : Piece} (h : read c r = .ok (p, rest)) :
    p.text ++ rest = c :: r := by
  unfold read at h
  split at h
  · cases h; rfl
  split at h
  · cases h; simp [text, List.takeWhile_append_dropWhile]
  split at h
  · next hc =>
    obtain ⟨rfl, hr⟩ := hc
    cases r with
    | nil => simp at hr
    | cons d r =>
      obtain rfl : d = '*' := by simpa using hr
      simp only [List.tail_cons] at h
      split at h
      · next hk => cases h; simpa [text] using closeComment?_text hk
      · cases h
  split at h
  · exact readQuoted_text h
  split at h
  · exact readQuoted_text h
  split at h
  · cases h; simp [text, List.takeWhile_append_dropWhile]
  split at h
  · cases h; simp [text, List.takeWhile_append_dropWhile]
  · cases h; rfl

theorem text_ne_nil_of_read {c : Char} {r rest : Text} {p : Piece}
    (h : read c r = .ok (p, rest)) : p.text ≠ [] := by
  unfold read readQuoted at h
  repeat' split at h
  all_goals cases h
  all_goals simp [text, quote]

/-- What follows a piece is shorter than the text it was read from. -/
theorem length_lt_of_read {c : Char} {r rest : Text} {p : Piece}
    (h : read c r = .ok (p, rest)) : rest.length < (c :: r).length := by
  have hpos := List.length_pos_iff.2 (text_ne_nil_of_read h)
  have hlen := congrArg List.length (read_text h)
  simp only [List.length_append] at hlen
  omega

/-! ## The whole text -/

/-- A text in pieces, and the open end where the cut stopped, if it did. -/
structure Cut where
  /-- The pieces from the beginning on. -/
  pieces : List Piece
  /-- What was opened and never closed, and the text from there on. -/
  openEnd : Option (Unclosed × Text)
  deriving DecidableEq, Repr

section

-- The equations of the cut are quick to derive where the cases of `read` stay closed.
attribute [local irreducible] read

/-- Cut a text into its pieces. -/
def cut : Text → Cut
  | [] => ⟨[], none⟩
  | c :: r =>
    match _h : read c r with
    | .error fault => ⟨[], some (fault, c :: r)⟩
    | .ok (piece, rest) =>
      let tail := cut rest
      { tail with pieces := piece :: tail.pieces }
termination_by t => t.length
decreasing_by exact length_lt_of_read (by assumption)

@[simp] theorem cut_nil : cut [] = ⟨[], none⟩ := by simp only [cut]

end

/-- The text of an open end; the empty text where there is none. -/
def Cut.openText (cut : Cut) : Text :=
  match cut.openEnd with
  | some (_, t) => t
  | none => []

/-- A cut loses nothing. -/
theorem flatMap_text_cut (t : Text) :
    (cut t).pieces.flatMap text ++ (cut t).openText = t := by
  fun_induction cut t with
  | case1 => rfl
  | case2 => rfl
  | case3 c r piece rest h tail ih =>
    rw [← read_text h]
    conv => rhs; rw [← ih]
    simp [Cut.openText, tail]

/-- The tokens among pieces that begin at a place, with their spans. -/
def locate (p : Position) : List Piece → List Located
  | [] => []
  | piece :: pieces =>
    let q := p.after piece.text
    match piece with
    | .token tok _ => ⟨tok, ⟨p, q.offset⟩⟩ :: locate q pieces
    | _ => locate q pieces

end Piece

/-- A text that was read to its end as tokens. -/
structure Lexed where
  /-- The tokens in their order. -/
  tokens : List Located
  /-- The end of the text. -/
  finish : Position
  deriving DecidableEq, Repr

namespace Lexed

/-- The tokens of a text, or what was left open in it and the span of the open end. -/
def ofText (t : Text) : Except (Unclosed × Span) Lexed :=
  let cut := Piece.cut t
  match cut.openEnd with
  | none => .ok ⟨Piece.locate .start cut.pieces, Position.start.after t⟩
  | some (fault, _) =>
    let opening := Position.start.after (cut.pieces.flatMap Piece.text)
    .error (fault, ⟨opening, (Position.start.after t).offset⟩)

end Lexed

end SqlConsole
