import SqlConsole.Token.Lexer
/-!
# Statement boundaries

A statement ends at a `;` outside of quotes and comments.  The exception is the block
`EXECUTE STATEMENT SET BEGIN … END;`, whose inner statements carry terminators of their own.

`Script.segments` cuts a text at its terminators with a scan that looks one character ahead.
`Script.group` puts the segments of a block together again.  `Script.Scan.ofText` is both, and
`split`, `isComplete` and `formatFile` are what the reader of statements uses.
-/

namespace SqlConsole.Script

/-! ## The scan -/

/-- Where in a text the scan is. -/
inductive Region where
  /-- Outside of quotes and comments. -/
  | plain
  /-- Between two quote characters of one kind. -/
  | quoted (quote : Char)
  | lineComment
  | blockComment
  /-- Before the second character of the mark that opens a line comment. -/
  | openingLine
  /-- Before the second character of the mark that opens a block comment. -/
  | openingBlock
  /-- Before the second character of the mark that closes a block comment. -/
  | closingBlock
  deriving DecidableEq, Repr

/-- Where the scan is behind the character `c`, when the character `next` comes after it. -/
def Region.step (c : Char) (next : Option Char) : Region → Region
  | .plain =>
    if c = '\'' ∨ c = '`' ∨ c = '"' then .quoted c
    else if c = '-' ∧ next = some '-' then .openingLine
    else if c = '/' ∧ next = some '*' then .openingBlock
    else .plain
  | .quoted q => if c = q then .plain else .quoted q
  | .lineComment => if c = '\n' then .plain else .lineComment
  | .blockComment => if c = '*' ∧ next = some '/' then .closingBlock else .blockComment
  | .openingLine => .lineComment
  | .openingBlock => .blockComment
  | .closingBlock => .plain

/-- Whether a text that ends in this region ends inside a quoted text or a block comment. -/
def Region.isOpen : Region → Bool
  | .quoted _ | .blockComment | .openingBlock | .closingBlock => true
  | .plain | .lineComment | .openingLine => false

/-- A text cut at its terminators. -/
structure Segments where
  /-- The parts that end with a terminator, each with its terminator. -/
  ended : List Text
  /-- What follows the last terminator. -/
  rest : Text
  /-- Where the text ends. -/
  region : Region
  deriving DecidableEq, Repr

/-- Put a character in front of the first part. -/
def Segments.cons (c : Char) (s : Segments) : Segments :=
  match s.ended with
  | [] => { s with rest := c :: s.rest }
  | part :: parts => { s with ended := (c :: part) :: parts }

/-- Cut a text that begins in a region at its terminators. -/
def segments (region : Region) : Text → Segments
  | [] => ⟨[], [], region⟩
  | c :: r =>
    let tail := segments (region.step c r.head?) r
    if region = .plain ∧ c = ';' then { tail with ended := [c] :: tail.ended }
    else tail.cons c

/-! ## Blocks -/

/-- Drop the leading blanks and comments.  A block comment that is never closed takes the rest of
the text with it. -/
def skipComments (t : Text) : Text :=
  match _h : Text.trimStart t with
  | '-' :: '-' :: r => skipComments (r.dropWhile (· != '\n'))
  | '/' :: '*' :: r =>
    match _hc : Piece.closeComment? r with
    | some (_, rest) => skipComments rest
    | none => []
  | rest => rest
termination_by t.length
decreasing_by
  all_goals
    have hlen : (Text.trimStart t).length ≤ t.length := (List.dropWhile_sublist _).length_le
    simp only [_h, List.length_cons] at hlen
  · have := (List.dropWhile_sublist (l := r) (· != '\n')).length_le
    omega
  · have := congrArg List.length (Piece.closeComment?_text _hc)
    simp only [List.length_append] at this
    omega

/-- Whether a text holds nothing but blanks and comments. -/
def isBlankText (t : Text) : Bool := (skipComments t).isEmpty

/-- The first words of a text behind its leading comments, in capitals and without terminators. -/
def leadingWords (count : Nat) (t : Text) : List Text :=
  ((Text.words (skipComments t)).take count).map fun w => Text.upper (Text.dropTerminators w)

/-- Whether a segment begins a block of statements. -/
def opensBlock (t : Text) : Bool :=
  leadingWords 4 t == (["EXECUTE", "STATEMENT", "SET", "BEGIN"] : List Text)

/-- Whether a text ends with the word `END`, terminators and blanks aside. -/
def closesBlock (t : Text) : Bool :=
  match (Text.trimEnd (Text.dropTerminators (Text.trimEnd t))).reverse with
  | d :: n :: e :: before =>
    Text.upper [e, n, d] == ("END" : Text) && before.head?.all fun c => isBlank c || c == ';'
  | _ => false

/-- Statements put together from segments. -/
structure Grouped where
  /-- Complete statements, a closed block being one of them. -/
  statements : List Text
  /-- A block that still waits for its `END;`. -/
  openBlock : Option Text
  deriving DecidableEq, Repr

/-- Put the segments of blocks together, given the block that is open so far. -/
def group : Option Text → List Text → Grouped
  | block, [] => ⟨[], block⟩
  | some block, s :: rest =>
    let block := block ++ s
    if closesBlock block then
      let tail := group none rest
      { tail with statements := block :: tail.statements }
    else group (some block) rest
  | none, s :: rest =>
    if opensBlock s && !closesBlock s then group (some s) rest
    else
      let tail := group none rest
      { tail with statements := s :: tail.statements }

/-! ## Statements of a text -/

/-- What a text holds: complete statements and what follows them. -/
structure Scan where
  /-- Complete statements, each with its terminator and the blanks and comments before it. -/
  statements : List Text
  /-- A block that still waits for its `END;`. -/
  openBlock : Option Text
  /-- What follows the last terminator. -/
  rest : Text
  /-- The text ends inside a quoted text or a block comment. -/
  unterminated : Bool
  deriving DecidableEq, Repr

def Scan.ofText (t : Text) : Scan :=
  let s := segments .plain t
  let g := group none s.ended
  ⟨g.statements, g.openBlock, s.rest, s.region.isOpen⟩

/-- Commands of the client that need no terminator. -/
def bareCommands : List Text := ["quit", "exit", "help", "clear"]

/-- Whether a text is a single command of the client, terminated or not. -/
def isBareCommand (t : Text) : Bool :=
  let word := Text.trim (Text.dropTerminators (Text.trim t))
  bareCommands.any (Text.sameWord word)

/-- Whether a text holds one or more complete statements and nothing else. -/
def isComplete (t : Text) : Bool :=
  isBareCommand t ||
    (let s := Scan.ofText t
     !s.unterminated && s.openBlock.isNone && !s.statements.isEmpty && isBlankText s.rest)

/-- The statements of a text, trimmed.  A complete statement keeps its terminator; what follows
the last one is a statement too unless it is blank. -/
def split (t : Text) : List Text :=
  if isBareCommand t then [Text.trim t]
  else
    let s := Scan.ofText t
    let tail := s.openBlock.getD [] ++ s.rest
    s.statements.map Text.trim ++ if isBlankText tail then [] else [Text.trim tail]

/-- The content of a script file, trimmed, with a terminator and a line feed at its end. -/
def formatFile (content : Text) : Text :=
  let trimmed := Text.trim content
  trimmed ++ (if trimmed.getLast? = some ';' then [] else [';']) ++ ['\n']

end SqlConsole.Script
