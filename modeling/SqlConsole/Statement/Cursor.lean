import SqlConsole.Statement.Error
/-!
# Reading a statement from left to right

A `Source` is the text of a statement with its tokens.  A `StatementParser` looks at the tokens
that are left, takes some of them from the front, and answers or finds a fault.  The parsers of
this module take single keywords, symbols and names; each of them leaves a suffix of the tokens it
was given.
-/

namespace SqlConsole

/-- The text of one statement and its tokens. -/
structure Source where
  text : Text
  tokens : List Located
  /-- The end of the text. -/
  finish : Position
  /-- Byte offset of the end of the statement, its terminator not included. -/
  bodyEnd : Nat
  deriving DecidableEq, Repr

/-- The tokens of a statement.  A `;` at the end is its terminator. -/
def Source.ofText (t : Text) : Except ParseError Source :=
  match Lexed.ofText t with
  | .error (what, span) => .error ⟨.unclosed what, span⟩
  | .ok lexed =>
    let bodyEnd := match lexed.tokens.getLast? with
      | some last =>
        if last.token = .symbol ';' then last.span.start.offset else Text.byteLength t
      | none => Text.byteLength t
    .ok ⟨t, lexed.tokens, lexed.finish, bodyEnd⟩

/-- The part of the statement between two byte offsets, trimmed; never beyond its terminator. -/
def Source.textBetween (src : Source) (start stop : Nat) : Text :=
  Text.trim ((Text.slice? start (min stop src.bodyEnd) src.text).getD [])

/-- The statement without its terminator, trimmed. -/
def Source.body (src : Source) : Text := src.textBetween 0 src.bodyEnd

/-- A step of reading: it takes tokens from the front of those that are left. -/
abbrev StatementParser := ReaderT Source (StateT (List Located) (Except ParseError))

/-- Whether at most the terminator is left. -/
def atEnd : List Located → Bool
  | [] => true
  | [last] => last.token == .symbol ';'
  | _ => false

/-- The keywords that stand at the front of some tokens. -/
def startsWith : List Text → List Located → Bool
  | [], _ => true
  | k :: ks, t :: ts => t.token.isKeyword k && startsWith ks ts
  | _ :: _, [] => false

/-- Identifiers with a separator in front of each, and the tokens behind them; or the tokens where
an identifier is missing behind a separator. -/
def moreIdentifiers (separator : Char) :
    List Located → Except (List Located) (List Text × List Located)
  | sep :: part :: rest =>
    if sep.token = .symbol separator then
      match part.token.identifier? with
      | some name => (moreIdentifiers separator rest).map fun (names, ts) => (name :: names, ts)
      | none => .error (part :: rest)
    else .ok ([], sep :: part :: rest)
  | [sep] => if sep.token = .symbol separator then .error [] else .ok ([], [sep])
  | [] => .ok ([], [])

namespace StatementParser

/-- The place of the next token, or the end of the text. -/
def here : StatementParser Span := do
  match (← get) with
  | t :: _ => return t.span
  | [] => return (← read).finish.span

/-- The fault that something else was expected instead of the next token. -/
def unexpected {α : Type} (expected : Text) : StatementParser α := do
  let span ← here
  match (← get) with
  | t :: _ => throw ⟨.unexpected expected t.token.name, span⟩
  | [] => throw ⟨.endOfStatement expected, span⟩

/-- Go on with the given tokens. -/
def goto (tokens : List Located) : StatementParser Unit := set tokens

/-- Take the next token, if there is one. -/
def advance : StatementParser Unit := modify List.tail

/-- Take the keywords if they are the next tokens. -/
def eatKeywords (keywords : List Text) : StatementParser Bool := do
  if startsWith keywords (← get) then
    modify (·.drop keywords.length)
    return true
  return false

/-- Take a keyword if it is the next token. -/
def eatKeyword (keyword : Text) : StatementParser Bool := eatKeywords [keyword]

/-- Take a keyword. -/
def expectKeyword (keyword : Text) : StatementParser Unit := do
  if !(← eatKeyword keyword) then unexpected keyword

/-- Take a symbol. -/
def expectSymbol (c : Char) : StatementParser Unit := do
  match (← get) with
  | t :: ts => if t.token = .symbol c then goto ts else unexpected ['\'', c, '\'']
  | [] => unexpected ['\'', c, '\'']

/-- Take a string literal. -/
def expectString (what : Text) : StatementParser Text := do
  match (← get) with
  | t :: ts =>
    match t.token.string? with
    | some value => goto ts; return value
    | none => unexpected what
  | [] => unexpected what

/-- Take an identifier. -/
def expectIdentifier : StatementParser Text := do
  match (← get) with
  | t :: ts =>
    match t.token.identifier? with
    | some name => goto ts; return name
    | none => unexpected "identifier"
  | [] => unexpected "identifier"

/-- Take one or more identifiers with a separator between each two of them. -/
def expectIdentifiers (separator : Char) : StatementParser (List Text) := do
  let first ← expectIdentifier
  match moreIdentifiers separator (← get) with
  | .ok (names, rest) => goto rest; return first :: names
  | .error rest => goto rest; unexpected "identifier"

/-- Take a dotted name such as `catalog.database.table`. -/
def expectName : StatementParser Text := return Text.join ['.'] (← expectIdentifiers '.')

/-- Go on only if at most the terminator is left. -/
def expectEnd : StatementParser Unit := do
  if !atEnd (← get) then unexpected "end of statement"

/-- The text from the next token to the end of the statement. -/
def restText : StatementParser Text := do
  let src ← read
  let start := (← here).start.offset
  return src.textBetween (min start src.bodyEnd) src.bodyEnd

end StatementParser

end SqlConsole
