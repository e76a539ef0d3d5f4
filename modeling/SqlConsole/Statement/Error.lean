import SqlConsole.Token.Lexer
/-!
# Faults of a statement

Why the text of a statement is no operation, and where in the text the fault lies.
-/

namespace SqlConsole

namespace ParseError

/-- Why a text is no statement. -/
inductive Cause where
  /-- A quoted text or a comment is never closed. -/
  | unclosed (what : Unclosed)
  /-- There are further statements behind the first one. -/
  | severalStatements
  /-- The statement ends where something else was expected. -/
  | endOfStatement (expected : Text)
  /-- A token stands where something else was expected. -/
  | unexpected (expected found : Text)
  /-- No statement begins with this word. -/
  | unsupported (word : Text)
  /-- A statement inside of a block is no insert. -/
  | notAnInsert (statement : Text)
  deriving DecidableEq, Repr

end ParseError

/-- A fault and the part of the text it was found at. -/
structure ParseError where
  cause : ParseError.Cause
  span : Span
  deriving DecidableEq, Repr

namespace ParseError

/-- What is wrong, in words. -/
def reason (e : ParseError) : Text :=
  match e.cause with
  | .unclosed what => what.message
  | .severalStatements => "only one statement can be executed at a time"
  | .endOfStatement expected => "unexpected end of statement, expected " ++ expected
  | .unexpected expected found => "expected " ++ expected ++ ", found " ++ found
  | .unsupported word => "unsupported statement starting with '" ++ word ++ "'"
  | .notAnInsert statement =>
    "only INSERT statements are allowed in EXECUTE STATEMENT SET, found: " ++ statement

/-- What would have been right there. -/
def expected (e : ParseError) : Option (List Text) :=
  match e.cause with
  | .endOfStatement expected | .unexpected expected _ => some [expected]
  | _ => none

/-- What was found there instead. -/
def found (e : ParseError) : Option Text :=
  match e.cause with
  | .endOfStatement _ => some Token.endName
  | .unexpected _ found => some found
  | .unsupported word => some word
  | _ => none

/-- The whole message, with the place of the fault. -/
def message (e : ParseError) : Text :=
  "Parse error at line " ++ Text.ofNat e.span.start.line ++ ", column " ++
    Text.ofNat e.span.start.column ++ ": " ++ e.reason

end ParseError

end SqlConsole
