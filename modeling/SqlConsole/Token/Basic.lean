import SqlConsole.Text.Position
/-!
# Tokens

A statement is read as a list of tokens.  The client does not interpret expressions, so the
classes are coarse: words (keywords and bare identifiers alike), quoted identifiers, string
literals, numbers, and single characters.
-/

namespace SqlConsole

/-- A token of a statement. -/
inductive Token where
  /-- A keyword or a bare identifier. -/
  | word (text : Text)
  /-- An identifier written between backticks or double quotes, without them. -/
  | quoted (name : Text)
  /-- A string literal, without its quotes. -/
  | string (value : Text)
  /-- A run of digits and points that begins with a digit. -/
  | number (digits : Text)
  /-- Any other character. -/
  | symbol (char : Char)
  deriving DecidableEq, Repr, Inhabited

namespace Token

/-- How a message names the end of the statement. -/
def endName : Text := "end of statement"

/-- How a message names a token. -/
def name : Token → Text
  | .word w => "'" ++ w ++ "'"
  | .quoted n => "`" ++ n ++ "`"
  | .string _ => "string literal"
  | .number d => d
  | .symbol c => ['\'', c, '\'']

/-- Whether the token is a bare word that spells a keyword in any letter case. -/
def isKeyword (keyword : Text) : Token → Bool
  | .word w => Text.sameWord w keyword
  | _ => false

/-- The name that an identifier stands for, bare or quoted. -/
def identifier? : Token → Option Text
  | .word w => some w
  | .quoted n => some n
  | _ => none

/-- The value of a string literal. -/
def string? : Token → Option Text
  | .string v => some v
  | _ => none

end Token

/-- A token together with the part of the text that it was read from. -/
structure Located where
  /-- What was read. -/
  token : Token
  /-- Where it was read. -/
  span : Span
  deriving DecidableEq, Repr, Inhabited

end SqlConsole
