import Std.Data.TreeMap
import SqlConsole.Text.Basic
/-!
# Session properties

A session keeps properties, texts under textual keys.  Five of them are settings of the client:
each has a type, a default, and a way to read its value.  A setting that is missing or cannot be
read has its default (`Setting.get`); a value that cannot be read is refused when it is set
(`Property.check`).
-/

namespace SqlConsole

/-- Properties by key, in the order of their keys. -/
abbrev Properties := Std.TreeMap Text Text

/-- A property that the client understands. -/
structure Setting (α : Type) where
  key : Text
  default : α
  /-- The value that a text stands for. -/
  read? : Text → Option α
  /-- What a value has to be, for messages. -/
  expected : Text

/-- The effective value of a setting. -/
def Setting.get {α : Type} (s : Setting α) (properties : Properties) : α :=
  (properties[s.key]?.bind s.read?).getD s.default

/-- How query results are presented. -/
inductive ResultMode where
  /-- As a table, after all rows have arrived. -/
  | table
  /-- As a list of changes, after all rows have arrived. -/
  | changelog
  /-- Straight to the output. -/
  | tableau
  deriving DecidableEq, Repr

def ResultMode.name : ResultMode → Text
  | table => "TABLE"
  | changelog => "CHANGELOG"
  | tableau => "TABLEAU"

/-- Whether queries run without end or over all rows at once. -/
inductive RuntimeMode where
  | streaming
  | batch
  deriving DecidableEq, Repr

/-- The value that a text names in a list of names, in any letter case and blanks aside. -/
def named? {α : Type} (names : List (Text × α)) (t : Text) : Option α :=
  names.lookup (Text.lower (Text.trim t))

/-- The size that a text spells: decimal digits, perhaps behind a `+`, of a number that fits into
64 bits. -/
def size? (t : Text) : Option Nat :=
  let digits := match Text.trim t with
    | '+' :: digits => digits
    | digits => digits
  let n := Text.decimalValue digits
  if Text.isDigits digits && n < 0x10000000000000000 then some n else none

namespace Setting

/-- A setting that is on or off. -/
def switch (key : Text) (default : Bool) : Setting Bool where
  key
  default
  read? := named? [("true", true), ("false", false)]
  expected := "'true' or 'false'"

/-- How query results are presented. -/
def resultMode : Setting ResultMode where
  key := "sql-client.execution.result-mode"
  default := .table
  read? := named? [("table", .table), ("changelog", .changelog), ("tableau", .tableau)]
  expected := "one of 'table', 'changelog', 'tableau'"

/-- Whether a modification is over before the next statement is read. -/
def dmlSync : Setting Bool := switch "table.dml-sync" false

/-- Whether a failure is shown with all its causes. -/
def verbose : Setting Bool := switch "sql-client.verbose" false

/-- Whether queries run without end. -/
def runtimeMode : Setting RuntimeMode where
  key := "execution.runtime-mode"
  default := .streaming
  read? := named? [("streaming", .streaming), ("batch", .batch)]
  expected := "one of 'streaming', 'batch'"

/-- The widest that a column of a result is printed. -/
def maxColumnWidth : Setting Nat where
  key := "sql-client.display.max-column-width"
  default := 30
  read? := size?
  expected := "a non-negative integer"

end Setting

/-- A value that a setting cannot have. -/
structure InvalidValue where
  key : Text
  value : Text
  expected : Text
  deriving DecidableEq, Repr

/-- What is wrong with a value. -/
def InvalidValue.message (e : InvalidValue) : Text :=
  "could not parse value '" ++ e.value ++ "' for key '" ++ e.key ++ "', expected " ++ e.expected

namespace Property

/-- Whether a value can be read by a setting. -/
def checkSetting {α : Type} (s : Setting α) (value : Text) : Except InvalidValue Unit :=
  match s.read? value with
  | some _ => .ok ()
  | none => .error ⟨s.key, value, s.expected⟩

/-- Whether a property may have a value.  Properties that are no settings of the client may have
any value. -/
def check (key value : Text) : Except InvalidValue Unit :=
  if key = Setting.resultMode.key then checkSetting .resultMode value
  else if key = Setting.dmlSync.key then checkSetting .dmlSync value
  else if key = Setting.verbose.key then checkSetting .verbose value
  else if key = Setting.runtimeMode.key then checkSetting .runtimeMode value
  else if key = Setting.maxColumnWidth.key then checkSetting .maxColumnWidth value
  else .ok ()

end Property

end SqlConsole
