import SqlConsole.Crash
import SqlConsole.Value
/-!
# Tableaus

A tableau is a table drawn in characters: a border, the column headers, a line for every row, and
a count of the rows.  Its column widths are decided before the first line is drawn, either by the
rows themselves (`Tableau.fitted`) or by a given width (`Tableau.fixed`).  A cell that does not
fit into its column is cut.

Widths are words of 64 bits, and a line with a column that is too wide for them, or too wide for a
text to be filled up to it, cannot be drawn: it is a `Crash`.
-/

namespace SqlConsole

/-- How the cells of a tableau are drawn. -/
structure TableauStyle where
  /-- The widest that a column may be, if there is a limit. -/
  maxColumnWidth : Option Nat
  /-- Draw a missing value as an empty cell. -/
  nullAsEmpty : Bool
  /-- Draw a first column with the kinds of the rows. -/
  rowKinds : Bool
  deriving DecidableEq, Repr

/-- The style of answers that are small and complete: columns as wide as they need to be, and
missing values empty. -/
def TableauStyle.plain : TableauStyle := ⟨none, true, false⟩

def TableauStyle.result (maxColumnWidth : Nat) (rowKinds : Bool) : TableauStyle :=
  ⟨some maxColumnWidth, false, rowKinds⟩

/-- A table drawn in characters, whose rows are not known yet. -/
structure Tableau where
  headers : List Text
  /-- A width for every column. -/
  widths : List Nat
  style : TableauStyle
  deriving DecidableEq, Repr

namespace Tableau

/-- What is drawn at one place of a line. -/
structure Cell where
  text : Text
  /-- Draw the text at the right end of its column. -/
  right : Bool
  deriving DecidableEq, Repr

/-- The header of the column of row kinds. -/
def kindHeader : Text := "op"

def headersOf (schema : Schema) (style : TableauStyle) : List Text :=
  (if style.rowKinds then [kindHeader] else []) ++ schema.map Column.name

/-- The cell of a value.  Numbers stand at the right. -/
def cell (style : TableauStyle) (v : Value) : Cell :=
  ⟨if v.isNull && style.nullAsEmpty then [] else v.render, v.isNumeric⟩

def cells (style : TableauStyle) (row : Row) : List Cell :=
  (if style.rowKinds then [⟨row.kind.short, false⟩] else []) ++ row.values.map (cell style)

/-! ## Widths -/

/-- The narrowest width of a column: even a column without room shows a character. -/
def minWidth : Nat := 1

/-- A width held down to the limit of a style. -/
def limit (style : TableauStyle) (width : Nat) : Nat :=
  match style.maxColumnWidth with
  | some most => min width (max most minWidth)
  | none => width

/-- Widths made large enough for the cells of a row.  Cells without a column do not count. -/
def widen : List Nat → List Cell → List Nat
  | w :: ws, c :: cs => max w c.text.length :: widen ws cs
  | ws, _ => ws

/-- A tableau whose columns fit the headers and some rows. -/
def fitted (schema : Schema) (rows : List Row) (style : TableauStyle) : Tableau :=
  let headers := headersOf schema style
  let widths := rows.foldl (fun ws row => widen ws (cells style row)) (headers.map List.length)
  ⟨headers, widths.map (limit style), style⟩

/-- A tableau whose columns have a width, or more where their header needs it. -/
def fixed (schema : Schema) (width : Nat) (style : TableauStyle) : Tableau :=
  let headers := headersOf schema style
  ⟨headers, headers.map fun h => limit style (max width h.length), style⟩

/-! ## Lines -/

/-- The mark of a text that was cut. -/
def ellipsis : Text := "..."

/-- A text cut to a width.  A cut text ends with the ellipsis where there is room for more than
the ellipsis. -/
def cut (width : Nat) (t : Text) : Text :=
  if t.length ≤ width then t
  else if width ≤ ellipsis.length then t.take width
  else t.take (width - ellipsis.length) ++ ellipsis

/-- A cell filled up to a width. -/
def fill (width : Nat) (c : Cell) : Text :=
  if c.right then Text.padStart width (cut width c.text) else Text.padEnd width (cut width c.text)

/-- The greatest number that a word holds. -/
def maxWord : Nat := 0xffffffffffffffff

/-- The most characters that there can be room for. -/
def maxRoom : Nat := 0x7fffffffffffffff

/-- The greatest width that a text can be filled up to. -/
def maxFill : Nat := 0xffff

/-- A cell as it stands in its line, with a blank on either side. -/
def field (width : Nat) (c : Cell) : Except Crash Text :=
  if maxFill < width then .error .fill else .ok ([' '] ++ fill width c ++ [' ', '|'])

/-- A line of cells.  Cells without a column are left out, and so are columns without a cell. -/
def line (t : Tableau) (cells : List Cell) : Except Crash Text := do
  return '|' :: (← (t.widths.zip cells).mapM fun (width, c) => field width c).flatten

/-- The dashes above a column: one for each character of its width, and two for the blanks on
either side. -/
def dashes (width : Nat) : Except Crash Text :=
  if maxWord < width + 2 then .error .sum
  else if maxRoom < width + 2 then .error .room
  else .ok (List.replicate (width + 2) '-')

/-- The line above, below and between the parts of the tableau. -/
def border (t : Tableau) : Except Crash Text := do
  return '+' :: (← t.widths.mapM dashes).flatMap (· ++ ['+'])

/-- The line of the headers. -/
def header (t : Tableau) : Except Crash Text := t.line (t.headers.map fun h => ⟨h, false⟩)

/-- The line of a row. -/
def row (t : Tableau) (r : Row) : Except Crash Text := t.line (cells t.style r)

/-- How many rows there are, in words. -/
def countFooter : Nat → Text
  | 0 => "Empty set"
  | 1 => "1 row in set"
  | n => Text.ofNat n ++ " rows in set"

/-- The lines of the tableau with some rows in it.  Without rows there is only their count. -/
def lines (t : Tableau) (rows : List Row) : List (Except Crash Text) :=
  (if rows.isEmpty then []
    else [t.border, t.header, t.border] ++ rows.map t.row ++ [t.border]) ++
  [.ok (countFooter rows.length)]

end Tableau

end SqlConsole
