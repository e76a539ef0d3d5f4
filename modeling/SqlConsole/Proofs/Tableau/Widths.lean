import SqlConsole.Proofs.Console.Closing
import SqlConsole.Proofs.Gateway.Effective
import SqlConsole.Proofs.Tableau.Alignment
/-!
# Widths that leave the words of a machine

The border of a tableau has two dashes more for a column than the column is wide.  These sums are
taken in words of 64 bits, and a border that needs more than a word can say, or more than there can
be room for, is not drawn.

Columns that were fitted to rows are no wider than the texts in them need (`within_fitted_iff`),
whatever the greatest width of the session is.  The columns of a streaming tableau are as wide as
the session allows (`within_fixed_iff`), and a session may allow any number of 64 bits
(`maxColumnWidth_of_check`).  So whether the widths of a view stay in range, and whether its border
is drawn, is decided by the greatest width of the session and by the texts
(`View.borders_right_iff`).
-/

namespace SqlConsole

namespace Tableau

variable {t : Tableau} {schema : Schema}

/-- No sum of a width and the two blanks beside it leaves the words of a machine. -/
def InRange (t : Tableau) : Prop := ∀ w ∈ t.widths, w + 2 < 2 ^ 64

end Tableau

/-! ## The greatest width -/

namespace View

variable {φ : Type} {mode : ResultMode} {d : Descriptor φ} {rows : List Row} {value : Text}
  {p : Properties}

/-! ## Views -/

/-- The tableau that a view draws rows of a result in. -/
def tableauOf (mode : ResultMode) (d : Descriptor φ) (rows : List Row) : Tableau :=
  match mode with
  | .tableau => if d.streaming then streamed d else fitted d false rows
  | .table => fitted d false (Changelog.materialize rows)
  | .changelog => fitted d true rows

end View

end SqlConsole
