import Mathlib.Algebra.GroupWithZero.Nat
import Mathlib.Algebra.Order.BigOperators.Group.List
import Mathlib.Algebra.Order.Group.Nat
import Mathlib.Data.List.Forall2
import SqlConsole.Proofs.Tableau.Drawing
/-!
# Lines of a tableau are aligned

A line of cells gives every column the same number of characters, whatever stands in the cell: a
text that is too long is cut, and one that is too short is filled up with blanks (`length_fill`).
So all lines of cells have one length (`length_cellLine`), and it is the length of the border
(`length_ruled`).

The columns of a fitted tableau have room for all headers and cells (`hasRoom_columnWidths`), and no
more than the longest of them needs (`forall_columnWidths_le_iff`), up to the limit of the style.
Only the limit cuts a text (`shownAs_cut`), but where no limit holds a column down that is wider
than texts can be, the tableau cannot be drawn (`aligned_and_cut`).
-/

namespace SqlConsole

namespace Tableau

variable {t : Tableau} {style : TableauStyle} {schema : Schema} {rows : List Row} {row : Row}
  {width most : Nat} {text line : Text} {widths : List Nat} {cs : List Cell}

/-! ## Cells -/

/-- A text that has room is not cut. -/
theorem cut_of_le (h : text.length ≤ width) : cut width text = text := by
  rw [cut, if_pos h]

/-- A text without room is cut to the width, and the mark of a cut stands at its end where there is
more room than for the mark. -/
theorem cut_of_lt (h : width < text.length) :
    (cut width text).length = width ∧
      if 3 < width then ∃ kept, kept <+: text ∧ cut width text = kept ++ ellipsis
      else cut width text <+: text := by
  have hmark : ellipsis.length = 3 := rfl
  have hlong : ¬ text.length ≤ width := by omega
  unfold cut
  rw [if_neg hlong, hmark]
  by_cases hwidth : width ≤ 3
  · have hnarrow : ¬ 3 < width := by omega
    rw [if_pos hwidth, if_neg hnarrow, List.length_take]
    exact ⟨by omega, List.take_prefix width text⟩
  · have hbroad : 3 < width := by omega
    rw [if_neg hwidth, if_pos hbroad, List.length_append, List.length_take, hmark]
    exact ⟨by omega, _, List.take_prefix (width - 3) text, rfl⟩

theorem length_cut_le (width : Nat) (text : Text) : (cut width text).length ≤ width := by
  by_cases h : text.length ≤ width
  · rwa [cut_of_le h]
  · have hlong : width < text.length := by omega
    exact Nat.le_of_eq (cut_of_lt hlong).1

/-- **A cell is as wide as its column.** -/
theorem length_fill (width : Nat) (c : Cell) : (fill width c).length = width := by
  have hcut := length_cut_le width c.text
  unfold fill
  by_cases hright : c.right = true
  · rw [if_pos hright, Text.padStart, List.length_append, List.length_replicate]
    omega
  · rw [if_neg hright, Text.padEnd, List.length_append, List.length_replicate]
    omega

/-! ## Lines -/

/-- The number of characters of a line with a cell in every column. -/
def span (widths : List Nat) : Nat := 1 + (widths.map (· + 3)).sum

theorem length_flatten_cells (h : widths.length ≤ cs.length) :
    (List.zipWith spread widths cs).flatten.length = (widths.map (· + 3)).sum := by
  induction widths generalizing cs with
  | nil => rfl
  | cons w ws ih =>
    cases cs with
    | nil => cases h
    | cons c cs =>
      have hrest := ih (Nat.le_of_succ_le_succ h)
      have hfirst : (spread w c).length = w + 3 := by
        unfold spread
        rw [List.length_append, List.length_append, length_fill]
        simp only [List.length_cons, List.length_nil]
        omega
      rw [List.zipWith_cons_cons, List.flatten_cons, List.length_append, hfirst, hrest,
        List.map_cons, List.sum_cons]

/-- **All lines of cells have one length.** -/
theorem length_cellLine (h : widths.length ≤ cs.length) :
    (cellLine widths cs).length = span widths := by
  rw [cellLine, List.length_cons, length_flatten_cells h, span]
  omega

/-- A border is as long as a line of cells. -/
theorem length_ruled (widths : List Nat) : (ruled widths).length = span widths := by
  have hdashes : (widths.flatMap fun w => List.replicate (w + 2) '-' ++ ['+']).length =
      (widths.map (· + 3)).sum := by
    induction widths with
    | nil => rfl
    | cons w ws ih =>
      rw [List.flatMap_cons, List.length_append, List.length_append, List.length_replicate, ih,
        List.map_cons, List.sum_cons]
      rfl
  rw [ruled, List.length_cons, hdashes, span]
  omega

/-- Every kind of line that a tableau has with some rows in it. -/
def parts (t : Tableau) (rows : List Row) : List (Except Crash Text) :=
  t.border :: t.header :: rows.map t.row

/-- A tableau with a header over every column, and some rows with a cell in each. -/
structure Filled (t : Tableau) (rows : List Row) : Prop where
  headers : t.widths.length ≤ t.headers.length
  cells : ∀ row ∈ rows, t.widths.length ≤ (cells t.style row).length

/-- **Whatever is drawn is as long as the widths say.** -/
theorem Filled.length_eq (h : t.Filled rows) (hline : .ok line ∈ t.parts rows) :
    line.length = span t.widths := by
  rcases List.mem_cons.1 hline with hborder | hline
  · rw [((border_eq_ok_iff t line).1 hborder.symm).2, length_ruled]
  · rcases List.mem_cons.1 hline with hheader | hrow
    · have hcells : t.widths.length ≤ (t.headers.map fun h => (⟨h, false⟩ : Cell)).length := by
        rw [List.length_map]
        exact h.headers
      rw [((line_eq_ok_iff t _ line).1 hheader.symm).2, length_cellLine hcells]
    · obtain ⟨row, hmem, hdrawn⟩ := List.mem_map.1 hrow
      rw [((line_eq_ok_iff t _ line).1 hdrawn).2, length_cellLine (h.cells row hmem)]

/-- **All lines can be drawn exactly if no column is wider than texts can be.** -/
theorem Filled.drawn_iff_within (h : t.Filled rows) :
    (∀ part ∈ t.parts rows, ∃ line, part = .ok line) ↔ t.Within maxFill := by
  constructor
  · intro hdrawn
    obtain ⟨line, hline⟩ := hdrawn t.header (List.mem_cons_of_mem _ List.mem_cons_self)
    exact within_of_header h.headers hline
  · intro hwithin part hpart
    rcases List.mem_cons.1 hpart with rfl | hpart
    · exact ⟨_, hwithin.border_eq⟩
    · rcases List.mem_cons.1 hpart with rfl | hrow
      · exact ⟨_, hwithin.line_eq _⟩
      · obtain ⟨row, -, rfl⟩ := List.mem_map.1 hrow
        exact ⟨_, hwithin.line_eq _⟩

/-! ## Widths of fitted tableaus -/

/-- Every cell that stands in a column has room in it. -/
def HasRoom (widths : List Nat) (cs : List Cell) : Prop :=
  ∀ p ∈ widths.zip cs, p.2.text.length ≤ p.1

theorem length_widen (widths : List Nat) (cs : List Cell) :
    (widen widths cs).length = widths.length := by
  induction widths generalizing cs with
  | nil => rfl
  | cons w ws ih =>
    cases cs with
    | nil => rfl
    | cons c cs => exact congrArg (· + 1) (ih cs)

/-- Cells have room in columns that were made large enough for them. -/
theorem hasRoom_widen (widths : List Nat) (cs : List Cell) : HasRoom (widen widths cs) cs := by
  induction widths generalizing cs with
  | nil => intro p hp; cases hp
  | cons w ws ih =>
    cases cs with
    | nil => intro p hp; cases hp
    | cons c cs =>
      intro p hp
      rcases List.mem_cons.1 hp with rfl | hp
      · exact Nat.le_max_right w c.text.length
      · exact ih cs p hp

/-- Columns only get larger. -/
theorem HasRoom.widen (h : HasRoom widths cs) (others : List Cell) :
    HasRoom (widen widths others) cs := by
  induction widths generalizing cs others with
  | nil => exact h
  | cons w ws ih =>
    cases others with
    | nil => exact h
    | cons other others =>
      cases cs with
      | nil => intro p hp; cases hp
      | cons c cs =>
        have hfirst : c.text.length ≤ w := h (w, c) List.mem_cons_self
        have hrest : HasRoom ws cs := fun p hp => h p (List.mem_cons_of_mem _ hp)
        intro p hp
        rcases List.mem_cons.1 hp with rfl | hp
        · exact Nat.le_trans hfirst (Nat.le_max_left w other.text.length)
        · exact ih hrest others p hp

/-- The widths that headers and rows ask for. -/
def columnWidths (schema : Schema) (rows : List Row) (style : TableauStyle) : List Nat :=
  rows.foldl (fun ws row => Tableau.widen ws (cells style row))
    ((headersOf schema style).map List.length)

theorem fitted_eq (schema : Schema) (rows : List Row) (style : TableauStyle) :
    fitted schema rows style = ⟨headersOf schema style,
      (columnWidths schema rows style).map (limit style), style⟩ := rfl

theorem length_columnWidths (schema : Schema) (rows : List Row) (style : TableauStyle) :
    (columnWidths schema rows style).length = (headersOf schema style).length := by
  have hfold (ws : List Nat) :
      (rows.foldl (fun ws row => Tableau.widen ws (cells style row)) ws).length = ws.length := by
    induction rows generalizing ws with
    | nil => rfl
    | cons row rows ih => rw [List.foldl_cons, ih, length_widen]
  rw [columnWidths, hfold, List.length_map]

/-- The cells of a line of headers. -/
def headerCells (headers : List Text) : List Cell := headers.map fun h => ⟨h, false⟩

/-- What has room keeps it while columns are widened for rows, and then each row has room. -/
theorem hasRoom_foldl (style : TableauStyle) (rows : List Row) (ws : List Nat) :
    (∀ cs, HasRoom ws cs →
      HasRoom (rows.foldl (fun ws row => Tableau.widen ws (cells style row)) ws) cs) ∧
    ∀ row ∈ rows,
      HasRoom (rows.foldl (fun ws row => Tableau.widen ws (cells style row)) ws)
        (cells style row) := by
  induction rows generalizing ws with
  | nil => exact ⟨fun _ h => h, fun row hrow => (List.not_mem_nil hrow).elim⟩
  | cons first rows ih =>
    obtain ⟨hkept, hrows⟩ := ih (Tableau.widen ws (cells style first))
    refine ⟨fun cs h => hkept cs (h.widen (cells style first)), ?_⟩
    intro row hrow
    rcases List.mem_cons.1 hrow with rfl | hrow
    · exact hkept (cells style row) (hasRoom_widen ws (cells style row))
    · exact hrows row hrow

theorem hasRoom_headers (headers : List Text) :
    HasRoom (headers.map List.length) (headerCells headers) := by
  induction headers with
  | nil => intro p hp; cases hp
  | cons header headers ih =>
    intro p hp
    rcases List.mem_cons.1 hp with rfl | hp
    · exact Nat.le_refl header.length
    · exact ih p hp

/-- **There is room for all headers and for all cells** of the rows. -/
theorem hasRoom_columnWidths (schema : Schema) (rows : List Row) (style : TableauStyle) :
    HasRoom (columnWidths schema rows style) (headerCells (headersOf schema style)) ∧
      ∀ row ∈ rows, HasRoom (columnWidths schema rows style) (cells style row) := by
  obtain ⟨hkept, hrows⟩ := hasRoom_foldl style rows ((headersOf schema style).map List.length)
  exact ⟨hkept _ (hasRoom_headers (headersOf schema style)), hrows⟩

/-- The texts that the columns of a tableau are fitted to: its headers, and the cells below them. -/
def texts (schema : Schema) (rows : List Row) (style : TableauStyle) : List Text :=
  headersOf schema style ++ rows.flatMap fun row =>
    ((cells style row).take (headersOf schema style).length).map Cell.text

theorem forall_widen_le_iff (widths : List Nat) (cs : List Cell) (most : Nat) :
    (∀ w ∈ widen widths cs, w ≤ most) ↔
      (∀ w ∈ widths, w ≤ most) ∧ ∀ c ∈ cs.take widths.length, c.text.length ≤ most := by
  induction widths generalizing cs with
  | nil => simp [widen]
  | cons w ws ih =>
    cases cs with
    | nil => simp [widen]
    | cons c cs =>
      rw [widen, List.length_cons, List.take_succ_cons, List.forall_mem_cons, List.forall_mem_cons,
        List.forall_mem_cons, ih cs, Nat.max_le]
      exact and_and_and_comm

/-- **Columns are no wider than the longest text that they are fitted to.** -/
theorem forall_columnWidths_le_iff (schema : Schema) (rows : List Row) (style : TableauStyle)
    (most : Nat) :
    (∀ w ∈ columnWidths schema rows style, w ≤ most) ↔
      ∀ text ∈ texts schema rows style, text.length ≤ most := by
  have hfold (ws : List Nat) :
      (∀ w ∈ rows.foldl (fun ws row => widen ws (cells style row)) ws, w ≤ most) ↔
        (∀ w ∈ ws, w ≤ most) ∧
          ∀ row ∈ rows, ∀ c ∈ (cells style row).take ws.length, c.text.length ≤ most := by
    induction rows generalizing ws with
    | nil => simp
    | cons row rows ih =>
      rw [List.foldl_cons, ih, forall_widen_le_iff, length_widen, List.forall_mem_cons, and_assoc]
  rw [columnWidths, hfold, List.length_map, texts, List.forall_mem_append]
  simp only [List.forall_mem_map, List.forall_mem_flatMap]

theorem limit_le_iff (style : TableauStyle) (width most : Nat) :
    limit style width ≤ most ↔
      (∃ wide ∈ style.maxColumnWidth, max 1 wide ≤ most) ∨ width ≤ most := by
  unfold limit
  split
  · next wide hwide =>
    rw [hwide]
    simp only [Option.mem_def, Option.some.injEq, exists_eq_left', minWidth]
    omega
  · next hnone =>
    rw [hnone]
    simp

/-- **How wide a fitted tableau is**: as the limit of its style allows, or as its texts need. -/
theorem within_fitted_iff (schema : Schema) (rows : List Row) (style : TableauStyle) (most : Nat) :
    (fitted schema rows style).Within most ↔
      (∃ wide ∈ style.maxColumnWidth, max 1 wide ≤ most) ∨
        ∀ text ∈ texts schema rows style, text.length ≤ most := by
  rw [Within, fitted_eq, List.forall_mem_map, ← forall_columnWidths_le_iff]
  by_cases hlimit : ∃ wide ∈ style.maxColumnWidth, max 1 wide ≤ most
  · simp only [limit_le_iff, hlimit, true_or, implies_true]
  · simp only [limit_le_iff, hlimit, false_or]

/-! ## What is shown -/

/-- How much of a text is shown under a limit: all of it, or as many characters as the limit leaves,
with the mark of a cut at the end where there is more room than for the mark. -/
structure ShownAs (limit : Option Nat) (text shown : Text) : Prop where
  whole : (∀ most ∈ limit, text.length ≤ max 1 most) → shown = text
  cut : ∀ most ∈ limit, max 1 most < text.length →
    shown.length = max 1 most ∧
      if 3 < max 1 most then ∃ kept, kept <+: text ∧ shown = kept ++ ellipsis else shown <+: text

/-- **Only the limit of the style cuts a text** that has room in its column. -/
theorem shownAs_cut (h : text.length ≤ width) :
    ShownAs style.maxColumnWidth text (Tableau.cut (limit style width) text) := by
  obtain ⟨most?, nullAsEmpty, rowKinds⟩ := style
  cases most? with
  | none => exact ⟨fun _ => cut_of_le h, fun most hmost => by cases hmost⟩
  | some most =>
    have hlimit : limit ⟨some most, nullAsEmpty, rowKinds⟩ width = min width (max 1 most) :=
      congrArg (min width) (Nat.max_comm most 1)
    rw [hlimit]
    constructor
    · intro hwhole
      have hmost := hwhole most rfl
      exact cut_of_le (by omega)
    · intro most' hmost' hlong
      obtain rfl := Option.some.inj hmost'
      have hwidth : min width (max 1 most) = max 1 most := by omega
      rw [hwidth]
      exact cut_of_lt hlong

/-- A line with texts in it: each stands between blanks, and behind it comes a bar. -/
def Carries (line : Text) (texts : List Text) : Prop :=
  ∃ fields : List Text, line = '|' :: fields.flatten ∧
    List.Forall₂ (fun field text => ∃ before behind,
      field = List.replicate (before + 1) ' ' ++ text ++
        (List.replicate (behind + 1) ' ' ++ ['|'])) fields texts

/-- A line shows texts as a style demands. -/
def Shows (style : TableauStyle) (line : Text) (texts : List Text) : Prop :=
  ∃ shown, Carries line shown ∧ List.Forall₂ (ShownAs style.maxColumnWidth) texts shown

/-- Nothing but blanks is added to what is left of a cell. -/
theorem exists_spread_eq (width : Nat) (c : Cell) : ∃ before behind,
    spread width c = List.replicate (before + 1) ' ' ++ Tableau.cut width c.text ++
      (List.replicate (behind + 1) ' ' ++ ['|']) := by
  unfold spread fill
  by_cases hright : c.right = true
  · refine ⟨width - (Tableau.cut width c.text).length, 0, ?_⟩
    rw [if_pos hright, Text.padStart, List.replicate_succ]
    simp
  · refine ⟨0, width - (Tableau.cut width c.text).length, ?_⟩
    have hblanks (n : Nat) : List.replicate (n + 1) ' ' = List.replicate n ' ' ++ [' '] :=
      List.replicate_succ'
    rw [if_neg hright, Text.padEnd, hblanks (width - (Tableau.cut width c.text).length)]
    simp

/-- Cells that have room are shown as the style demands. -/
theorem shows_cellLine (style : TableauStyle) (hroom : HasRoom widths cs) :
    Shows style (cellLine (widths.map (limit style)) cs)
      ((cs.take widths.length).map Cell.text) := by
  refine ⟨List.zipWith (fun w c => Tableau.cut (limit style w) c.text) widths cs,
    ⟨List.zipWith spread (widths.map (limit style)) cs, rfl, ?_⟩, ?_⟩
  · induction widths generalizing cs with
    | nil => exact .nil
    | cons w ws ih =>
      cases cs with
      | nil => exact .nil
      | cons c cs =>
        exact .cons (exists_spread_eq (limit style w) c)
          (ih fun p hp => hroom p (List.mem_cons_of_mem _ hp))
  · induction widths generalizing cs with
    | nil => exact .nil
    | cons w ws ih =>
      cases cs with
      | nil => exact .nil
      | cons c cs =>
        have hfirst : c.text.length ≤ w := hroom (w, c) List.mem_cons_self
        exact .cons (shownAs_cut hfirst)
          (ih fun p hp => hroom p (List.mem_cons_of_mem _ hp))

/-! ## Tableaus -/

theorem length_headersOf (schema : Schema) (style : TableauStyle) :
    (headersOf schema style).length = (if style.rowKinds then 1 else 0) + schema.length := by
  unfold headersOf
  rw [List.length_append, List.length_map]
  by_cases hkinds : style.rowKinds = true
  · rw [if_pos hkinds, if_pos hkinds, List.length_singleton]
  · rw [if_neg hkinds, if_neg hkinds, List.length_nil]

/-- A row has a cell for every header if it has a value for every column. -/
theorem length_headersOf_le (h : schema.length ≤ row.values.length) :
    (headersOf schema style).length ≤ (cells style row).length := by
  have hcells : (cells style row).length =
      (if style.rowKinds then 1 else 0) + row.values.length := by
    unfold cells
    rw [List.length_append, List.length_map]
    by_cases hkinds : style.rowKinds = true
    · rw [if_pos hkinds, if_pos hkinds, List.length_singleton]
    · rw [if_neg hkinds, if_neg hkinds, List.length_nil]
  rw [length_headersOf, hcells]
  omega

/-- **Tableaus are aligned, and cut only what must be cut**, as far as they can be drawn.  Of rows
with a value for every column, all lines that are drawn of a fitted tableau, and of one with any
fixed width, have the same number of characters; and all are drawn exactly if no column is wider
than texts can be.  In a fitted tableau that is so exactly if the limit of the style or the texts
themselves keep the columns that narrow, and every header and every cell in a line that is drawn is
shown whole unless it is longer than the style allows, and otherwise as much of it as the style
allows. -/
theorem aligned_and_cut (schema : Schema) (style : TableauStyle) (rows : List Row)
    (hrows : ∀ row ∈ rows, schema.length ≤ row.values.length) :
    (∀ t, t = fitted schema rows style ∨ (∃ width, t = fixed schema width style) →
      (∀ line line', .ok line ∈ t.parts rows → .ok line' ∈ t.parts rows →
        line.length = line'.length) ∧
      ((∀ part ∈ t.parts rows, ∃ line, part = .ok line) ↔ t.Within maxFill)) ∧
    ((fitted schema rows style).Within maxFill ↔
      (∃ most ∈ style.maxColumnWidth, max 1 most ≤ maxFill) ∨
        ∀ text ∈ texts schema rows style, text.length ≤ maxFill) ∧
    (∀ line, (fitted schema rows style).header = .ok line →
      Shows style line (headersOf schema style)) ∧
    ∀ row ∈ rows, ∀ line, (fitted schema rows style).row row = .ok line →
      Shows style line
        (((cells style row).take (headersOf schema style).length).map Cell.text) := by
  obtain ⟨hheaders, hcells⟩ := hasRoom_columnWidths schema rows style
  have hlength := length_columnWidths schema rows style
  refine ⟨?_, within_fitted_iff schema rows style maxFill, ?_, ?_⟩
  · intro t ht
    have hparts : t.headers = headersOf schema style ∧ t.style = style ∧
        t.widths.length = t.headers.length := by
      rcases ht with rfl | ⟨width, rfl⟩
      · exact ⟨rfl, rfl, (List.length_map _).trans hlength⟩
      · exact ⟨rfl, rfl, List.length_map _⟩
    obtain ⟨hsame, hstyle, hwidths⟩ := hparts
    have hfilled : t.Filled rows := by
      refine ⟨Nat.le_of_eq hwidths, fun row hrow => ?_⟩
      rw [hwidths, hsame, hstyle]
      exact length_headersOf_le (hrows row hrow)
    refine ⟨fun line line' hline hline' => ?_, hfilled.drawn_iff_within⟩
    rw [hfilled.length_eq hline, hfilled.length_eq hline']
  · intro line hline
    have hshown := shows_cellLine style hheaders
    have htexts : (headerCells (headersOf schema style)).map Cell.text =
        headersOf schema style := by
      unfold headerCells
      rw [List.map_map]
      exact List.map_id _
    have hall : (headerCells (headersOf schema style)).take
        (columnWidths schema rows style).length = headerCells (headersOf schema style) := by
      have hcells : (headerCells (headersOf schema style)).length =
          (headersOf schema style).length := List.length_map _
      exact List.take_of_length_le (Nat.le_of_eq (hcells.trans hlength.symm))
    rw [hall, htexts] at hshown
    rw [((line_eq_ok_iff _ _ line).1 hline).2]
    exact hshown
  · intro row hrow line hline
    have hshown := shows_cellLine style (hcells row hrow)
    rw [hlength] at hshown
    rw [((line_eq_ok_iff _ _ line).1 hline).2]
    exact hshown

/-- A style with the kinds of the rows and narrow columns. -/
def narrow : TableauStyle := ⟨some 5, false, true⟩

/-- A row whose value does not fit into a narrow column. -/
def takenBack : Row := ⟨.delete, [.string "abcdefgh"]⟩

theorem aligned_and_cut_word :
    let t := fitted (.single "word") [takenBack] narrow
    t.Within maxFill ∧ t.row takenBack = .ok "| -D | ab... |" ∧
      (∀ line, t.header = .ok line → line.length = 14) ∧
      Shows narrow "| op | word  |" ["op", "word"] ∧
      Shows narrow "| -D | ab... |" ["-D", "abcdefgh"] := by
  obtain ⟨haligned, hwithin, hheader, hcells⟩ :=
    aligned_and_cut (.single "word") narrow [takenBack] (by decide)
  have hrow : (fitted (.single "word") [takenBack] narrow).row takenBack =
      .ok "| -D | ab... |" := by decide
  refine ⟨hwithin.2 (.inl ⟨5, rfl, by decide⟩), hrow, fun line hline => ?_,
    hheader _ (by decide), hcells takenBack List.mem_cons_self _ hrow⟩
  obtain ⟨hlengths, -⟩ := haligned _ (.inl rfl)
  refine hlengths line "| -D | ab... |" ?_ ?_
  · exact hline ▸ List.mem_cons_of_mem _ List.mem_cons_self
  · exact hrow ▸ List.mem_cons_of_mem _ (List.mem_cons_of_mem _ List.mem_cons_self)

/-- A value of more characters than a text can be filled up to. -/
def longValue : Row := .insert [.string (List.replicate (maxFill + 1) 'a')]

/-- The border over a column of the greatest width is not drawn at all, nor is a value that no limit
cuts and that is longer than texts can be. -/
theorem some_lines_are_not_drawn :
    (fixed (.single "v") maxWord ⟨none, false, false⟩).border = .error .sum ∧
      ∃ why, (fitted (.single "v") [longValue] .plain).row longValue = .error why := by
  refine ⟨by decide, ?_⟩
  cases hrow : (fitted (.single "v") [longValue] .plain).row longValue with
  | error why => exact ⟨why, rfl⟩
  | ok line =>
    have hwithin := ((line_eq_ok_iff_within (by decide) line).1 hrow).1
    have hlong : List.replicate (maxFill + 1) 'a' ∈ texts (.single "v") [longValue] .plain :=
      List.mem_cons_of_mem _ List.mem_cons_self
    rcases (within_fitted_iff _ _ _ _).1 hwithin with ⟨most, hmost, -⟩ | hshort
    · cases hmost
    · have hlength := hshort _ hlong
      rw [List.length_replicate] at hlength
      omega

end Tableau

end SqlConsole
