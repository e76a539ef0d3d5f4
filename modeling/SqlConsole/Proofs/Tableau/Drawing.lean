import Mathlib.Data.List.Basic
import SqlConsole.Tableau
/-!
# Lines that can be drawn

A line is drawn column by column, and the first column that is too wide for it is a crash.  So a
line is drawn exactly if no column of it is too wide, and then it is the line that is meant: a
border with a dash for every character and for the two blanks (`border_eq_ok_iff`), or a line with
all its cells (`line_eq_ok_iff`).

The bounds of the two are far apart: a text is filled up to `maxFill` characters at most, while a
border has room for `maxRoom`.  So all lines of a tableau can be drawn (`Within.border_eq`,
`Within.line_eq`), or else its header cannot (`within_of_header`).
-/

namespace SqlConsole

/-- Where a step works exactly on what is admitted, and on that like a function, so do the steps
for the members of a list. -/
theorem mapM_eq_ok_iff {α β ε : Type} {f : α → Except ε β} {g : α → β} {P : α → Prop}
    (hf : ∀ a b, f a = .ok b ↔ P a ∧ b = g a) (as : List α) (bs : List β) :
    as.mapM f = .ok bs ↔ (∀ a ∈ as, P a) ∧ bs = as.map g := by
  induction as generalizing bs with
  | nil =>
    have hnone : ([] : List α).mapM f = .ok [] := rfl
    rw [hnone, Except.ok.injEq, List.map_nil]
    exact ⟨fun h => ⟨by simp, h.symm⟩, fun h => h.2.symm⟩
  | cons a as ih =>
    have hstep : (a :: as).mapM f = (f a).bind fun b => (as.mapM f).bind fun bs => .ok (b :: bs) :=
      List.mapM_cons
    rw [hstep, List.forall_mem_cons, List.map_cons]
    constructor
    · intro h
      cases hfirst : f a with
      | error e =>
        rw [hfirst] at h
        cases h
      | ok b =>
        cases hrest : as.mapM f with
        | error e =>
          rw [hfirst, hrest] at h
          cases h
        | ok rest =>
          rw [hfirst, hrest] at h
          obtain ⟨hadmitted, rfl⟩ := (hf a b).1 hfirst
          obtain ⟨hothers, rfl⟩ := (ih rest).1 hrest
          exact ⟨⟨hadmitted, hothers⟩, (Except.ok.inj h).symm⟩
    · rintro ⟨⟨hadmitted, hothers⟩, rfl⟩
      have hfirst := (hf a _).2 ⟨hadmitted, rfl⟩
      have hrest := (ih _).2 ⟨hothers, rfl⟩
      rw [hfirst, hrest]
      rfl

namespace Tableau

variable {t : Tableau} {width : Nat} {text : Text} {cs : List Cell} {rows : List Row}

/-! ## Parts of lines -/

/-- A cell between two blanks, and a bar behind it. -/
def spread (width : Nat) (c : Cell) : Text := [' '] ++ fill width c ++ [' ', '|']

/-- A line with all its cells. -/
def cellLine (widths : List Nat) (cs : List Cell) : Text :=
  '|' :: (List.zipWith spread widths cs).flatten

/-- A border as it is meant: above each column a dash for every character and for the two blanks. -/
def ruled (widths : List Nat) : Text :=
  '+' :: widths.flatMap fun w => List.replicate (w + 2) '-' ++ ['+']

theorem field_eq_ok_iff (width : Nat) (c : Cell) (text : Text) :
    field width c = .ok text ↔ width ≤ maxFill ∧ text = spread width c := by
  unfold field
  by_cases hwide : maxFill < width
  · rw [if_pos hwide]
    exact iff_of_false (by simp) fun h => by omega
  · rw [if_neg hwide, Except.ok.injEq]
    exact ⟨fun h => ⟨by omega, h.symm⟩, fun h => h.2.symm⟩

theorem dashes_eq_ok_iff (width : Nat) (text : Text) :
    dashes width = .ok text ↔ width + 2 ≤ maxRoom ∧ text = List.replicate (width + 2) '-' := by
  have hroom : maxRoom < maxWord := by decide
  unfold dashes
  by_cases hsum : maxWord < width + 2
  · rw [if_pos hsum]
    exact iff_of_false (by simp) fun h => by omega
  · by_cases hlarge : maxRoom < width + 2
    · rw [if_neg hsum, if_pos hlarge]
      exact iff_of_false (by simp) fun h => by omega
    · rw [if_neg hsum, if_neg hlarge, Except.ok.injEq]
      exact ⟨fun h => ⟨by omega, h.symm⟩, fun h => h.2.symm⟩

/-! ## Lines -/

/-- **A border is drawn exactly if there is room for the dashes of every column.** -/
theorem border_eq_ok_iff (t : Tableau) (text : Text) :
    t.border = .ok text ↔ (∀ w ∈ t.widths, w + 2 ≤ maxRoom) ∧ text = ruled t.widths := by
  have hborder : t.border = (t.widths.mapM dashes).bind fun parts =>
    .ok ('+' :: parts.flatMap (· ++ ['+'])) := rfl
  have hparts := mapM_eq_ok_iff dashes_eq_ok_iff t.widths
  rw [hborder]
  constructor
  · intro h
    cases hdrawn : t.widths.mapM dashes with
    | error why =>
      rw [hdrawn] at h
      cases h
    | ok parts =>
      rw [hdrawn] at h
      obtain ⟨hroom, rfl⟩ := (hparts parts).1 hdrawn
      obtain rfl := Except.ok.inj h
      exact ⟨hroom, by rw [ruled, List.flatMap_map]⟩
  · rintro ⟨hroom, rfl⟩
    rw [(hparts _).2 ⟨hroom, rfl⟩, Except.bind, List.flatMap_map, ruled]

/-- **A line of cells is drawn exactly if no column with a cell is wider than texts can be.** -/
theorem line_eq_ok_iff (t : Tableau) (cs : List Cell) (text : Text) :
    t.line cs = .ok text ↔
      (∀ p ∈ t.widths.zip cs, p.1 ≤ maxFill) ∧ text = cellLine t.widths cs := by
  have hline : t.line cs = ((t.widths.zip cs).mapM fun p => field p.1 p.2).bind fun fields =>
    .ok ('|' :: fields.flatten) := rfl
  have hfields := mapM_eq_ok_iff (f := fun p : Nat × Cell => field p.1 p.2)
    (fun p text => field_eq_ok_iff p.1 p.2 text) (t.widths.zip cs)
  have hspread : (t.widths.zip cs).map (fun p => spread p.1 p.2) =
      List.zipWith spread t.widths cs := List.map_zip_eq_zipWith
  rw [hline]
  constructor
  · intro h
    cases hdrawn : (t.widths.zip cs).mapM fun p => field p.1 p.2 with
    | error why =>
      rw [hdrawn] at h
      cases h
    | ok fields =>
      rw [hdrawn] at h
      obtain ⟨hfill, rfl⟩ := (hfields fields).1 hdrawn
      obtain rfl := Except.ok.inj h
      exact ⟨hfill, by rw [cellLine, hspread]⟩
  · rintro ⟨hfill, rfl⟩
    rw [(hfields _).2 ⟨hfill, rfl⟩, cellLine, ← hspread]
    rfl

/-- No column is wider than a bound. -/
def Within (t : Tableau) (most : Nat) : Prop := ∀ w ∈ t.widths, w ≤ most

/-- A line with a cell in every column is drawn exactly if no column is wider than texts can be. -/
theorem line_eq_ok_iff_within (h : t.widths.length ≤ cs.length) (text : Text) :
    t.line cs = .ok text ↔ t.Within maxFill ∧ text = cellLine t.widths cs := by
  have hcolumns : (∀ p ∈ t.widths.zip cs, p.1 ≤ maxFill) ↔ t.Within maxFill := by
    have hwidths : t.widths = (t.widths.zip cs).map Prod.fst := (List.map_fst_zip h).symm
    constructor
    · intro hfill w hw
      rw [hwidths] at hw
      obtain ⟨p, hp, rfl⟩ := List.mem_map.1 hw
      exact hfill p hp
    · exact fun hwithin p hp => hwithin p.1 (List.of_mem_zip hp).1
  rw [line_eq_ok_iff, hcolumns]

/-- Where lines of cells can be drawn, a border can be drawn as well. -/
theorem Within.border_eq (h : t.Within maxFill) : t.border = .ok (ruled t.widths) := by
  have hbounds : maxFill + 2 ≤ maxRoom := by decide
  refine (border_eq_ok_iff t _).2 ⟨fun w hw => ?_, rfl⟩
  have hfill := h w hw
  omega

theorem Within.line_eq (h : t.Within maxFill) (cs : List Cell) :
    t.line cs = .ok (cellLine t.widths cs) :=
  (line_eq_ok_iff t cs _).2 ⟨fun _ hp => h _ (List.of_mem_zip hp).1, rfl⟩

theorem Within.not_mem_rows (h : t.Within maxFill) (rows : List Row) (why : Crash) :
    .error why ∉ rows.map t.row := by
  intro hmem
  obtain ⟨row, -, hrow⟩ := List.mem_map.1 hmem
  have hdrawn : t.row row = .ok _ := h.line_eq _
  rw [hdrawn] at hrow
  cases hrow

/-- A tableau that is narrow enough has no line that cannot be drawn. -/
theorem Within.not_mem_lines (h : t.Within maxFill) (rows : List Row) (why : Crash) :
    .error why ∉ t.lines rows := by
  have hborder := h.border_eq
  have hheader : t.header = .ok _ := h.line_eq _
  have hrows := h.not_mem_rows rows why
  unfold lines
  rw [hborder, hheader]
  split <;> simp [hrows]

/-- No column is too wide where a header over all of them is drawn. -/
theorem within_of_header (hheaders : t.widths.length ≤ t.headers.length)
    (h : t.header = .ok text) : t.Within maxFill := by
  have hcells : t.widths.length ≤ (t.headers.map fun h => (⟨h, false⟩ : Cell)).length := by
    rwa [List.length_map]
  exact ((line_eq_ok_iff_within hcells text).1 h).1

end Tableau

end SqlConsole
