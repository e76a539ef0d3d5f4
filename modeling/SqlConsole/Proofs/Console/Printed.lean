import SqlConsole.Proofs.Console.Agreement
import SqlConsole.Proofs.Gateway.Delivery
/-!
# What a result looks like

A view that has its rows draws the lines of its tableau, behind a title or not (`prints_table`,
`prints_tableau`).  What is printed is said without the sink it goes to: where a line is refused or
cannot be drawn, it is refused or not drawn as if the lines had been drawn alone.
-/

namespace SqlConsole

open Console

/-- A program that, as far as its answer and the sink go, draws some lines one after the other. -/
def Prints (m : ConsoleM Unit) (c : Console) (lines : List (Except Crash Text)) : Prop :=
  (m c).1 = ((lines.forM draw : ConsoleM Unit) c).1 ∧
    (m c).2.sink = ((lines.forM draw : ConsoleM Unit) c).2.sink

variable {m : ConsoleM Unit} {c d : Console} {texts : List Text}
  {lines : List (Except Crash Text)}

theorem forM_draw_ok (text : Text) (lines : List (Except Crash Text)) (c : Console) :
    ((.ok text :: lines).forM draw : ConsoleM Unit) c =
      if (c.put (text ++ ['\n'])).1 then
        (lines.forM draw : ConsoleM Unit) (c.put (text ++ ['\n'])).2
      else (.error full, (c.put (text ++ ['\n'])).2) := by
  have hbind : ((.ok text :: lines).forM draw : ConsoleM Unit) =
    write (text ++ ['\n']) >>= fun _ => lines.forM draw := rfl
  rw [hbind, Respects.run_bind, write_apply]
  cases (c.put (text ++ ['\n'])).1 <;> rfl

theorem forM_draw_error (why : Crash) (lines : List (Except Crash Text)) (c : Console) :
    ((.error why :: lines).forM draw : ConsoleM Unit) c = (.error (.crash why), c) := rfl

/-- Whether a text is accepted, and what is written of it, depends on the sink alone. -/
theorem put_congr (h : c.sink = d.sink) (text : Text) :
    (c.put text).1 = (d.put text).1 ∧ (c.put text).2.sink = (d.put text).2.sink := by
  have hsink (e : Console) : (e.put text).2.sink = (e.sink.write text).2 := by
    unfold put note
    dsimp only
    split <;> rfl
  rw [hsink, hsink, ← h]
  exact ⟨congrArg (fun s => (Sink.write text s).1) h, rfl⟩

theorem forM_draw_congr (h : c.sink = d.sink) (lines : List (Except Crash Text)) :
    ((lines.forM draw : ConsoleM Unit) c).1 = ((lines.forM draw : ConsoleM Unit) d).1 ∧
      ((lines.forM draw : ConsoleM Unit) c).2.sink =
        ((lines.forM draw : ConsoleM Unit) d).2.sink := by
  induction lines generalizing c d with
  | nil => exact ⟨rfl, h⟩
  | cons line lines ih =>
    cases line with
    | error why => exact ⟨rfl, h⟩
    | ok text =>
      obtain ⟨haccepted, hsink⟩ := put_congr h (text ++ ['\n'])
      rw [forM_draw_ok, forM_draw_ok, ← haccepted]
      split
      · exact ih hsink
      · exact ⟨rfl, hsink⟩

/-- Lines as they stand in the output. -/
def asText (texts : List Text) : Text := texts.flatMap (· ++ ['\n'])

/-- A sink without a limit has all the lines in the end, if they can be drawn. -/
theorem Prints.written (h : Prints m c (texts.map .ok)) (hroom : c.sink.room = none) :
    (m c).1 = .ok () ∧ (m c).2.sink.written = c.sink.written ++ asText texts := by
  rw [h.1, h.2]
  clear h
  induction texts generalizing c with
  | nil => exact ⟨rfl, (List.append_nil _).symm⟩
  | cons text texts ih =>
    have hrest := ih (c := { c with sink := ⟨c.sink.written ++ (text ++ ['\n']), none⟩ }) rfl
    have hfirst : c.sink.written ++ asText (text :: texts) =
        c.sink.written ++ (text ++ ['\n']) ++ asText texts := (List.append_assoc _ _ _).symm
    rw [List.map_cons, forM_draw_ok, put_of_room hroom, if_pos rfl, hfirst]
    exact hrest

namespace View

variable {s : RowSource} {t : Descriptor} {token : CancelToken} {rows : List Row}

/-- All rows are fetched where they can be collected, and the sink is left alone. -/
theorem fetchAll_of_collect (h : (s.collect token c.interrupts).1 = .ok rows) :
    ∃ d, fetchAll token s c = (.ok ⟨rows, false⟩, d) ∧ d.sink = c.sink := by
  induction hsize : s.size using Nat.strongRecOn generalizing s c rows with
  | _ n ih =>
    rcases hfetch : s.fetch token c.interrupts with ⟨e | _ | batch, next, i⟩
    · rw [RowSource.collect_of_fetch_error hfetch] at h
      cases h
    · rw [RowSource.collect_of_fetch_none hfetch] at h
      cases h
      have hfetched : c.fetch token s =
          (.ok none, next, { c with interrupts := i }.note (.fetched false)) :=
        fetch_of_eq hfetch
      rw [fetchAll_apply, hfetched]
      exact ⟨_, rfl, rfl⟩
    · have hfetched : c.fetch token s =
          (.ok (some batch), next, { c with interrupts := i }.note (.fetched true)) :=
        fetch_of_eq hfetch
      rw [RowSource.collect_of_fetch hfetch] at h
      cases hrest : (next.collect token i).1 with
      | error e =>
        rw [hrest] at h
        cases h
      | ok later =>
        rw [hrest] at h
        obtain rfl := Except.ok.inj h
        obtain ⟨d, hd, hsink⟩ := ih _ (hsize ▸ RowSource.size_fetch_lt hfetch)
          (c := { c with interrupts := i }.note (.fetched true)) hrest rfl
        rw [fetchAll_apply, hfetched]
        refine ⟨d, ?_, hsink⟩
        exact (Respects.run_bind _ _ _).trans (by rw [hd]; rfl)

/-- The lines of a tableau that is as wide as its rows, up to a width. -/
def boundedLines (schema : Schema) (width : Nat) (rows : List Row) : List (Except Crash Text) :=
  (Tableau.fitted schema rows (.result width false)).lines rows

def tableTitle : Text := "SQL Query Result (Table)"

/-- What a view prints does not depend on the journal. -/
theorem prints_present {mode : ResultMode} (hd : d.sink = c.sink)
    (hbody : body mode t token (c.note (.opened mode)) = (lines.forM draw : ConsoleM Unit) d) :
    Prints (present mode t token) c lines := by
  obtain ⟨hanswer, hsink⟩ := forM_draw_congr hd lines
  have hpresent : present mode t token c = ((body mode t token (c.note (.opened mode))).1,
      (body mode t token (c.note (.opened mode))).2.note .closed) := rfl
  rw [Prints, hpresent, hbody]
  exact ⟨hanswer, hsink⟩

/-- **A table shows what is left of the rows** behind its title. -/
theorem prints_table (h : (t.source.collect token c.interrupts).1 = .ok rows) :
    Prints (present .table t token) c
      (.ok tableTitle ::
        boundedLines t.schema t.maxColumnWidth (Changelog.materialize rows)) := by
  obtain ⟨d, hfetched, hsink⟩ := fetchAll_of_collect (c := c.note (.opened .table)) h
  refine prints_present hsink ?_
  show table t token _ = (writeLine tableTitle >>= fun _ => (boundedLines _ _ _).forM draw) d
  rw [table, Respects.run_bind, hfetched]
  rfl

/-- A bounded tableau shows the rows. -/
theorem prints_tableau (hbounded : t.streaming = false)
    (h : (t.source.collect token c.interrupts).1 = .ok rows) :
    Prints (present .tableau t token) c (boundedLines t.schema t.maxColumnWidth rows) := by
  obtain ⟨d, hfetched, hsink⟩ := fetchAll_of_collect (c := c.note (.opened .tableau)) h
  refine prints_present hsink ?_
  have hbody : body .tableau t token = tableau t token := by
    rw [body, if_neg (by rw [hbounded]; exact Bool.false_ne_true)]
  rw [hbody, tableau, Respects.run_bind, hfetched]
  rfl

end View

end SqlConsole
