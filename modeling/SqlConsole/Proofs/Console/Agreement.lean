import SqlConsole.Proofs.Console.Stable
import SqlConsole.Session.Reader
/-!
# Consoles that agree

Where a console accepts all output, nothing depends on what was written, on what can be recalled,
or on how often the terminal was read.  Consoles agree if they differ in nothing else
(`Console.Agree`).  All work at the console keeps that (`stable_agree`), and so does reading
(`take_of_room`).
-/

namespace SqlConsole.Console

/-- What happened besides reads. -/
def events (c : Console) : List Event := c.journal.filter (· ≠ .read)

/-- Consoles that accept all output and differ only in what was written, what can be recalled, and
how often the terminal was read. -/
structure Agree (c d : Console) : Prop where
  room_left : c.sink.room = none
  room_right : d.sink.room = none
  styled : c.styled = d.styled
  lines : c.lines = d.lines
  interrupts : c.interrupts = d.interrupts
  events : c.events = d.events

theorem Agree.refl {c : Console} (h : c.sink.room = none) : Agree c c := ⟨h, h, rfl, rfl, rfl, rfl⟩

theorem Agree.symm {c d : Console} (h : Agree c d) : Agree d c :=
  ⟨h.room_right, h.room_left, h.styled.symm, h.lines.symm, h.interrupts.symm, h.events.symm⟩

theorem Agree.trans {c d e : Console} (h : Agree c d) (h' : Agree d e) : Agree c e :=
  ⟨h.room_left, h'.room_right, h.styled.trans h'.styled, h.lines.trans h'.lines,
    h.interrupts.trans h'.interrupts, h.events.trans h'.events⟩

/-- A sink without a limit accepts everything. -/
theorem put_of_room {c : Console} (h : c.sink.room = none) (t : Text) :
    c.put t = (true, { c with sink := ⟨c.sink.written ++ t, none⟩ }) := by
  simp [put, Sink.write, h]

theorem agree_put {c : Console} (h : c.sink.room = none) (t : Text) : Agree c (c.put t).2 := by
  rw [put_of_room h]
  exact ⟨h, rfl, rfl, rfl, rfl, rfl⟩

theorem stable_agree : Stable Agree where
  put h t := by
    have haccepted : ∀ {c : Console}, c.sink.room = none → (c.put t).1 = true := fun hroom => by
      rw [put_of_room hroom]
    refine ⟨(haccepted h.room_left).trans (haccepted h.room_right).symm, ?_⟩
    exact ((agree_put h.room_left t).symm.trans h).trans (agree_put h.room_right t)
  styled h := h.styled
  lines h := h.lines
  interrupts h := h.interrupts
  interrupt h _ := ⟨h.room_left, h.room_right, h.styled, h.lines, rfl, h.events⟩
  note h e _ := by
    refine ⟨h.room_left, h.room_right, h.styled, h.lines, h.interrupts, ?_⟩
    simp only [events, Console.note, List.filter_append]
    exact congrArg (· ++ _) h.events

theorem awaitLine_of_room {c : Console} (h : c.sink.room = none) (prompt kept : Text) :
    ∃ d : Console, Agree c d ∧ c.awaitLine prompt kept = (true, d) := by
  have hread : Agree c (c.note .read) :=
    ⟨h, h, rfl, rfl, rfl, by simp [events, Console.note]⟩
  unfold awaitLine
  dsimp only
  split
  · exact ⟨_, hread, rfl⟩
  · exact ⟨_, hread.trans (agree_put hread.room_right _), by rw [put_of_room hread.room_right]⟩

/-! ## Reads -/

theorem echoLine_of_room {c : Console} (h : c.sink.room = none) (prompt kept line : Text) :
    ∃ d : Console, Agree c d ∧ c.echoLine prompt kept line = (true, d) := by
  unfold echoLine
  split
  · exact ⟨_, agree_put h _, by rw [put_of_room h]⟩
  · exact ⟨c, .refl h, rfl⟩

theorem agree_remember {c : Console} (h : c.sink.room = none) (reading : Reading) :
    Agree c (c.remember reading) := by
  cases reading <;> exact ⟨h, h, rfl, rfl, rfl, rfl⟩

/-- What comes of a read where all output is accepted. -/
def outcome (isComplete : Text → Bool) (kept : Text) : TerminalRead → ReadOutcome
  | .line line => .read (Reading.addLine isComplete kept line)
  | .interrupted => .interrupted
  | .failed reason => .failed reason
  | .ended => .ended

theorem take_of_room {c : Console} (h : c.sink.room = none) (isComplete : Text → Bool)
    (prompt kept : Text) (read : TerminalRead) :
    ∃ d : Console, Agree c d ∧
      c.take isComplete prompt kept read = (outcome isComplete kept read, d) := by
  cases read with
  | line line =>
    obtain ⟨d, hd, hecho⟩ := echoLine_of_room h prompt kept line
    refine ⟨d.remember (Reading.addLine isComplete kept line), ?_, ?_⟩
    · exact hd.trans (agree_remember hd.room_right _)
    · simp only [take, hecho, outcome]
  | interrupted => exact ⟨c, .refl h, rfl⟩
  | failed reason => exact ⟨c, .refl h, rfl⟩
  | ended => exact ⟨c, .refl h, rfl⟩

end SqlConsole.Console
