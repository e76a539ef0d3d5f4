import SqlConsole.Proofs.Script.Complete
import SqlConsole.Proofs.Session.Batches
import SqlConsole.Proofs.Session.Fold
import SqlConsole.Proofs.Token.LineEnds
/-!
# What a script that succeeds has run

A script that ends with success and without `QUIT` has parsed and dispatched every statement that
was read of it, one after the other and none with an error (`accomplished_of_performAll`).  That is
not yet the whole script: the lines that are still kept when the input is over are given up without
a word.  Where no line drops an open comment, the script was run as a whole exactly if nothing is
kept in the end, no modification still waits in a statement set, and no quoted text goes on behind
a line end that was changed by reading (`runsWhole_iff`).
-/

namespace SqlConsole.Session

open Piece Script

/-! ## Statements that are accomplished -/

/-- Whether a statement holds no operation. -/
def asksNothing (statement : Text) : Bool :=
  match Statement.parse (Text.trim statement) with
  | .ok none => true
  | _ => false

theorem asksNothing_iff {statement : Text} :
    asksNothing statement ↔ Statement.parse (Text.trim statement) = .ok none := by
  unfold asksNothing
  split
  · next h => simp [h]
  · next h => simpa using h

/-- The statements that ask for an operation, or cannot be parsed. -/
def requests (statements : List Text) : List Text := statements.filter (!asksNothing ·)

theorem requests_cons (statement : Text) (statements : List Text) :
    requests (statement :: statements) =
      if asksNothing statement then requests statements else statement :: requests statements := by
  rw [requests, List.filter_cons]
  cases asksNothing statement <;> rfl

section

variable {σ φ : Type} [ResultSource φ] [Gateway.Over σ φ]

/-- Every statement is parsed and dispatched without an error, one after the other. -/
inductive Accomplished : List Text → Session σ → Session σ → Prop
  | nil (s : Session σ) : Accomplished [] s s
  | cons {statement : Text} {op : Operation} {statements : List Text} {s t u : Session σ}
      (parsed : Statement.parse (Text.trim statement) = .ok (some op))
      (dispatched : dispatchInterruptibly op s = (.ok (), t))
      (rest : Accomplished statements t u) : Accomplished (statement :: statements) s u

/-- A console that has noted an event, and accepts all output. -/
def Noted (e : Event) (c d : Console) : Prop := c = d ∧ c.sink.room = none ∧ e ∈ c.journal

theorem stable_noted (e : Event) : Console.Stable (Noted e) where
  put := by
    rintro c _ ⟨rfl, hroom, hmem⟩ t
    rw [Console.put_of_room hroom]
    exact ⟨rfl, rfl, rfl, hmem⟩
  styled h := congrArg _ h.1
  lines h := congrArg _ h.1
  interrupts h := congrArg _ h.1
  interrupt := by
    rintro c _ ⟨rfl, hroom, hmem⟩ i
    exact ⟨rfl, hroom, hmem⟩
  note := by
    rintro c _ ⟨rfl, hroom, hmem⟩ event -
    exact ⟨rfl, hroom, List.mem_append_left _ hmem⟩

/-- A statement is dispatched with other interrupts, and leaves others behind. -/
theorem exists_dispatch (op : Operation) (s : Session σ) : ∃ token i j,
    dispatchInterruptibly op s =
      ((dispatch op token (s.withInterrupts i)).1,
        (dispatch op token (s.withInterrupts i)).2.withInterrupts j) :=
  ⟨_, _, _, dispatchInterruptibly_apply op s⟩

theorem dispatchInterruptibly_room {s : Session σ} (h : s.console.sink.room = none)
    (op : Operation) : (dispatchInterruptibly op s).2.console.sink.room = none := by
  obtain ⟨token, i, j, hdispatch⟩ := exists_dispatch op s
  have hroom : (s.withInterrupts i).console.sink.room = none := h
  rw [hdispatch]
  exact (dispatch_room hroom op token).1

/-- `QUIT` is in the journal, whatever comes of it. -/
theorem quit_mem_journal {s : Session σ} (h : s.console.sink.room = none) :
    .dispatched .quit ∈ (dispatchInterruptibly .quit s).2.console.journal := by
  obtain ⟨token, i, j, hdispatch⟩ := exists_dispatch .quit s
  rw [hdispatch]
  show .dispatched .quit ∈ (dispatch .quit token (s.withInterrupts i)).2.console.journal
  rw [dispatch_apply]
  have hnoted : Alike (Noted (.dispatched .quit)) (fun _ _ _ => True)
      { s.withInterrupts i with console := (s.withInterrupts i).console.note (.dispatched .quit) }
      { s.withInterrupts i with
        console := (s.withInterrupts i).console.note (.dispatched .quit) } :=
    ⟨⟨rfl, h, by simp [Console.note]⟩, rfl, rfl, rfl, rfl, trivial⟩
  dsimp only
  split
  · exact hnoted.console.2.2
  · obtain ⟨-, -, hleft⟩ :=
      respects_quit (stable_noted (.dispatched .quit)) (fun _ _ _ _ _ => trivial) _ _ hnoted
    exact hleft.console.2.2

/-- What comes of a statement where the first failure ends the session. -/
theorem performStatement_cases (statement : Text) (s : Session σ) :
    Statement.parse (Text.trim statement) = .ok none ∧
        performStatement .nonInteractive statement s = (none, s) ∨
      (∃ op t, Statement.parse (Text.trim statement) = .ok (some op) ∧
        dispatchInterruptibly op s = (.ok (), t) ∧
        performStatement .nonInteractive statement s =
          (if op = .quit then some .success else none, t)) ∨
      ∃ outcome t, outcome ≠ .success ∧
        performStatement .nonInteractive statement s = (some outcome, t) := by
  have hfailed (f : Failure) : verdictOn .nonInteractive f = some .failure := by
    simp [verdictOn, Mode.exitsOnFailure]
  rw [performStatement_eq]
  cases Statement.parse (Text.trim statement) with
  | error fault => exact .inr (.inr ⟨.failure, s, nofun, by simp only [hfailed]⟩)
  | ok found =>
    cases found with
    | none => exact .inl ⟨rfl, rfl⟩
    | some op =>
      obtain ⟨answer, t, hdispatch⟩ : ∃ answer t, dispatchInterruptibly op s = (answer, t) :=
        ⟨_, _, rfl⟩
      simp only [hdispatch]
      cases answer with
      | ok _ => exact .inr (.inl ⟨op, t, rfl, hdispatch, rfl⟩)
      | error stop =>
        cases stop with
        | failure f => exact .inr (.inr ⟨.failure, t, nofun, by simp only [hfailed]⟩)
        | crash why => exact .inr (.inr ⟨.crash why, t, nofun, rfl⟩)

/-- **A script that succeeds has accomplished what was read of it.** -/
theorem accomplished_of_performAll {statements : List Text} {s : Session σ}
    (h : s.console.sink.room = none)
    (hsuccess : (performAll .nonInteractive statements s).1 = .success)
    (hquit : .dispatched .quit ∉ (performAll .nonInteractive statements s).2.console.journal) :
    Accomplished (requests statements) s (performAll .nonInteractive statements s).2 := by
  induction statements generalizing s with
  | nil => exact .nil s
  | cons statement statements ih =>
    rw [performAll] at hsuccess hquit ⊢
    rcases performStatement_cases statement s with ⟨hparse, hperform⟩ |
      ⟨op, t, hparse, hdispatch, hperform⟩ | ⟨outcome, t, hfailed, hperform⟩
    · have hskip : requests (statement :: statements) = requests statements := by
        rw [requests_cons, if_pos (asksNothing_iff.2 hparse)]
      rw [hperform] at hsuccess hquit ⊢
      rw [hskip]
      exact ih h hsuccess hquit
    · have hasks : ¬ asksNothing statement := fun hnothing => by
        rw [asksNothing_iff.1 hnothing] at hparse
        cases hparse
      have hkeep : requests (statement :: statements) = statement :: requests statements := by
        rw [requests_cons, if_neg hasks]
      have hroom : t.console.sink.room = none := by
        have hleft := dispatchInterruptibly_room h op
        rwa [hdispatch] at hleft
      rw [hperform] at hsuccess hquit ⊢
      by_cases hop : op = .quit
      · subst hop
        have hmem := quit_mem_journal h
        rw [hdispatch] at hmem
        exact (hquit hmem).elim
      · rw [if_neg hop] at hsuccess hquit ⊢
        rw [hkeep]
        exact .cons hparse hdispatch (ih hroom hsuccess hquit)
    · rw [hperform] at hsuccess
      exact (hfailed hsuccess).elim

/-- The loop does with lines what is done with the statements that are read of them, one after the
other. -/
theorem runLines_follows {s t : Session σ} {mode : Mode}
    (hst : Alike Console.Agree (Known mode true) s t) (script : Text) :
    Follows (runLines .standard script s)
      (performAll mode (t.console.readLines Message.prompt [] (Text.lines script)).1 t) := by
  have hread : (t.console.readLines Message.prompt [] (Text.lines script)).1 =
      statementsRead [] ((Text.lines script).map .line) :=
    congrArg Prod.fst (Console.readAll_congr _ _ hst.console.room_right rfl [] _)
  have hnone : ∀ q ∈ ([] : List Text), Text.trim q = q := fun q hq => by cases hq
  rw [hread]
  exact proceed_follows (loopFollows _) hnone hst

omit [ResultSource φ] [Gateway.Over σ φ] in
/-- A session that begins agrees with itself. -/
theorem alike_start (g : σ) {console : Console} (h : console.sink.room = none) (mode : Mode) :
    Alike Console.Agree (Known mode true) (start g console mode) (start g console mode) :=
  ⟨.refl h, rfl, rfl, rfl, rfl, rfl, rfl⟩

/-- So it is with the content of a file. -/
theorem runFile_follows (g : σ) {console : Console} (h : console.sink.room = none) (mode : Mode)
    (content : Text) :
    Follows (runFile .standard content (start g console mode))
      (performAll mode
        (console.readLines Message.prompt [] (Text.lines (formatFile content))).1
        (start g console mode)) := by
  obtain ⟨d, hd, hput⟩ : ∃ d, Console.Agree console d ∧
      console.put (Message.info false Message.executingFile ++ ['\n']) = (true, d) :=
    ⟨_, Console.agree_put h _, by rw [Console.put_of_room h]⟩
  have hrun : runFile .standard content (start g console mode) =
      runLines .standard (formatFile content) (start g d mode) := by
    unfold runFile
    rw [show (start g console mode).console = console from rfl, hput]
    rfl
  rw [hrun]
  exact runLines_follows ((alike_start g h mode).replace hd) (formatFile content)

end

/-! ## What is read of a script -/

/-- A statement without an operation holds nothing but terminators. -/
theorem substance_of_parse_eq_none {t : Text} (h : Statement.parse (Text.trim t) = .ok none) :
    substance t = [] := by
  obtain ⟨lexed, hlexed, hend⟩ := Statement.atEnd_of_parse_eq_none h
  obtain ⟨-, htokens⟩ := Lexed.closed_of_ofText hlexed
  rw [tokens_trim] at htokens
  rw [substance, ← htokens]
  cases hleft : lexed.tokens with
  | nil => rfl
  | cons last rest =>
    rw [hleft] at hend
    cases rest with
    | nil =>
      have hlast : last.token = .symbol ';' := beq_iff_eq.1 hend
      simp [hlast]
    | cons second rest => cases hend

theorem flatMap_substance_requests (statements : List Text) :
    (requests statements).flatMap substance = statements.flatMap substance := by
  induction statements with
  | nil => rfl
  | cons t statements ih =>
    rw [requests_cons]
    by_cases hnothing : asksNothing t
    · rw [if_pos hnothing, List.flatMap_cons, ih,
        substance_of_parse_eq_none (asksNothing_iff.1 hnothing)]
      rfl
    · rw [if_neg hnothing, List.flatMap_cons, List.flatMap_cons, ih]

/-- The lines that are kept in the end are none, or not complete. -/
theorem incomplete_of_readLines {console : Console} (h : console.sink.room = none)
    {prompt kept : Text} (hkept : kept = [] ∨ split kept ≠ [] ∧ isComplete kept = false)
    (lines : List Text) :
    (console.readLines prompt kept lines).2 = [] ∨
      split (console.readLines prompt kept lines).2 ≠ [] ∧
        isComplete (console.readLines prompt kept lines).2 = false := by
  induction lines generalizing kept with
  | nil => exact hkept
  | cons line lines ih =>
    rw [Console.readLines_cons h]
    refine ih ?_
    unfold Reading.addLine
    dsimp only
    split
    · exact .inl rfl
    · next first others hsplit =>
      split
      · exact .inl rfl
      · next hincomplete =>
        have hne : split (kept ++ line ++ ['\n']) ≠ [] := by
          rw [hsplit]
          exact List.cons_ne_nil first others
        exact .inr ⟨hne, Bool.eq_false_iff.2 hincomplete⟩

/-- No quoted text of a text goes on behind a carriage return and a line feed. -/
def KeepsReturns (t : Text) : Prop := ∀ k ∈ tokens t, k.dropReturns = k

/-- What is read of a script is what it holds, if nothing is kept in the end. -/
theorem substance_readLines {console : Console} (h : console.sink.room = none) {content : Text}
    (hkeeps : Console.KeepsComments Message.prompt [] (Text.lines (formatFile content)) console) :
    let read := console.readLines Message.prompt [] (Text.lines (formatFile content))
    (substance content).map Token.dropReturns = read.1.flatMap substance ++ substance read.2 ∧
      fault? content = fault? read.2 := by
  intro read
  obtain ⟨body, hbody⟩ : ∃ body, formatFile content = body ++ ['\n'] := ⟨_, rfl⟩
  obtain ⟨htokens, hfault, -⟩ := Console.tokens_readLines h hkeeps []
  obtain ⟨hlines, hlines'⟩ := tokens_dropReturns (formatFile content)
  obtain ⟨hformat, hformat'⟩ := substance_formatFile content
  have htext :
      unlines (Text.lines (formatFile content)) = Text.dropReturns (formatFile content) := by
    rw [hbody, Text.unlines_lines]
  rw [List.nil_append, List.append_nil, List.append_nil, htext] at htokens hfault
  have hterminator : ∀ k : Token, k.dropReturns = .symbol ';' ↔ k = .symbol ';' := by
    intro k
    cases k <;> simp [Token.dropReturns]
  constructor
  · have hmap : (substance (formatFile content)).map Token.dropReturns =
        ((tokens (formatFile content)).map Token.dropReturns).filter (· ≠ .symbol ';') := by
      rw [substance, List.filter_map]
      congr 1
      refine List.filter_congr fun k _ => ?_
      simp [hterminator]
    rw [← hformat, hmap, ← hlines, htokens, List.filter_append, List.filter_flatMap]
    rfl
  · rw [← hformat', ← hlines', hfault]

/-! ## Whole runs -/

/-- A script was run as a whole, by statements that were done: nothing is left open in it, its
tokens besides terminators are those of the statements in their order, and no modification waits to
be submitted. -/
structure RunsWhole {σ : Type} (content : Text) (done : List Text) (last : Session σ) : Prop where
  covered : ∃ ks, Lexed.kinds? content = some ks ∧
    ks.filter (· ≠ .symbol ';') = done.flatMap substance
  submitted : last.statementSet.pending = []

/-- **What a script that succeeds has run.**  A script that ends with success and without `QUIT` has
accomplished every statement that was read of it.  If its lines drop no open comment, then it was run
as a whole exactly if no lines are kept in the end, no line end inside of quotes was changed, and no
modification waits in a statement set. -/
theorem runsWhole_iff {σ φ : Type} [ResultSource φ] [Gateway.Over σ φ] (g : σ)
    {console : Console} (h : console.sink.room = none) (content : Text)
    (hsuccess :
      (runFile .standard content (start g console .nonInteractive)).outcome = .success)
    (hquit : .dispatched .quit ∉
      (runFile .standard content (start g console .nonInteractive)).session.console.journal) :
    let last := (runFile .standard content (start g console .nonInteractive)).session
    let lines := Text.lines (formatFile content)
    let read := console.readLines Message.prompt [] lines
    (∃ s, Accomplished (requests read.1) (start g console .nonInteractive) s ∧
        last.gateway = s.gateway ∧ last.statementSet = s.statementSet ∧
        last.console.events = s.console.events) ∧
      (Console.KeepsComments Message.prompt [] lines console →
        (RunsWhole content (requests read.1) last ↔
          read.2 = [] ∧ KeepsReturns content ∧ last.statementSet.pending = [])) := by
  intro last lines read
  obtain ⟨hperformed, hleft⟩ := runFile_follows g h .nonInteractive content
  have hjournal : ∀ c : Console, .dispatched .quit ∈ c.journal ↔ .dispatched .quit ∈ c.events := by
    intro c
    simp [Console.events]
  constructor
  · refine ⟨_, accomplished_of_performAll h (hperformed ▸ hsuccess) ?_, hleft.gateway,
      hleft.statementSet, hleft.console.events⟩
    rw [hjournal] at hquit ⊢
    rwa [← hleft.console.events]
  · intro hkeeps
    obtain ⟨hsubstance, hfault⟩ := substance_readLines h hkeeps
    constructor
    · rintro ⟨⟨ks, hks, hcovered⟩, hsubmitted⟩
      obtain ⟨hclosed, rfl⟩ := Lexed.kinds?_eq_some_iff.1 hks
      have hcovered : substance content = read.1.flatMap substance := by
        rw [← flatMap_substance_requests]
        exact hcovered
      have hlength : (substance content).length =
          (read.1.flatMap substance).length + (substance read.2).length := by
        rw [← List.length_append, ← hsubstance, List.length_map]
      have hnothing : substance read.2 = [] := by
        rw [← List.length_eq_zero_iff]
        rw [hcovered] at hlength
        omega
      refine ⟨?_, ?_, hsubmitted⟩
      · rcases incomplete_of_readLines h (.inl rfl) lines with hnone | ⟨hsplit, hincomplete⟩
        · exact hnone
        · have hkept : Closed read.2 := by rw [closed_iff, ← hfault, ← closed_iff]; exact hclosed
          have hcomplete := isComplete_of_terminators hkept hnothing hsplit
          rw [hincomplete] at hcomplete
          cases hcomplete
      · intro k hk
        by_cases hterminator : k = .symbol ';'
        · rw [hterminator]
          rfl
        · have hmem : k ∈ substance content := List.mem_filter.2 ⟨hk, by simpa using hterminator⟩
          rw [hnothing, List.append_nil, ← hcovered] at hsubstance
          exact List.map_inj_left.1 (hsubstance.trans (List.map_id _).symm) k hmem
    · rintro ⟨hnone, hreturns, hsubmitted⟩
      refine ⟨⟨tokens content, Lexed.kinds?_eq_some_iff.2 ⟨?_, rfl⟩, ?_⟩, hsubmitted⟩
      · rw [closed_iff, hfault, hnone, fault?_nil]
      · have hsame : (substance content).map Token.dropReturns = substance content :=
          (List.map_inj_left.2 fun k hk => hreturns k (List.mem_filter.1 hk).1).trans
            (List.map_id _)
        have hrest : substance read.2 = [] := by
          rw [hnone, substance, tokens_nil]
          rfl
        rw [hsame, hrest, List.append_nil] at hsubstance
        rw [flatMap_substance_requests]
        exact hsubstance

/-- A script whose last statement is not terminated, in front of a comment. -/
def openTail : Text := "INSERT INTO a SELECT 1; /* b */ INSERT INTO b SELECT 2"

theorem runsWhole_openTail :
    let first := start keeping (.ofSink .unlimited false .transcript) .nonInteractive
    let last := (runFile .standard openTail first).session
    let lines := Text.lines (formatFile openTail)
    let read := first.console.readLines Message.prompt [] lines
    first.console.sink.room = none ∧ (runFile .standard openTail first).outcome = .success ∧
      .dispatched .quit ∉ last.console.journal ∧
      (∃ s, Accomplished (requests read.1) first s ∧ last.gateway = s.gateway ∧
        last.statementSet = s.statementSet ∧ last.console.events = s.console.events) ∧
      RunsWhole openTail (requests read.1) last := by
  intro first last lines read
  have hsuccess : (runFile .standard openTail first).outcome = .success := by decide +kernel
  have hquit : .dispatched .quit ∉ last.console.journal := by decide +kernel
  obtain ⟨hdone, hwhole⟩ := runsWhole_iff keeping rfl openTail hsuccess hquit
  have hline : lines = [openTail ++ [';']] := by
    decide +kernel
  have hkeeps : Console.KeepsComments Message.prompt [] lines first.console := by
    rw [hline]
    refine (Console.keepsComments_cons rfl).2 ⟨fun hdrop => ?_, fun before line behind heq => ?_⟩
    · exact absurd hdrop.1 (by decide +kernel)
    · simp at heq
  refine ⟨rfl, hsuccess, hquit, hdone, (hwhole hkeeps).2 ⟨?_, ?_, ?_⟩⟩
  · decide +kernel
  · show ∀ k ∈ tokens openTail, k.dropReturns = k
    decide +kernel
  · decide +kernel

/-- A script whose only statement ends in a comment, which takes the added terminator with it. -/
def commentedTail : Text := "INSERT INTO a SELECT 1 -- last"

/-- The script ends with success, and nothing of it was dispatched. -/
theorem commentedTail_is_dropped :
    let first := start keeping (.ofSink .unlimited false .transcript) .nonInteractive
    let ending := runFile .standard commentedTail first
    let read := first.console.readLines Message.prompt [] (Text.lines (formatFile commentedTail))
    ending.outcome = .success ∧ (∀ op, .dispatched op ∉ ending.session.console.journal) ∧
      Lexed.kinds? commentedTail =
        some [.word "INSERT", .word "INTO", .word "a", .word "SELECT", .number "1"] ∧
      ¬ RunsWhole commentedTail (requests read.1) ending.session := by
  intro first ending read
  have hkinds : Lexed.kinds? commentedTail =
      some [.word "INSERT", .word "INTO", .word "a", .word "SELECT", .number "1"] :=
    Lexed.kinds?_eq_some_iff.2 ⟨closed_iff.2 (by decide +kernel), by decide +kernel⟩
  have hjournal : ending.session.console.journal.all (fun e => e matches .read) = true := by
    decide +kernel
  refine ⟨by decide +kernel, fun op hop => ?_, hkinds, fun hwhole => ?_⟩
  · have hread := List.all_eq_true.1 hjournal _ hop
    cases hread
  · obtain ⟨ks, hks, hcovered⟩ := hwhole.covered
    have hnothing : read.1.flatMap substance = [] := by decide +kernel
    rw [hkinds] at hks
    obtain rfl := Option.some.inj hks
    rw [flatMap_substance_requests, hnothing] at hcovered
    cases hcovered

end SqlConsole.Session
