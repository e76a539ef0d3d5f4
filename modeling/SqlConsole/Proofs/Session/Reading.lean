import SqlConsole.Proofs.Console.Agreement
import SqlConsole.Proofs.Script.Split
import SqlConsole.Proofs.Token.Lines
/-!
# Reading statements loses no token, unless it drops an open comment

`Console.readAll` are the statements that a console delivers until its input is over, and the lines
that are kept then.  At a console that accepts all output they depend on the reads alone
(`readAll_line`, `readAll_congr`).

A line that leaves a text blank ends it, and where a block comment is open at the end of the line,
the comment is dropped with the text (`DropsComment`): the lines behind it are read as statements.
Without such a line the statements and the rest hold the tokens of all lines (`tokens_readLines`).
Each such line is read wrong as soon as its comment is closed, so the two are the same
(`faithful_iff_keepsComments`).
-/

namespace SqlConsole

/-! ## All reads -/

/-- The statements that a reading delivers. -/
def Reading.statements : Reading → List Text
  | .incomplete _ => []
  | .blank => [[]]
  | .complete _ first others => first :: others

/-- The lines that a reading keeps. -/
def Reading.kept : Reading → Text
  | .incomplete lines => lines
  | .blank | .complete .. => []

namespace Console

/-- The statements that are read at a console until its input is over, an empty one for each text
with nothing to run, and the lines that are kept in the end. -/
def readAll (isComplete : Text → Bool) (prompt : Text) :
    Text → List TerminalRead → Console → List Text × Text
  | kept, [], _ => ([], kept)
  | kept, read :: unread, c =>
    match c.take isComplete prompt kept read with
    | (.read reading, c) =>
      let (statements, left) := readAll isComplete prompt reading.kept unread c
      (reading.statements ++ statements, left)
    | (.interrupted, c) => readAll isComplete prompt [] unread c
    | (.failed _, _) | (.ended, _) => ([], kept)

variable (isComplete : Text → Bool) (prompt : Text)

/-- Where all output is accepted, what is read depends on the reads alone. -/
theorem readAll_congr {c d : Console} (hc : c.sink.room = none) (hd : d.sink.room = none)
    (kept : Text) (reads : List TerminalRead) :
    readAll isComplete prompt kept reads c = readAll isComplete prompt kept reads d := by
  induction reads generalizing kept c d with
  | nil => rfl
  | cons read reads ih =>
    obtain ⟨c', hc', htake⟩ := take_of_room hc isComplete prompt kept read
    obtain ⟨d', hd', htake'⟩ := take_of_room hd isComplete prompt kept read
    rw [readAll, readAll, htake, htake']
    cases read with
    | line line => simp only [outcome, ih hc'.room_right hd'.room_right]
    | interrupted => exact ih hc'.room_right hd'.room_right []
    | failed reason => rfl
    | ended => rfl

theorem readAll_line {c : Console} (h : c.sink.room = none) (kept line : Text)
    (reads : List TerminalRead) :
    readAll isComplete prompt kept (.line line :: reads) c =
      let reading := Reading.addLine isComplete kept line
      (reading.statements ++ (readAll isComplete prompt reading.kept reads c).1,
        (readAll isComplete prompt reading.kept reads c).2) := by
  obtain ⟨d, hd, htake⟩ := take_of_room h isComplete prompt kept (.line line)
  rw [readAll, htake]
  simp only [outcome, readAll_congr isComplete prompt hd.room_right h]

/-! ## Lines -/

/-- What is read of lines, behind the lines that were kept before them. -/
def readLines (prompt kept : Text) (lines : List Text) (c : Console) : List Text × Text :=
  c.readAll Script.isComplete prompt kept (lines.map .line)

/-- The lines kept and the next one make up a blank text in which a block comment is open. -/
def DropsComment (kept line : Text) : Prop :=
  Script.split (kept ++ line ++ ['\n']) = [] ∧
    (Script.Scan.ofText (kept ++ line ++ ['\n'])).unterminated = true

/-- None of the lines drops an open comment. -/
def KeepsComments (prompt kept : Text) (lines : List Text) (c : Console) : Prop :=
  ∀ before line behind, lines = before ++ line :: behind →
    ¬ DropsComment (c.readLines prompt kept before).2 line

/-- If nothing is left open in the lines, what is read of them are their tokens: those of the
statements in their order, and then those of the lines that are kept in the end. -/
def Faithful (prompt : Text) (lines : List Text) (c : Console) : Prop :=
  ∀ tokens, Lexed.kinds? (Text.join ['\n'] lines) = some tokens →
    let read := c.readLines prompt [] lines
    ((read.1 ++ [read.2]).mapM Lexed.kinds?).map List.flatten = some tokens

/-! ## One line -/

open Piece

theorem dropsComment_iff {kept line : Text} :
    DropsComment kept line ↔
      Script.split (kept ++ line ++ ['\n']) = [] ∧
        fault? (kept ++ line ++ ['\n']) = some .comment := by
  rw [DropsComment, Script.unterminated_eq]
  constructor
  · rintro ⟨hsplit, hopen⟩
    refine ⟨hsplit, (Script.fault?_of_split_eq_nil hsplit).resolve_left fun hnone => ?_⟩
    rw [hnone] at hopen
    cases hopen
  · rintro ⟨hsplit, hfault⟩
    exact ⟨hsplit, by rw [hfault]; rfl⟩

/-- What a line delivers and what it keeps hold the tokens of the lines before it and its own,
unless a comment is dropped. -/
theorem tokens_addLine {kept line : Text} (h : ¬ DropsComment kept line) (rest : Text) :
    let reading := Reading.addLine Script.isComplete kept line
    tokens (kept ++ line ++ ['\n'] ++ rest) =
        reading.statements.flatMap tokens ++ tokens (reading.kept ++ rest) ∧
      fault? (kept ++ line ++ ['\n'] ++ rest) = fault? (reading.kept ++ rest) ∧
      ∀ s ∈ reading.statements, Closed s := by
  have hsplit := Script.flatMap_tokens_split (kept ++ line ++ ['\n'])
  rw [dropsComment_iff] at h
  unfold Reading.addLine
  dsimp only
  split
  · next hnil =>
    have hclosed : Closed (kept ++ line ++ ['\n']) := by
      rw [closed_iff]
      exact (Script.fault?_of_split_eq_nil hnil).resolve_right fun hopen => h ⟨hnil, hopen⟩
    obtain ⟨htokens, hfault⟩ := append_of_closed_line hclosed rest
    rw [hnil, List.flatMap_nil] at hsplit
    rw [← hsplit, List.nil_append] at htokens
    refine ⟨by simpa [Reading.statements, Reading.kept] using htokens, hfault, ?_⟩
    simp [Reading.statements, closed_iff]
  · next first others hcons =>
    split
    · next hcomplete =>
      have hclosed := Script.closed_of_isComplete hcomplete
      obtain ⟨htokens, hfault⟩ := append_of_closed_line hclosed rest
      rw [← hsplit, hcons] at htokens
      refine ⟨htokens, hfault, ?_⟩
      intro s hs
      exact Script.closed_of_mem_split hclosed (by rw [hcons]; exact hs)
    · exact ⟨rfl, rfl, by simp [Reading.statements]⟩

/-! ## All lines -/

variable {prompt : Text} {c : Console}

theorem readLines_cons (h : c.sink.room = none) (kept line : Text) (lines : List Text) :
    c.readLines prompt kept (line :: lines) =
      let reading := Reading.addLine Script.isComplete kept line
      (reading.statements ++ (c.readLines prompt reading.kept lines).1,
        (c.readLines prompt reading.kept lines).2) :=
  readAll_line _ _ h kept line _

theorem readLines_append (h : c.sink.room = none) (kept : Text) (lines more : List Text) :
    c.readLines prompt kept (lines ++ more) =
      let read := c.readLines prompt kept lines
      (read.1 ++ (c.readLines prompt read.2 more).1, (c.readLines prompt read.2 more).2) := by
  induction lines generalizing kept with
  | nil => rfl
  | cons line lines ih =>
    simp only [List.cons_append, readLines_cons h, ih, List.append_assoc]

theorem keepsComments_cons (h : c.sink.room = none) {kept line : Text} {lines : List Text} :
    KeepsComments prompt kept (line :: lines) c ↔
      ¬ DropsComment kept line ∧
        KeepsComments prompt (Reading.addLine Script.isComplete kept line).kept lines c := by
  constructor
  · intro hkeeps
    refine ⟨hkeeps [] line lines rfl, ?_⟩
    rintro before next behind rfl
    have hnext := hkeeps (line :: before) next behind rfl
    rwa [readLines_cons h] at hnext
  · rintro ⟨hline, hlines⟩ before next behind heq
    cases before with
    | nil =>
      obtain ⟨rfl, rfl⟩ := List.cons.inj heq
      exact hline
    | cons first before =>
      obtain ⟨rfl, rfl⟩ := List.cons.inj heq
      rw [readLines_cons h]
      exact hlines before next behind rfl

/-- **Reading loses no token.**  Unless a comment is dropped, the statements and the lines that
are kept in the end hold the tokens of all lines, whatever follows them. -/
theorem tokens_readLines (h : c.sink.room = none) {kept : Text} {lines : List Text}
    (hkeeps : KeepsComments prompt kept lines c) (rest : Text) :
    let read := c.readLines prompt kept lines
    tokens (kept ++ unlines lines ++ rest) = read.1.flatMap tokens ++ tokens (read.2 ++ rest) ∧
      fault? (kept ++ unlines lines ++ rest) = fault? (read.2 ++ rest) ∧
      ∀ s ∈ read.1, Closed s := by
  induction lines generalizing kept with
  | nil => exact ⟨by simp [unlines, readLines, readAll], by simp [unlines, readLines, readAll],
      by simp [readLines, readAll]⟩
  | cons line lines ih =>
    obtain ⟨hline, hlines⟩ := (keepsComments_cons h).1 hkeeps
    obtain ⟨htokens, hfault, hclosed⟩ := tokens_addLine hline (unlines lines ++ rest)
    obtain ⟨htokens', hfault', hclosed'⟩ := ih hlines
    have htext : kept ++ unlines (line :: lines) ++ rest =
        kept ++ line ++ ['\n'] ++ (unlines lines ++ rest) := by
      simp [unlines_cons]
    rw [readLines_cons h, htext]
    rw [List.append_assoc] at htokens' hfault'
    refine ⟨?_, hfault.trans hfault', ?_⟩
    · rw [htokens, htokens']
      simp only [List.flatMap_append, List.append_assoc]
    · intro s hs
      rcases List.mem_append.1 hs with hs | hs
      · exact hclosed s hs
      · exact hclosed' s hs

/-- Lines that drop no comment are read as they are written. -/
theorem faithful_of_keepsComments (h : c.sink.room = none) {lines : List Text}
    (hkeeps : KeepsComments prompt [] lines c) : Faithful prompt lines c := by
  intro ks hks
  obtain ⟨hwhole, rfl⟩ := Lexed.kinds?_eq_some_iff.1 hks
  obtain ⟨htokens, hfault, hclosed⟩ := tokens_readLines h hkeeps []
  obtain ⟨hjoin, hjoin'⟩ := tokens_join lines
  simp only [List.nil_append, List.append_nil] at htokens hfault
  rw [closed_iff, hjoin', hfault, ← closed_iff] at hwhole
  refine Lexed.flatten_mapM_kinds?.2 ⟨?_, ?_⟩
  · intro s hs
    rcases List.mem_append.1 hs with hs | hs
    · exact hclosed s hs
    · rw [List.mem_singleton.1 hs]
      exact hwhole
  · rw [hjoin, htokens, List.flatMap_append, List.flatMap_singleton]

/-! ## Dropped comments -/

theorem KeepsComments.concat {kept line : Text} {lines : List Text}
    (hlines : KeepsComments prompt kept lines c)
    (hline : ¬ DropsComment (c.readLines prompt kept lines).2 line) :
    KeepsComments prompt kept (lines ++ [line]) c := by
  intro before next behind heq
  rcases List.eq_nil_or_concat behind with rfl | ⟨behind, last, rfl⟩
  · obtain ⟨rfl, hlast⟩ := List.append_inj' heq rfl
    obtain rfl := List.singleton_inj.1 hlast
    exact hline
  · have hinit : lines ++ [line] = (before ++ next :: behind) ++ [last] := by simpa using heq
    exact hlines before next behind (List.append_inj' hinit rfl).1

/-- The line that closes a comment. -/
def closeLine : Text := ['*', '/']

theorem tokens_closeLine : tokens (closeLine ++ ['\n']) = [.symbol '*', .symbol '/'] := by
  have hstar : read '*' ['/', '\n'] = .ok (.token (.symbol '*') ['*'], ['/', '\n']) := rfl
  have hslash : read '/' ['\n'] = .ok (.token (.symbol '/') ['/'], ['\n']) := rfl
  have hstart := tokens_of_read hstar
  rw [tokens_of_read hslash, tokens_cons_of_isBlank isBlank_newline, tokens_nil] at hstart
  exact hstart

theorem keepsComments_closeLine (h : c.sink.room = none) :
    KeepsComments prompt [] [closeLine] c := by
  refine (keepsComments_cons h).2 ⟨fun hdrop => ?_, fun before line behind heq => by simp at heq⟩
  have hsplit := Script.flatMap_tokens_split (closeLine ++ ['\n'])
  have hnil : Script.split (closeLine ++ ['\n']) = [] := hdrop.1
  rw [hnil, tokens_closeLine] at hsplit
  cases hsplit

/-- What is read of lines the first of which drops a comment. -/
theorem readLines_of_dropsComment (h : c.sink.room = none) {kept line : Text} (lines : List Text)
    (hdrop : DropsComment kept line) :
    c.readLines prompt kept (line :: lines) =
      ([] :: (c.readLines prompt [] lines).1, (c.readLines prompt [] lines).2) := by
  have hblank : Reading.addLine Script.isComplete kept line = .blank := by
    simp only [Reading.addLine, hdrop.1]
  rw [readLines_cons h, hblank]
  rfl

/-- A comment that was open and is closed by the last line holds no token. -/
theorem kinds?_join_of_dropsComment (h : c.sink.room = none) {before : List Text} {line : Text}
    (hkeeps : KeepsComments prompt [] before c)
    (hdrop : DropsComment (c.readLines prompt [] before).2 line) :
    Lexed.kinds? (Text.join ['\n'] (before ++ [line, closeLine])) =
      some ((c.readLines prompt [] before).1.flatMap tokens) := by
  obtain ⟨hsplit, hopen⟩ := dropsComment_iff.1 hdrop
  have hnone := Script.flatMap_tokens_split ((c.readLines prompt [] before).2 ++ line ++ ['\n'])
  obtain ⟨htokens, hfault, -⟩ :=
    tokens_readLines h hkeeps (line ++ ['\n'] ++ closeLine ++ ['\n'])
  obtain ⟨hjoin, hjoin'⟩ := tokens_join (before ++ [line, closeLine])
  obtain ⟨hclose, hclose'⟩ := append_close hopen
  obtain ⟨hend, hend'⟩ := concat_of_isBlank isBlank_newline
    ((c.readLines prompt [] before).2 ++ line ++ ['\n'] ++ closeLine)
  have htext : unlines (before ++ [line, closeLine]) =
      unlines before ++ (line ++ ['\n'] ++ closeLine ++ ['\n']) := by
    simp [unlines]
  rw [hsplit, List.flatMap_nil] at hnone
  simp only [List.nil_append, ← List.append_assoc] at htokens hfault htext
  refine Lexed.kinds?_eq_some_iff.2 ⟨?_, ?_⟩
  · rw [closed_iff, hjoin', htext, hfault, hend']
    exact hclose'
  · rw [hjoin, htext, htokens, hend, closeLine, hclose, ← hnone, List.append_nil]

/-- A comment that is dropped is read wrong as soon as it is closed: its closing mark becomes a
part of a statement. -/
theorem not_faithful_of_dropsComment (h : c.sink.room = none) {before : List Text} {line : Text}
    (hkeeps : KeepsComments prompt [] before c)
    (hdrop : DropsComment (c.readLines prompt [] before).2 line) :
    ¬ Faithful prompt (before ++ [line, closeLine]) c := by
  intro hfaithful
  have hread := hfaithful _ (kinds?_join_of_dropsComment h hkeeps hdrop)
  obtain ⟨-, hsame⟩ := Lexed.flatten_mapM_kinds?.1 hread
  have hkeepsClose : KeepsComments prompt [] [closeLine] c := keepsComments_closeLine h
  obtain ⟨hclose, -, -⟩ := tokens_readLines h hkeepsClose []
  simp only [readLines_append h, readLines_of_dropsComment h _ hdrop, List.flatMap_append,
    List.flatMap_cons, tokens_nil, List.flatMap_nil, List.append_nil, List.nil_append,
    List.append_assoc] at hsame
  have hextra := List.append_right_eq_self.1 hsame
  simp only [List.nil_append, List.append_nil, hextra] at hclose
  have hmark : tokens (unlines [closeLine]) = [.symbol '*', .symbol '/'] := tokens_closeLine
  rw [hmark] at hclose
  cases hclose

/-- **Reading line by line is faithful exactly where no open comment is dropped.**  Lines that
drop none are read as they are written, however the last of them goes on, and a comment that is
dropped can be closed by a line that is read as a statement. -/
theorem faithful_iff_keepsComments (h : c.sink.room = none) (lines : List Text) :
    (KeepsComments prompt [] lines c → Faithful prompt lines c) ∧
      (KeepsComments prompt [] lines c ↔
        ∀ before, before <+: lines → ∀ line, Faithful prompt (before ++ [line]) c) := by
  refine ⟨faithful_of_keepsComments h, ?_, ?_⟩
  · rintro hkeeps before ⟨behind, rfl⟩ line
    have hbefore : KeepsComments prompt [] before c := fun first next rest heq =>
      hkeeps first next (rest ++ behind) (by simp [heq])
    by_cases hdrop : DropsComment (c.readLines prompt [] before).2 line
    · -- The comment is still open at the end of all lines, which are not read as tokens then.
      intro ks hks
      obtain ⟨hclosed, -⟩ := Lexed.kinds?_eq_some_iff.1 hks
      obtain ⟨-, hfault, -⟩ := tokens_readLines h hbefore (line ++ ['\n'])
      have htext : [] ++ unlines before ++ (line ++ ['\n']) = unlines (before ++ [line]) := by
        simp [unlines]
      rw [htext, ← (tokens_join _).2, closed_iff.1 hclosed, ← List.append_assoc,
        (dropsComment_iff.1 hdrop).2] at hfault
      cases hfault
    · exact faithful_of_keepsComments h (hbefore.concat hdrop)
  · intro hall before line behind heq
    -- A comment that is dropped first is dropped behind lines that drop none.
    induction hlength : before.length using Nat.strongRecOn generalizing before line behind with
    | _ n ih =>
      intro hdrop
      have hbefore : KeepsComments prompt [] before c := by
        rintro first next rest rfl
        refine ih first.length ?_ first next (rest ++ line :: behind) (by simp [heq]) rfl
        simp only [← hlength, List.length_append, List.length_cons]
        omega
      have hfaithful := hall (before ++ [line]) ⟨behind, by simp [heq]⟩ closeLine
      rw [List.append_assoc] at hfaithful
      exact not_faithful_of_dropsComment h hbefore hdrop hfaithful

/-- A script in which a comment begins behind a statement. -/
def trailingComment : List Text := ["SELECT 1; /* a", "DROP TABLE t; */"]

/-- A line with a statement and the beginning of a comment behind it is kept. -/
theorem addLine_of_unterminated {line : Text} {scan : Script.Scan}
    (hbare : Script.isBareCommand (line ++ ['\n']) = false)
    (hscan : Script.Scan.ofText (line ++ ['\n']) = scan) (hopen : scan.unterminated = true)
    (hstatements : scan.statements ≠ []) :
    ¬ DropsComment [] line ∧
      Reading.addLine Script.isComplete [] line = .incomplete (line ++ ['\n']) := by
  have hsplit : Script.split (line ++ ['\n']) ≠ [] := by
    simp [Script.split, hbare, hscan, hstatements]
  refine ⟨fun hdrop => hsplit hdrop.1, ?_⟩
  obtain ⟨first, others, hcons⟩ := List.exists_cons_of_ne_nil hsplit
  simp [Reading.addLine, hcons, Script.isComplete, hbare, hscan, hopen]

theorem keepsComments_trailingComment :
    KeepsComments Message.prompt [] trailingComment (ofSink .unlimited true .editor) := by
  have hroom : (ofSink .unlimited true .editor).sink.room = none := rfl
  have hscan : Script.Scan.ofText ("SELECT 1; /* a" ++ ['\n']) =
      ⟨["SELECT 1;"], none, " /* a" ++ ['\n'], true⟩ := by decide +kernel
  obtain ⟨hfirst, hkept⟩ := addLine_of_unterminated (by decide +kernel) hscan rfl (by simp)
  have hsecond : ¬ DropsComment ("SELECT 1; /* a" ++ ['\n']) "DROP TABLE t; */" := by
    rintro ⟨-, hopen⟩
    have hclosed : (Script.Scan.ofText
        ("SELECT 1; /* a" ++ ['\n'] ++ "DROP TABLE t; */" ++ ['\n'])).unterminated = false := by
      decide +kernel
    rw [hclosed] at hopen
    cases hopen
  rw [trailingComment, keepsComments_cons hroom, hkept, keepsComments_cons hroom]
  refine ⟨hfirst, hsecond, ?_⟩
  intro before line behind heq
  simp at heq

theorem faithful_trailingComment :
    (ofSink .unlimited true .editor).sink.room = none ∧
      KeepsComments Message.prompt [] trailingComment (ofSink .unlimited true .editor) ∧
      Faithful Message.prompt trailingComment (ofSink .unlimited true .editor) :=
  ⟨rfl, keepsComments_trailingComment,
    (faithful_iff_keepsComments rfl _).1 keepsComments_trailingComment⟩

/-- A script in which a statement is commented out. -/
def commentedLines : List Text := ["/* a", "DROP TABLE t;", "*/ SELECT 1;"]

theorem dropsComment_of_scan {line : Text} (hbare : Script.isBareCommand (line ++ ['\n']) = false)
    (hscan : Script.Scan.ofText (line ++ ['\n']) = ⟨[], none, line ++ ['\n'], true⟩)
    (hblank : Script.isBlankText (line ++ ['\n']) = true) : DropsComment [] line := by
  simp [DropsComment, Script.split, hbare, hscan, hblank]

theorem addLine_of_scan {line : Text} (hbare : Script.isBareCommand (line ++ ['\n']) = false)
    (hscan : Script.Scan.ofText (line ++ ['\n']) = ⟨[line], none, ['\n'], false⟩)
    (htrim : Text.trim line = line) :
    Reading.addLine Script.isComplete [] line = .complete (line ++ ['\n']) line [] := by
  have hblank : Script.isBlankText ['\n'] = true := by decide +kernel
  simp [Reading.addLine, Script.split, Script.isComplete, hbare, hscan, hblank, htrim]

theorem readLines_commentedLines :
    (ofSink .unlimited false .transcript).readLines Message.prompt [] commentedLines =
      ([[], "DROP TABLE t;", "*/ SELECT 1;"], []) := by
  have hroom : (ofSink .unlimited false .transcript).sink.room = none := rfl
  have hopening : DropsComment [] "/* a" :=
    dropsComment_of_scan (by decide +kernel) (by decide +kernel) (by decide +kernel)
  have hdrop : Reading.addLine Script.isComplete [] "DROP TABLE t;" =
      .complete ("DROP TABLE t;" ++ ['\n']) "DROP TABLE t;" [] :=
    addLine_of_scan (by decide +kernel) (by decide +kernel) (by decide +kernel)
  have hselect : Reading.addLine Script.isComplete [] "*/ SELECT 1;" =
      .complete ("*/ SELECT 1;" ++ ['\n']) "*/ SELECT 1;" [] :=
    addLine_of_scan (by decide +kernel) (by decide +kernel) (by decide +kernel)
  simp only [commentedLines, readLines_of_dropsComment hroom _ hopening, readLines_cons hroom,
    hdrop, hselect, Reading.kept]
  rfl

/-- The statement that is commented out is read, and so is the end of the comment. -/
theorem commented_statement_is_read :
    (ofSink .unlimited false .transcript).readLines Message.prompt [] commentedLines =
        ([[], "DROP TABLE t;", "*/ SELECT 1;"], []) ∧
      Lexed.kinds? (Text.join ['\n'] commentedLines) =
        some [.word "SELECT", .number "1", .symbol ';'] ∧
      ¬ Faithful Message.prompt commentedLines (ofSink .unlimited false .transcript) := by
  have hkinds : Lexed.kinds? (Text.join ['\n'] commentedLines) =
      some [.word "SELECT", .number "1", .symbol ';'] :=
    Lexed.kinds?_eq_some_iff.2 ⟨closed_iff.2 (by decide +kernel), by decide +kernel⟩
  refine ⟨readLines_commentedLines, hkinds, fun hfaithful => ?_⟩
  have hread := hfaithful _ hkinds
  rw [readLines_commentedLines] at hread
  obtain ⟨-, htokens⟩ := Lexed.flatten_mapM_kinds?.1 hread
  have hdrop : tokens ("DROP TABLE t;" : Text) =
      [.word "DROP", .word "TABLE", .word "t", .symbol ';'] := by decide +kernel
  rw [List.cons_append, List.flatMap_cons, tokens_nil, List.cons_append, List.flatMap_cons,
    hdrop] at htokens
  cases htokens

end Console

end SqlConsole
