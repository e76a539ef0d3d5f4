import SqlConsole.Proofs.Session.LineByLine
import SqlConsole.Proofs.Session.Performing
import SqlConsole.Proofs.Statement.Block
/-!
# Two ways to write a batch

Insertions can be collected between `BEGIN STATEMENT SET;` and `END;`, or be written as a block
between `EXECUTE STATEMENT SET BEGIN` and `END;`.  The first way always hands them over as one batch
(`performAll_collecting`).  The second way does so exactly if none of them, with its terminator,
looks like the end of the block (`forms_agree_iff`).  Otherwise the reader ends the block behind the
first one that does, and the parser takes the last word `END` in front of that for the end of the
block: what is handed over has fewer tokens than the insertions, which `weight` counts.
-/

namespace SqlConsole

open Script Statement

/-! ## The two scripts -/

/-- The line that opens a statement set. -/
def beginning : Text := "BEGIN STATEMENT SET;"

/-- The script that collects insertions in a statement set. -/
def collecting (ms : List Modify) : Text :=
  Text.join ['\n'] (beginning :: (bodies ms ++ [closing]))

/-- The script that has insertions in a block. -/
def inBlock (ms : List Modify) : Text :=
  Text.join ['\n'] (opening :: (bodies ms ++ [closing]))

section

variable {ms : List Modify}

theorem not_mem_bodies (h : ∀ m ∈ ms, '\r' ∉ m.statement) : ∀ y ∈ bodies ms, '\r' ∉ y := by
  intro y hy
  obtain ⟨m, hm, rfl⟩ := List.mem_map.1 hy
  simpa [terminated] using h m hm

/-- What stands in front of the last line of a script, and the script. -/
theorem ends_of_join {first : Text} {ys : List Text} (hfirst : '\r' ∉ first)
    (h : ∀ y ∈ ys, '\r' ∉ y) :
    '\r' ∉ Text.join ['\n'] (first :: (ys ++ [closing])) ∧
      ∃ d ∈ (Text.join ['\n'] (first :: (ys ++ [closing]))).getLast?, d ≠ '\n' := by
  constructor
  · refine not_mem_join (by decide) fun y hy => ?_
    rcases List.mem_cons.1 hy with rfl | hy
    · exact hfirst
    · rcases List.mem_append.1 hy with hy | hy
      · exact h y hy
      · rw [List.mem_singleton.1 hy]
        decide
  · rw [← List.cons_append, join_concat (List.cons_ne_nil first ys)]
    exact ⟨';', by simp [closing], by decide⟩

theorem readLines_closing {c : Console} (h : c.sink.room = none) :
    c.readLines Message.prompt [] (Text.fields '\n' closing) = ([closing], []) :=
  Console.readLines_line h (by decide) (by decide +kernel) (by decide +kernel)

theorem readLines_of_mem_bodies {c : Console} (h : c.sink.room = none)
    (halone : ∀ m ∈ ms, StandsAlone m) : ∀ y ∈ bodies ms,
      c.readLines Message.prompt [] (Text.fields '\n' y) = ([y], []) := by
  intro y hy
  obtain ⟨m, hm, rfl⟩ := List.mem_map.1 hy
  exact (oneStatement_terminated (halone m hm)).readLines h

/-- Insertions behind a first statement, and `END` behind them, are read one by one. -/
theorem readLines_bodies {c : Console} (h : c.sink.room = none) {first : Text}
    (hfirst : c.readLines Message.prompt [] (Text.fields '\n' first) = ([first], []))
    (halone : ∀ m ∈ ms, StandsAlone m) (hnone : '\r' ∉ first)
    (hreturn : ∀ m ∈ ms, '\r' ∉ m.statement) :
    c.readLines Message.prompt []
        (Text.lines (Text.join ['\n'] (first :: (bodies ms ++ [closing])))) =
      (first :: (bodies ms ++ [closing]), []) := by
  obtain ⟨hscript, hlast⟩ := ends_of_join hnone (not_mem_bodies hreturn)
  refine Console.readLines_join h (List.cons_ne_nil _ _) (fun t ht => ?_) hscript hlast
  rcases List.mem_cons.1 ht with rfl | ht
  · exact hfirst
  · rcases List.mem_append.1 ht with ht | ht
    · exact readLines_of_mem_bodies h halone t ht
    · rw [List.mem_singleton.1 ht]
      exact readLines_closing h

/-- What is read of insertions in a statement set. -/
theorem readLines_collecting {c : Console} (h : c.sink.room = none)
    (halone : ∀ m ∈ ms, StandsAlone m) (hreturn : ∀ m ∈ ms, '\r' ∉ m.statement) :
    c.readLines Message.prompt [] (Text.lines (collecting ms)) =
      (beginning :: (bodies ms ++ [closing]), []) :=
  readLines_bodies h
    (Console.readLines_line h (by decide) (by decide +kernel) (by decide +kernel)) halone
    (by decide) hreturn

/-- Insertions in a block are a block of lines. -/
theorem inBlock_eq :
    inBlock ms = blockOf (bodies ms ++ [closing]) := by
  rw [inBlock, join_cons, flatMap_newline (by simp), blockOf]

/-- The lines of insertions are long enough to tell whether they close a block. -/
theorem isOpen_of_mem_bodies (halone : ∀ m ∈ ms, StandsAlone m)
    (hopen : ∀ m ∈ ms, closesBlock (terminated m.statement) = false) :
    ∀ y ∈ bodies ms, 3 ≤ (bare y).length ∧ closesBlock y = false := by
  intro y hy
  obtain ⟨m, hm, rfl⟩ := List.mem_map.1 hy
  exact ⟨(halone m hm).length_bare, hopen m hm⟩

theorem parse_beginning :
    Statement.parse (Text.trim beginning) = .ok (some .beginStatementSet) := by decide +kernel

theorem parse_closing :
    Statement.parse (Text.trim closing) = .ok (some .endStatementSet) := by decide +kernel

theorem isSegment_closing : IsSegment closing :=
  ⟨[.token (.word "END") "END"], cut_closing, by decide⟩

/-- A block that no insertion closes is read as it is. -/
theorem readLines_inBlock {c : Console} (h : c.sink.room = none)
    (halone : ∀ m ∈ ms, StandsAlone m) (hreturn : ∀ m ∈ ms, '\r' ∉ m.statement)
    (hopen : ∀ m ∈ ms, closesBlock (terminated m.statement) = false) :
    OneStatement (inBlock ms) ∧
      c.readLines Message.prompt [] (Text.lines (inBlock ms)) = ([inBlock ms], []) := by
  have hone : OneStatement (inBlock ms) := by
    have hsegments : ∀ y ∈ bodies ms ++ [closing], IsSegment y := by
      intro y hy
      rcases List.mem_append.1 hy with hy | hy
      · exact isSegment_of_mem_bodies halone y hy
      · rw [List.mem_singleton.1 hy]
        exact isSegment_closing
    have hblock := oneStatement_block (isOpen_of_mem_bodies halone hopen) (by decide +kernel)
      (by decide +kernel) hsegments
    rwa [← inBlock_eq] at hblock
  have hopening : '\r' ∉ opening := by decide
  obtain ⟨hscript, hlast⟩ := ends_of_join hopening (not_mem_bodies hreturn)
  have hjoin : Text.join ['\n'] [inBlock ms] = inBlock ms := by
    simp [Text.join]
  rw [← inBlock, ← hjoin] at hscript hlast
  have halone : ∀ t ∈ [inBlock ms],
      c.readLines Message.prompt [] (Text.fields '\n' t) = ([t], []) := by
    intro t ht
    rw [List.mem_singleton.1 ht]
    exact hone.readLines h
  have hread := Console.readLines_join h (List.cons_ne_nil _ _) halone hscript hlast
  rw [hjoin] at hread
  exact ⟨hone, hread⟩

/-- A block that an insertion closes is read up to that insertion, and what follows one by one. -/
theorem readLines_inBlock_append {c : Console} (h : c.sink.room = none) {pre post : List Modify}
    {m : Modify} (halone : ∀ n ∈ pre ++ m :: post, StandsAlone n)
    (hreturn : ∀ n ∈ pre ++ m :: post, '\r' ∉ n.statement)
    (hopen : ∀ n ∈ pre, closesBlock (terminated n.statement) = false)
    (hcloses : closesBlock (terminated m.statement)) :
    let block := blockOf (bodies (pre ++ [m]))
    OneStatement block ∧
      c.readLines Message.prompt [] (Text.lines (inBlock (pre ++ m :: post))) =
        (block :: (bodies post ++ [closing]), []) := by
  intro block
  have hbodies : bodies (pre ++ [m]) = bodies pre ++ [terminated m.statement] := by
    simp [bodies]
  have hpre : ∀ n ∈ pre, StandsAlone n := fun n hn => halone n (by simp [hn])
  have hm : StandsAlone m := halone m (by simp)
  have hfront : pre ++ [m] ⊆ pre ++ m :: post := List.IsPrefix.subset ⟨post, by simp⟩
  have hone : OneStatement block := by
    have hblock := oneStatement_block (isOpen_of_mem_bodies hpre hopen) hm.length_bare hcloses
      (by rw [← hbodies]; exact isSegment_of_mem_bodies fun n hn => halone n (hfront hn))
    rwa [← hbodies] at hblock
  have hscript : inBlock (pre ++ m :: post) =
      Text.join ['\n'] (block :: (bodies post ++ [closing])) := by
    have hparts : bodies (pre ++ m :: post) = bodies (pre ++ [m]) ++ bodies post := by
      simp [bodies]
    rw [inBlock, join_cons, join_cons, hparts, List.append_assoc, List.flatMap_append,
      flatMap_newline (bodies_ne_nil (by simp)), ← List.append_assoc]
    rfl
  have hnone : '\r' ∉ block := by
    have hjoin := not_mem_join (c := '\r') (by decide)
      (not_mem_bodies fun n hn => hreturn n (hfront hn))
    have hopening : '\r' ∉ opening := by decide
    simp only [block, blockOf, List.mem_append, List.mem_cons, not_or]
    exact ⟨hopening, by decide, hjoin⟩
  refine ⟨hone, ?_⟩
  rw [hscript]
  exact readLines_bodies h (hone.readLines h) (fun n hn => halone n (by simp [hn])) hnone
    (fun n hn => hreturn n (by simp [hn]))

end

namespace Session

variable {σ φ : Type} [ResultSource φ] [Gateway.Over σ φ] {mode : Mode}

/-! ## Statement sets -/

/-- Insertions in an open statement set wait in it, in their order. -/
theorem performAll_bodies (mode : Mode) {s : Session σ} (h : s.console.sink.room = none)
    (hmode : s.mode ≠ .initialization) {waiting ms : List Modify}
    (hopen : s.statementSet = ⟨some waiting⟩) (halone : ∀ m ∈ ms, StandsAlone m)
    (statements : List Text) :
    ∃ t, Effect ⟨some (waiting ++ ms)⟩ [] s t ∧
      performAll mode (bodies ms ++ statements) s = performAll mode statements t := by
  induction ms generalizing waiting s with
  | nil =>
    refine ⟨s, ?_, rfl⟩
    rw [List.append_nil, ← hopen]
    exact .refl h
  | cons m ms ih =>
    have hm := halone m List.mem_cons_self
    have hparse :
        Statement.parse (Text.trim (terminated m.statement)) = .ok (some (.insert m)) := by
      rw [hm.trim_terminated]
      exact hm.parse_terminated
    have hadmits : admits (.insert m) s = .ok () := admits_of_isForStatementSet hmode rfl
    have hok := dispatchInterruptibly_ok hadmits
      (fun token t ht hset => perform_insert_ok ht (hset.trans hopen) m token) h
    have heffect := dispatchInterruptibly_effect h (.insert m)
    rw [hadmits, hopen] at heffect
    have hstep : Effect ⟨some (waiting ++ [m])⟩ [] s (dispatchInterruptibly (.insert m) s).2 :=
      heffect
    obtain ⟨t, hrest, hperform⟩ := ih hstep.room (hstep.mode.symm ▸ hmode) hstep.statementSet
      fun n hn => halone n (List.mem_cons_of_mem m hn)
    refine ⟨t, ?_, ?_⟩
    · have hboth := hstep.trans hrest
      rwa [List.append_assoc] at hboth
    · rw [← hperform, ← performAll_of_ok hparse (by simp) hok]
      rfl

/-- **A statement set hands over what was inserted**, as one batch. -/
theorem performAll_collecting {s : Session σ} (h : s.console.sink.room = none)
    (hmode : s.mode ≠ .initialization) (hclosed : s.statementSet = .closed) {ms : List Modify}
    (hne : ms ≠ []) (halone : ∀ m ∈ ms, StandsAlone m) :
    Effect .closed [ms] s (performAll mode (beginning :: (bodies ms ++ [closing])) s).2 := by
  have hadmits : admits .beginStatementSet s = .ok () := admits_of_closed hmode hclosed (by decide)
  have hok := dispatchInterruptibly_ok hadmits
    (fun token t ht hset => perform_beginStatementSet_ok ht (hset.trans hclosed) token) h
  have hbegun := dispatchInterruptibly_effect h .beginStatementSet
  rw [hadmits, hclosed] at hbegun
  have hbegun : Effect ⟨some []⟩ [] s (dispatchInterruptibly .beginStatementSet s).2 := hbegun
  rw [performAll_of_ok parse_beginning (by simp) hok]
  generalize (dispatchInterruptibly .beginStatementSet s).2 = t at hbegun
  obtain ⟨u, hwaiting, hperform⟩ := performAll_bodies mode hbegun.room
    (hbegun.mode.symm ▸ hmode) hbegun.statementSet halone [closing]
  rw [hperform, performAll_singleton, performStatement_snd parse_closing]
  have hbefore := hbegun.trans hwaiting
  have hended := dispatchInterruptibly_effect hbefore.room .endStatementSet
  rw [admits_of_isForStatementSet (hbefore.mode.symm ▸ hmode) rfl, hbefore.statementSet] at hended
  dsimp only at hended
  obtain ⟨hafter, hbatches⟩ :=
    StatementSet.after_endStatementSet (show (⟨some ([] ++ ms)⟩ : StatementSet).isActive from rfl)
  rw [hafter, hbatches, if_neg (by simpa [StatementSet.pending] using hne)] at hended
  exact hbefore.trans hended

/-! ## Blocks -/

/-- **A block hands over its insertions**, as one batch. -/
theorem performAll_inBlock {s : Session σ} (h : s.console.sink.room = none)
    (hmode : s.mode ≠ .initialization) (hclosed : s.statementSet = .closed) {ms : List Modify}
    (hparse : Statement.parse (Text.trim (inBlock ms)) = .ok (some (.statementSet ms))) :
    Effect .closed [ms] s (performAll mode [inBlock ms] s).2 := by
  have heffect := dispatchInterruptibly_effect h (.statementSet ms)
  obtain ⟨hafter, hbatches⟩ := after_statementSet ms s.statementSet
  rw [admits_of_closed hmode hclosed (by simp [Operation.kind]), hafter, hbatches, hclosed]
    at heffect
  rw [performAll_singleton, performStatement_snd hparse]
  exact heffect

/-- What is handed over of a block that an insertion closes has fewer tokens than the insertions. -/
theorem handsOverOnly_inBlock {pre post : List Modify} {m : Modify}
    (halone : ∀ n ∈ pre ++ m :: post, StandsAlone n)
    (htrim : Text.trim (blockOf (bodies (pre ++ [m]))) = blockOf (bodies (pre ++ [m]))) :
    ∀ t ∈ blockOf (bodies (pre ++ [m])) :: (bodies post ++ [closing]),
      ∀ op, Statement.parse (Text.trim t) = .ok (some op) →
        HandsOverOnly (fun b => weight b < weight (pre ++ m :: post)) op := by
  have hfront : pre ++ [m] ⊆ pre ++ m :: post := List.IsPrefix.subset ⟨post, by simp⟩
  have hweight : weight (pre ++ m :: post) = weight pre + weight [m] + weight post := by
    rw [← weight_append, ← weight_append]
    simp
  have hpos : 0 < weight [m] := weight_pos (halone m (by simp))
  intro t ht op hop
  rcases List.mem_cons.1 ht with rfl | ht
  · rw [htrim] at hop
    obtain ⟨ms, hfound, hless⟩ :=
      truncated_of_parse (by simp) (fun n hn => halone n (hfront hn)) hop
    obtain rfl := Option.some.inj hfound
    obtain ⟨hafter, hbatches⟩ := after_statementSet ms .closed
    refine ⟨hafter, fun b hb => ?_⟩
    rw [hbatches] at hb
    rw [List.mem_singleton.1 hb]
    rw [weight_append] at hless
    omega
  · rcases List.mem_append.1 ht with ht | ht
    · obtain ⟨n, hn, rfl⟩ := List.mem_map.1 ht
      have hn' : StandsAlone n := halone n (by simp [hn])
      rw [hn'.trim_terminated, hn'.parse_terminated] at hop
      obtain rfl := Option.some.inj (Except.ok.inj hop)
      refine ⟨rfl, fun b hb => ?_⟩
      rw [List.mem_singleton.1 hb]
      have hle := weight_singleton_le hn
      omega
    · rw [List.mem_singleton.1 ht, parse_closing] at hop
      obtain rfl := Option.some.inj (Except.ok.inj hop)
      exact ⟨rfl, by simp [StatementSet.handsOver, StatementSet.closed]⟩

/-! ## The same batch -/

/-- The first insertion that closes a block. -/
theorem exists_first_closing {ms : List Modify}
    (h : ¬ ∀ m ∈ ms, closesBlock (terminated m.statement) = false) :
    ∃ pre m post, ms = pre ++ m :: post ∧ closesBlock (terminated m.statement) ∧
      ∀ n ∈ pre, closesBlock (terminated n.statement) = false := by
  cases hfind : ms.find? fun m => closesBlock (terminated m.statement) with
  | none =>
    have hnone := List.find?_eq_none.1 hfind
    exact (h fun m hm => Bool.eq_false_iff.2 (hnone m hm)).elim
  | some m =>
    obtain ⟨hm, pre, post, rfl, hpre⟩ := List.find?_eq_some_iff_append.1 hfind
    exact ⟨pre, m, post, rfl, hm, fun n hn => by simpa using hpre n hn⟩

section

variable (g : σ) {console : Console} {ms : List Modify}

theorem batches_collecting (h : console.sink.room = none) (hmode : mode ≠ .initialization)
    (hne : ms ≠ []) (halone : ∀ m ∈ ms, StandsAlone m) (hreturn : ∀ m ∈ ms, '\r' ∉ m.statement) :
    (runLines .standard (collecting ms) (start g console mode)).session.console.batches =
      console.batches ++ [ms] := by
  rw [batches_runLines g h mode (readLines_collecting h halone hreturn)]
  exact (performAll_collecting (s := start g console mode) h hmode rfl hne halone).batches

theorem batches_inBlock_of_open (h : console.sink.room = none) (hmode : mode ≠ .initialization)
    (hne : ms ≠ []) (halone : ∀ m ∈ ms, StandsAlone m) (hreturn : ∀ m ∈ ms, '\r' ∉ m.statement)
    (hopen : ∀ m ∈ ms, closesBlock (terminated m.statement) = false) :
    (runLines .standard (inBlock ms) (start g console mode)).session.console.batches =
      console.batches ++ [ms] := by
  obtain ⟨hone, hread⟩ := readLines_inBlock h halone hreturn hopen
  have hparse : Statement.parse (Text.trim (inBlock ms)) = .ok (some (.statementSet ms)) := by
    rw [hone.trim_eq, inBlock_eq]
    exact parse_block hne halone
  rw [batches_runLines g h mode hread]
  exact (performAll_inBlock (s := start g console mode) h hmode rfl hparse).batches

theorem batches_inBlock_of_closing (h : console.sink.room = none) (mode : Mode)
    {pre post : List Modify} {m : Modify} (halone : ∀ n ∈ pre ++ m :: post, StandsAlone n)
    (hreturn : ∀ n ∈ pre ++ m :: post, '\r' ∉ n.statement)
    (hopen : ∀ n ∈ pre, closesBlock (terminated n.statement) = false)
    (hcloses : closesBlock (terminated m.statement)) :
    ∃ batches, (runLines .standard (inBlock (pre ++ m :: post))
        (start g console mode)).session.console.batches = console.batches ++ batches ∧
      ∀ b ∈ batches, weight b < weight (pre ++ m :: post) := by
  obtain ⟨hone, hread⟩ := readLines_inBlock_append h halone hreturn hopen hcloses
  obtain ⟨batches, heffect, hless⟩ := performAll_handsOverOnly mode
    (s := start g console mode) h rfl (handsOverOnly_inBlock halone hone.trim_eq)
  refine ⟨batches, ?_, hless⟩
  rw [batches_runLines g h mode hread]
  exact heffect.batches

theorem batches_collecting_of_initialization (h : console.sink.room = none)
    (halone : ∀ m ∈ ms, StandsAlone m) (hreturn : ∀ m ∈ ms, '\r' ∉ m.statement) :
    (runLines .standard (collecting ms)
      (start g console .initialization)).session.console.batches = console.batches := by
  rw [batches_runLines g h .initialization (readLines_collecting h halone hreturn)]
  refine performAll_of_initialization (s := start g console .initialization) h rfl ?_ _
  intro found hfound
  rw [parse_beginning] at hfound
  exact ⟨_, (Except.ok.inj hfound).symm, rfl⟩

theorem batches_inBlock_of_initialization (h : console.sink.room = none) (hne : ms ≠ [])
    (halone : ∀ m ∈ ms, StandsAlone m) (hreturn : ∀ m ∈ ms, '\r' ∉ m.statement) :
    (runLines .standard (inBlock ms)
      (start g console .initialization)).session.console.batches = console.batches := by
  by_cases hopen : ∀ m ∈ ms, closesBlock (terminated m.statement) = false
  · obtain ⟨hone, hread⟩ := readLines_inBlock h halone hreturn hopen
    rw [batches_runLines g h .initialization hread]
    refine performAll_of_initialization (s := start g console .initialization) h rfl ?_ _
    intro found hfound
    rw [hone.trim_eq, inBlock_eq, parse_block hne halone] at hfound
    exact ⟨_, (Except.ok.inj hfound).symm, rfl⟩
  · obtain ⟨pre, m, post, rfl, hcloses, hopen⟩ := exists_first_closing hopen
    obtain ⟨hone, hread⟩ := readLines_inBlock_append h halone hreturn hopen hcloses
    have hfront : pre ++ [m] ⊆ pre ++ m :: post := List.IsPrefix.subset ⟨post, by simp⟩
    rw [batches_runLines g h .initialization hread]
    refine performAll_of_initialization (s := start g console .initialization) h rfl ?_ _
    intro found hfound
    rw [hone.trim_eq] at hfound
    obtain ⟨ms, rfl, -⟩ := truncated_of_parse (by simp) (fun n hn => halone n (hfront hn)) hfound
    exact ⟨_, rfl, rfl⟩

/-- **The two ways to write a batch.**  A script that collects insertions in a statement set hands
them over as one batch, and a script that has them in a block does so exactly if none of them closes
the block.  An initialization file hands nothing over in either way. -/
theorem forms_agree_iff (h : console.sink.room = none) (mode : Mode) (hne : ms ≠ [])
    (halone : ∀ m ∈ ms, StandsAlone m) (hreturn : ∀ m ∈ ms, '\r' ∉ m.statement) :
    let batches script := (runLines .standard script (start g console mode)).session.console.batches
    (mode ≠ .initialization →
      batches (collecting ms) = console.batches ++ [ms] ∧
      (batches (inBlock ms) = console.batches ++ [ms] ↔
        ∀ m ∈ ms, closesBlock (terminated m.statement) = false)) ∧
    (mode = .initialization →
      batches (collecting ms) = console.batches ∧ batches (inBlock ms) = console.batches) := by
  intro batches
  constructor
  · intro hmode
    refine ⟨batches_collecting g h hmode hne halone hreturn, ?_, ?_⟩
    · intro hsame
      by_cases hopen : ∀ m ∈ ms, closesBlock (terminated m.statement) = false
      · exact hopen
      · obtain ⟨pre, m, post, rfl, hcloses, hopen⟩ := exists_first_closing hopen
        obtain ⟨new, hnew, hless⟩ :=
          batches_inBlock_of_closing g h mode halone hreturn hopen hcloses
        have heq : new = [pre ++ m :: post] := List.append_cancel_left (hnew.symm.trans hsame)
        have hweight := hless (pre ++ m :: post) (by rw [heq]; exact List.mem_singleton_self _)
        omega
    · intro hopen
      exact batches_inBlock_of_open g h hmode hne halone hreturn hopen
  · rintro rfl
    exact ⟨batches_collecting_of_initialization g h halone hreturn,
      batches_inBlock_of_initialization g h hne halone hreturn⟩

end

/-- Two insertions with the word `END` in them, neither of which closes a block. -/
def innerEnds : List Modify :=
  [⟨.insertInto, "a", "INSERT INTO a SELECT CASE b WHEN 1 THEN 2 END FROM c"⟩,
    ⟨.insertOverwrite, "d", "INSERT OVERWRITE d SELECT 'END' -- END;"⟩]

theorem forms_agree_innerEnds :
    let console := Console.ofSink .unlimited false .transcript
    let batches script :=
      (runLines .standard script (start keeping console .nonInteractive)).session.console.batches
    console.sink.room = none ∧ innerEnds ≠ [] ∧ (∀ m ∈ innerEnds, StandsAlone m) ∧
      (∀ m ∈ innerEnds, '\r' ∉ m.statement) ∧
      (∀ m ∈ innerEnds, closesBlock (terminated m.statement) = false) ∧
      batches (collecting innerEnds) = [innerEnds] ∧ batches (inBlock innerEnds) = [innerEnds] := by
  intro console batches
  have halone : ∀ m ∈ innerEnds, StandsAlone m := by
    unfold StandsAlone
    decide +kernel
  have hreturn : ∀ m ∈ innerEnds, '\r' ∉ m.statement := by decide +kernel
  have hopen : ∀ m ∈ innerEnds, closesBlock (terminated m.statement) = false := by decide +kernel
  have hroom : console.sink.room = none := rfl
  obtain ⟨hforms, -⟩ :=
    forms_agree_iff keeping hroom .nonInteractive (by decide) halone hreturn
  obtain ⟨hcollecting, hblock⟩ := hforms (by decide)
  exact ⟨rfl, by decide, halone, hreturn, hopen, hcollecting, hblock.2 hopen⟩

/-- An insertion that closes a block. -/
def lastEnd : Modify :=
  ⟨.insertInto, "a", "INSERT INTO a SELECT CASE b WHEN 1 THEN 2 END"⟩

/-- In a block it is truncated, and the script fails behind it. -/
theorem lastEnd_is_truncated :
    let first := start keeping (.ofSink .unlimited false .transcript) .nonInteractive
    let ending := runLines .standard (inBlock [lastEnd]) first
    StandsAlone lastEnd ∧ '\r' ∉ lastEnd.statement ∧
      (runLines .standard (collecting [lastEnd]) first).session.console.batches = [[lastEnd]] ∧
      ending.session.console.batches =
        [[{ lastEnd with statement := "INSERT INTO a SELECT CASE b WHEN 1 THEN 2" }]] ∧
      ending.outcome = .failure := by
  unfold StandsAlone
  decide +kernel

end Session

end SqlConsole
