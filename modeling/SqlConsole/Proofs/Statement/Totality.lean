import SqlConsole.Proofs.Statement.Checked
import SqlConsole.Proofs.Statement.Pointing
/-!
# The parser comes to an end in order

Parsing with everything checked meets no mishap: on every text it gives what `Statement.parse` gives
(`parse_meets_no_mishap`).

Tokens and the terminator begin between two characters, and a token begins in front of those behind
it (`isBoundary_place`, `place_lt_place`, `place_le_bodyEnd`), so every part that the parser takes
is in range.  The `END` that closes a block is behind the first token of the block
(`skipToEnd_of_lastEnd?`), and the words in front of the block make what is inside of it shorter
than the text (`length_textBetween_lt`).
-/

namespace SqlConsole

/-! ## Places of a source -/

section

open Statement

variable {t : Text} {src : Source} {k : Located} {ts us : List Located}

/-- Tokens from the end of a statement begin between two characters, and so does its end. -/
theorem isBoundary_place (h : Source.ofText t = .ok src) (hts : ts <:+ src.tokens) :
    Text.IsBoundary src.text (src.place ts).start.offset := by
  obtain ⟨lexed, hlexed, htext, htokens, hfinish⟩ := exists_lexed_of_ofText h
  have hplace : (∃ k ∈ lexed.tokens, k.span = src.place ts) ∨
      lexed.finish.span = src.place ts := by
    cases ts with
    | nil => exact .inr (congrArg Position.span hfinish.symm)
    | cons k ts => exact .inl ⟨k, htokens ▸ hts.subset List.mem_cons_self, rfl⟩
  obtain ⟨before, hbefore, hbehind⟩ := ParseError.position_of_tokens hlexed hplace
  rw [htext]
  exact ⟨before, hbefore, hbehind.offset.symm⟩

theorem isBoundary_bodyEnd (h : Source.ofText t = .ok src) :
    Text.IsBoundary src.text src.bodyEnd := by
  obtain ⟨body, ending, hbody⟩ := exists_bodyOf h
  refine ⟨body.flatMap Piece.text, ⟨ending.flatMap Piece.text, ?_⟩, hbody.bodyEnd.symm⟩
  rw [← List.flatMap_append, ← hbody.pieces, hbody.text, hbody.closed.flatMap_text]

/-- A token begins in front of those behind it, and of the end of the text. -/
theorem place_lt_place (h : Source.ofText t = .ok src) (hts : k :: ts <:+ src.tokens)
    (hus : us <:+ ts) : k.span.start.offset < (src.place us).start.offset := by
  obtain ⟨lexed, hlexed, -, htokens, hfinish⟩ := exists_lexed_of_ofText h
  rw [htokens] at hts
  obtain ⟨hspan, hstop⟩ := Lexed.spans_of_ofText hlexed k (hts.subset List.mem_cons_self)
  cases us with
  | nil =>
    have hend : (src.place []).start.offset = Text.byteLength t := by
      rw [Source.place, hfinish]
      exact (Lexed.finish_of_ofText hlexed).2
    omega
  | cons u us =>
    have hordered := (Lexed.ordered_of_ofText hlexed).sublist hts.sublist
    have hbehind := (List.pairwise_cons.1 hordered).1
    exact Nat.lt_of_lt_of_le hspan (hbehind u (hus.subset List.mem_cons_self))

theorem place_le_place (h : Source.ofText t = .ok src) (hts : ts <:+ src.tokens)
    (hus : us <:+ ts) : (src.place ts).start.offset ≤ (src.place us).start.offset := by
  cases ts with
  | nil => exact Nat.le_of_eq (by rw [List.suffix_nil.1 hus])
  | cons k ts =>
    rcases List.suffix_cons_iff.1 hus with rfl | hus
    · exact Nat.le_refl _
    · exact Nat.le_of_lt (place_lt_place h hts hus)

/-- A token begins no later than the terminator. -/
theorem place_le_bodyEnd (h : Source.ofText t = .ok src) (hts : ts <:+ src.tokens)
    (hne : ts ≠ []) : (src.place ts).start.offset ≤ src.bodyEnd := by
  obtain ⟨init, last, rfl⟩ := (List.eq_nil_or_concat' ts).resolve_left hne
  have hlast : (src.place (init ++ [last])).start.offset ≤ last.span.start.offset :=
    place_le_place h hts (List.suffix_append init [last])
  have hgetLast : src.tokens.getLast? = some last := by
    obtain ⟨front, hfront⟩ := hts
    rw [← hfront, ← List.append_assoc, List.getLast?_concat]
  have hwithin : last.span.start.offset ≤ Text.byteLength t := by
    obtain ⟨lexed, hlexed, -, htokens, -⟩ := exists_lexed_of_ofText h
    have hspan := Lexed.spans_of_ofText hlexed last (htokens ▸ List.mem_of_getLast? hgetLast)
    omega
  have hend : src.bodyEnd = last.span.start.offset ∨ src.bodyEnd = Text.byteLength t := by
    unfold Source.ofText at h
    split at h
    · cases h
    · next lexed hlexed =>
      cases h
      dsimp only at hgetLast ⊢
      rw [hgetLast]
      dsimp only
      split
      · exact .inl rfl
      · exact .inr rfl
  omega

end

namespace Statement

open StatementParser

variable {α : Type} {src : Source} {ts : List Located}

theorem agrees_advance : Agrees src (liftM advance) advance :=
  .lift (P := Raised src) blames_advance

theorem agrees_eatKeywords (keywords : List Text) :
    Agrees src (liftM (eatKeywords keywords)) (eatKeywords keywords) :=
  .lift (P := Raised src) (blames_eatKeywords keywords)

/-! ## Parts of the statement -/

theorem textBetween_apply {start stop : Nat}
    (h : Text.InRange src.text start (min stop src.bodyEnd)) (ts : List Located) :
    Checked.textBetween start stop src ts = .ok (.ok (src.textBetween start stop, ts)) := by
  show (if Text.InRange src.text start (min stop src.bodyEnd) then _ else _ : CheckedParser Text)
    src ts = _
  rw [if_pos h]
  rfl

theorem agrees_textBetween {start stop : Nat}
    (h : Text.InRange src.text start (min stop src.bodyEnd)) :
    Agrees src (Checked.textBetween start stop) (pure (src.textBetween start stop)) :=
  fun _ hts => ⟨textBetween_apply h _, (Agrees.result _ hts).suffix⟩

/-- A part that is only cut out. -/
theorem AgreesAt.textBetween_bind {start stop : Nat} {d : Text → CheckedParser α}
    {m : StatementParser α} (hpart : Text.InRange src.text start (min stop src.bodyEnd))
    (h : AgreesAt src ts (d (src.textBetween start stop)) m) :
    AgreesAt src ts (Checked.textBetween start stop >>= d) m := by
  refine ⟨?_, h.suffix⟩
  rw [checked_bind, textBetween_apply hpart]
  exact h.same

section

variable {t : Text} (h : Source.ofText t = .ok src)
include h

theorem agrees_body : Agrees src Checked.body (read >>= fun src => pure src.body) := by
  refine .read_bind (agrees_textBetween ?_)
  rw [Nat.min_self]
  exact (Text.isBoundary_zero _).inRange (isBoundary_bodyEnd h) (Nat.zero_le _)

theorem agrees_restText : Agrees src Checked.restText restText := by
  intro ts hts
  refine .read_bind (.here_bind (agrees_textBetween ?_ hts))
  rw [Nat.min_self]
  exact ((isBoundary_place h hts).min (isBoundary_bodyEnd h)).inRange (isBoundary_bodyEnd h)
    (Nat.min_le_right _ _)

/-- Where something is left, a key goes from there to an `=` or to the end. -/
theorem agreesAt_propertyKey (hts : ts <:+ src.tokens) (hne : ts ≠ []) :
    AgreesAt src ts Checked.propertyKey propertyKey := by
  refine .get_bind ?_
  cases ts.head?.bind (·.token.string?) with
  | some key => exact (agrees_advance.bind fun _ => .result key) hts
  | none =>
    have hus : skipToEquals ts <:+ ts := suffix_skipToEquals ts
    have hpart : Text.InRange src.text (src.place ts).start.offset
        (min (src.place (skipToEquals ts)).start.offset src.bodyEnd) := by
      refine (isBoundary_place h hts).inRange
        ((isBoundary_place h (hus.trans hts)).min (isBoundary_bodyEnd h)) ?_
      exact Nat.le_min.2 ⟨place_le_place h hts hus, place_le_bodyEnd h hts hne⟩
    refine .here_bind (.get_bind (.goto_bind (.of_read (.here_bind ?_))))
    exact agrees_textBetween hpart (hus.trans hts)

theorem agrees_lastValue : Agrees src Checked.lastValue lastValue := by
  refine .get_bind fun ts hts => ?_
  cases ts.head?.bind (·.token.string?) with
  | some value =>
    exact agrees_advance.bind fun _ => (Agrees.lift blames_expectEnd).bind fun _ => .result value
  | none => exact agrees_restText h

theorem agrees_set : Agrees src Checked.set set := by
  refine agrees_advance.bind fun _ ts hts => .get_bind ?_
  refine .ite (fun _ => Agrees.result _ hts) fun hend => ?_
  have hne : ts ≠ [] := by
    rintro rfl
    exact hend rfl
  refine (agreesAt_propertyKey h hts hne).bind fun key us hus _ => ?_
  refine (Agrees.lift (blames_expectSymbol '=')).bind (fun _ => ?_) hus
  exact .unlessAtEnd ((agrees_lastValue h).bind fun _ => .result _)

theorem agrees_reset : Agrees src Checked.reset reset :=
  agrees_advance.bind fun _ => .get_bind fun _ _ =>
    .ite (.result _) ((agrees_lastValue h).bind fun _ => .result _)

/-- The statement of an insertion begins with its keyword. -/
theorem agrees_insert : Agrees src Checked.insert insert := by
  intro ts hts
  rw [insert_eq]
  refine .here_bind ((Agrees.lift blames_insertHeading hts).bind fun heading us hus hheading => ?_)
  obtain ⟨_, _, hkeyword, -⟩ := ok_of_run_bind hheading
  obtain ⟨k, hk, -⟩ := eq_cons_of_expectKeyword hkeyword
  have hpart : Text.InRange src.text (src.place ts).start.offset
      (min src.bodyEnd src.bodyEnd) := by
    rw [Nat.min_self]
    refine (isBoundary_place h hts).inRange (isBoundary_bodyEnd h) (place_le_bodyEnd h hts ?_)
    rw [hk]
    exact List.cons_ne_nil _ _
  exact .read_bind ((agrees_textBetween hpart hus).bind fun _ _ hvs _ => Agrees.result _ hvs)

theorem agrees_explain : Agrees src Checked.explain explain := by
  have hstatement : Agrees src
      (do
        if atEnd (← get) then unexpected "statement to explain"
        return Operation.explain (← Checked.restText))
      (do
        if atEnd (← get) then unexpected "statement to explain"
        return Operation.explain (← restText)) :=
    .unlessAtEnd ((agrees_restText h).bind fun _ => .result _)
  refine agrees_advance.bind fun _ => (agrees_eatKeywords ["PLAN", "FOR"]).bind fun _ => ?_
  refine .ite (.get_bind fun ts hts => ?_) hstatement
  have hgoto : Blames (Raised src) src (goto (skipDetails false ts)) :=
    blames_goto ((suffix_skipDetails false ts).trans hts)
  exact (Agrees.lift hgoto).bind fun _ => hstatement

theorem agrees_definition (verb : Text) (guard : List Text) :
    Agrees src (Checked.definition verb guard) (definition verb guard) :=
  (Agrees.lift (blames_expectKeyword verb)).bind fun _ =>
    (agrees_eatKeywords ["OR", "REPLACE"]).bind fun _ =>
    (agrees_eatKeywords ["TEMPORARY"]).bind fun _ => (agrees_eatKeywords ["SYSTEM"]).bind fun _ =>
    (Agrees.lift blames_objectKind).bind fun _ => (agrees_eatKeywords guard).bind fun _ =>
    (Agrees.lift blames_expectName).bind fun _ => (agrees_body h).bind fun _ => .result _

theorem agrees_create : Agrees src Checked.create create :=
  (agrees_definition h "CREATE" _).bind fun _ => .get_bind fun _ _ => .ite (.result _) (.result _)

theorem agrees_use : Agrees src Checked.use use := by
  have hend (target : UseTarget) : Agrees src
      (do
        expectEnd
        return Operation.use target (← Checked.body))
      (do
        expectEnd
        return Operation.use target (← read).body) :=
    (Agrees.lift blames_expectEnd).bind fun _ => (agrees_body h).bind fun _ => .result _
  refine agrees_advance.bind fun _ => (agrees_eatKeywords ["CATALOG"]).bind fun _ => ?_
  refine .ite ?_ ((agrees_eatKeywords ["MODULES"]).bind fun _ => .ite ?_ ?_)
  · exact (Agrees.lift blames_expectIdentifier).bind fun _ => (Agrees.result _).bind hend
  · exact (Agrees.lift (blames_expectIdentifiers ',')).bind fun _ => (Agrees.result _).bind hend
  · exact (Agrees.lift blames_expectName).bind fun _ => (Agrees.result _).bind hend

end

/-! ## Blocks -/

section

variable {checked : CheckedParse} {inner : Text → Except ParseError (Option Operation)}

theorem insertsOf_checked {place : Span} {ss : List Text}
    (hss : ∀ s ∈ ss, checked s = .ok (inner s)) :
    Checked.insertsOf checked place ss = .ok (insertsOf inner place ss) := by
  induction ss with
  | nil => rfl
  | cons s ss ih =>
    have hs := hss s List.mem_cons_self
    have hrest := ih fun u hu => hss u (List.mem_cons_of_mem s hu)
    rw [Checked.insertsOf, insertsOf, hs]
    cases inner s with
    | error e => rfl
    | ok found =>
      cases found with
      | none => exact hrest
      | some op =>
        cases op with
        | insert m =>
          show (Checked.insertsOf checked place ss >>= fun ms => pure (m :: ms)) = _
          rw [hrest]
          cases insertsOf inner place ss <;> rfl
        | _ => rfl

theorem skipToEnd_eq_dropWhile {e : Located} (he : e ∈ ts) (hend : e.token.isKeyword "END") :
    Checked.skipToEnd e.span.start.offset ts = some (ts.dropWhile fun t =>
      !(t.token.isKeyword "END" && t.span.start.offset == e.span.start.offset)) := by
  induction ts with
  | nil => cases he
  | cons t ts ih =>
    rw [Checked.skipToEnd, List.dropWhile_cons, Checked.isAtEnd]
    cases hthis : t.token.isKeyword "END" && t.span.start.offset == e.span.start.offset with
    | true => rfl
    | false =>
      rcases List.mem_cons.1 he with rfl | he
      · rw [hend, beq_self_eq_true] at hthis
        cases hthis
      · exact ih he

/-- The end of a block is found again from its beginning on. -/
theorem skipToEnd_of_lastEnd? {t : Text} {stop : Nat} (h : Source.ofText t = .ok src)
    (hts : ts <:+ src.tokens)
    (hend : lastEnd? (src.place ts).start.offset src.tokens = some stop) :
    Checked.skipToEnd stop ts =
      some (ts.dropWhile fun t => !(t.token.isKeyword "END" && t.span.start.offset == stop)) := by
  obtain ⟨before, e, behind, htokens, hkeyword, rfl, hle⟩ := exists_of_lastEnd? hend
  refine skipToEnd_eq_dropWhile ?_ hkeyword
  have hsuffix : e :: behind <:+ src.tokens := ⟨before, htokens.symm⟩
  rcases List.suffix_or_suffix_of_suffix hsuffix hts with hinside | hbehind
  · exact hinside.subset List.mem_cons_self
  · -- otherwise the block would begin behind its end
    rcases List.suffix_cons_iff.1 hbehind with rfl | hbehind
    · exact List.mem_cons_self
    · have hlt := place_lt_place h hsuffix hbehind
      omega

/-- What a block holds is a part of the statement. -/
theorem inRange_of_lastEnd? {t : Text} {stop : Nat} (h : Source.ofText t = .ok src)
    (hts : ts <:+ src.tokens)
    (hend : lastEnd? (src.place ts).start.offset src.tokens = some stop) :
    Text.InRange src.text (src.place ts).start.offset (min stop src.bodyEnd) := by
  obtain ⟨before, e, behind, htokens, -, rfl, hle⟩ := exists_of_lastEnd? hend
  have hsuffix : e :: behind <:+ src.tokens := ⟨before, htokens.symm⟩
  have hbody : e.span.start.offset ≤ src.bodyEnd :=
    place_le_bodyEnd h hsuffix (List.cons_ne_nil e behind)
  rw [Nat.min_eq_left hbody]
  exact (isBoundary_place h hts).inRange (isBoundary_place h hsuffix) hle

/-- A part that does not begin the statement is shorter. -/
theorem length_textBetween_lt {start stop : Nat} (hpos : 0 < start)
    (h : Text.InRange src.text start (min stop src.bodyEnd)) :
    (src.textBetween start stop).length < src.text.length := by
  obtain ⟨part, hpart⟩ := Text.exists_slice?_iff.2 h
  have hle := Text.length_trim_le part
  obtain ⟨before, behind, htext, rfl, -⟩ := Text.slice?_eq_some_iff.1 hpart
  have hbefore : before ≠ [] := by
    rintro rfl
    exact absurd hpos (Nat.lt_irrefl 0)
  have hlength := congrArg List.length htext
  have hne := List.length_pos_iff.2 hbefore
  rw [List.length_append, List.length_append] at hlength
  rw [Source.textBetween, hpart, Option.getD_some]
  omega

section

variable {t : Text} (h : Source.ofText t = .ok src)
  (hinner : ∀ s, s.length < src.text.length → checked s = .ok (inner s))
include h hinner

/-- A block that does not begin the text. -/
theorem agreesAt_block (hts : ts <:+ src.tokens) (hpos : 0 < (src.place ts).start.offset) :
    AgreesAt src ts (Checked.block checked) (block inner) := by
  refine .read_bind (.here_bind ?_)
  dsimp only
  cases hend : lastEnd? (src.place ts).start.offset src.tokens with
  | none => exact Agrees.fault _ hts
  | some stop =>
    have hpart := inRange_of_lastEnd? h hts hend
    have hshorter : ∀ s ∈ Script.split (src.textBetween (src.place ts).start.offset stop),
        checked s = .ok (inner s) := by
      intro s hs
      refine hinner s (Nat.lt_of_le_of_lt ?_ (length_textBetween_lt hpos hpart))
      exact (Script.infix_of_mem_split hs).length_le
    refine .textBetween_bind hpart ?_
    rw [insertsOf_checked hshorter]
    refine .found_bind fun modifies _ => .get_bind ?_
    rw [skipToEnd_of_lastEnd? h hts hend]
    have hclosing : Agrees src
        (do
          advance
          expectEnd
          return Operation.statementSet modifies)
        (do
          advance
          expectEnd
          return Operation.statementSet modifies) :=
      agrees_advance.bind fun _ => (Agrees.lift blames_expectEnd).bind fun _ => .result _
    exact .goto_bind (hclosing ((List.dropWhile_suffix _).trans hts))

theorem agreesAt_execute {k : Located} (hts : k :: ts <:+ src.tokens) :
    AgreesAt src (k :: ts) (Checked.execute checked) (execute inner) := by
  refine (agrees_advance hts).bind fun _ us hus hadvance => ?_
  cases hadvance
  refine (agrees_eatKeywords _ hus).bind fun found vs hvs heat => ?_
  refine .ite (fun hfound => ?_) fun _ => ?_
  · rw [hfound] at heat
    obtain ⟨-, rfl⟩ := eq_of_eatKeywords heat
    have hplace := place_lt_place h hts (List.drop_suffix 3 ts)
    exact agreesAt_block h hinner hvs (Nat.lt_of_le_of_lt (Nat.zero_le _) hplace)
  · refine .get_bind (.ite (fun _ => ?_) fun _ => ?_)
    · exact ((agrees_insert h).bind fun _ => .result _) hvs
    · exact Agrees.lift (Blames.unexpected _) hvs

/-- Whatever a statement begins with, its checked parser does what its parser does. -/
theorem agreesAt_ofOpening {k : Located} (hts : k :: ts <:+ src.tokens) (opening : Opening) :
    AgreesAt src (k :: ts) (Checked.ofOpening checked opening) (ofOpening inner opening) := by
  have hplain (hopening : opening ≠ .execute) :
      Agrees src (liftM (ofOpening inner opening)) (ofOpening inner opening) :=
    .lift (blames_ofOpening hopening)
  cases opening with
  | quit | clear | help | endSet | beginSet | addJar | removeJar | load | unload | stop =>
    exact hplain nofun hts
  | set => exact agrees_set h hts
  | reset => exact agrees_reset h hts
  | insert => exact ((agrees_insert h).bind fun _ => .result _) hts
  | query | passed => exact ((agrees_body h).bind fun _ => .result _) hts
  | explain => exact agrees_explain h hts
  | execute => exact agreesAt_execute h hinner hts
  | showing =>
    refine .get_bind (.ite (fun _ => ?_) fun _ => ?_)
    · exact Agrees.lift blames_showCreate hts
    · exact ((agrees_body h).bind fun _ => .result _) hts
  | create => exact agrees_create h hts
  | drop => exact ((agrees_definition h "DROP" _).bind fun _ => .result _) hts
  | alter => exact ((agrees_definition h "ALTER" _).bind fun _ => .result _) hts
  | use => exact agrees_use h hts

theorem agreesAt_firstWord {k : Located} (hts : k :: ts <:+ src.tokens) :
    AgreesAt src (k :: ts) (Checked.firstWord checked k) (firstWord inner k) := by
  have hunexpected : Agrees src
      (liftM (unexpected "statement keyword" : StatementParser (Option Operation)))
      (unexpected "statement keyword") := .lift (.unexpected _)
  cases htoken : k.token with
  | word w =>
    unfold Checked.firstWord firstWord
    rw [htoken]
    dsimp only
    cases Opening.ofWord? w with
    | some opening =>
      exact (agreesAt_ofOpening h hinner hts opening).bind fun op us hus _ => Agrees.result _ hus
    | none => exact Agrees.fault _ hts
  | symbol c =>
    by_cases hc : c = '('
    · subst hc
      unfold Checked.firstWord firstWord
      rw [htoken]
      exact ((agrees_body h).bind fun _ => .result _) hts
    · rw [Checked.firstWord_of_symbol hc htoken, firstWord_of_symbol hc htoken]
      exact hunexpected hts
  | quoted | string | number =>
    unfold Checked.firstWord firstWord
    rw [htoken]
    exact hunexpected hts

theorem agreesAt_operation :
    AgreesAt src src.tokens (Checked.operation checked) (operation inner) := by
  have hwhole : src.tokens <:+ src.tokens := List.suffix_rfl
  have hreject : AgreesAt src src.tokens (liftM rejectInnerTerminators) rejectInnerTerminators := by
    refine ⟨rfl, fun a us ha => ?_⟩
    obtain ⟨rfl, -⟩ := eq_of_rejectInnerTerminators ha
    exact hwhole
  refine .get_bind (.ite (fun _ => Agrees.result _ hwhole) fun _ => ?_)
  refine hreject.bind fun _ us hus _ => .get_bind ?_
  cases us with
  | nil => exact Agrees.result _ hus
  | cons k ts => exact agreesAt_firstWord h hinner hus

end

end

/-- **Nothing keeps the parser from coming to an end in order.**  On every text, each part that it
takes is in range, the way to the `END` of a block has an end, and each statement that it parses
inside of the text is shorter than the text. -/
theorem parse_meets_no_mishap (t : Text) : Checked.parse t = .ok (parse t) := by
  induction hlength : t.length using Nat.strongRecOn generalizing t with
  | ind n ih =>
    subst hlength
    rw [Checked.parse_eq, parse_eq]
    cases hsrc : Source.ofText t with
    | error e => rfl
    | ok src =>
      obtain ⟨-, -, htext, -⟩ := exists_lexed_of_ofText hsrc
      have hinner (s : Text) (hs : s.length < src.text.length) :
          Checked.inside t s = .ok (inside t s) := by
        rw [htext] at hs
        rw [Checked.inside, if_pos hs, inside, if_pos hs]
        exact ih s.length hs s rfl
      have hoperation := (agreesAt_operation hsrc hinner).same
      dsimp only
      rw [hoperation]
      show Except.ok ((operation (inside t) src src.tokens).map Prod.fst) =
        .ok ((operation (inside t) src src.tokens).bind fun found => .ok found.1)
      cases operation (inside t) src src.tokens <;> rfl

end Statement

end SqlConsole
