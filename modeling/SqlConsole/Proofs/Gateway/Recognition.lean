import SqlConsole.Gateway.Local
import SqlConsole.Proofs.Script.Words
/-!
# Statements that the gateway answers by their words

`SHOW` and `DESCRIBE` statements are handed on as text, and the gateway knows them by the words
between blanks.  A listing is heard exactly if its text has no comment, and a `DESCRIBE` if its text
begins with that word and a blank stands behind it (`Heard`).  What is not heard is acknowledged.
Two statements with the same tokens are answered alike exactly if both of them are heard or neither
is, and their second words are found alike (`same_answer_iff`).
-/

namespace SqlConsole

namespace Local

open Piece Script Statement

variable {g : Local} {s : Text} {l : Listing}

/-! ## What is heard -/

/-- Some tokens are the words of a listing. -/
def Listed (ks : List Token) (l : Listing) : Prop :=
  ∃ ws : List Text, ks = ws.map .word ∧ listings.lookup (ws.map Text.upper) = some l

/-- The text begins with the word `DESCRIBE`, and nothing but a blank stands behind it. -/
def Describes (s : Text) : Prop :=
  ∃ w rest, s = w ++ rest ∧ (Text.upper w = "DESCRIBE" ∨ Text.upper w = "DESC") ∧
    ∀ c ∈ rest.head?, isBlank c

/-- The text is a listing without comments, or it begins with the word `DESCRIBE`. -/
def Heard (s : Text) : Prop := (hasComment s = false ∧ ∃ l, Listed (tokens s) l) ∨ Describes s

/-- What the statements that are kept as text have in common. -/
structure Kept (s : Text) : Prop where
  trimmed : Text.trim s = s
  closed : Closed s
  unterminated : .symbol ';' ∉ tokens s

theorem kept_of_parse {t : Text} (h : parse t = .ok (some (.other s))) : Kept s := by
  obtain ⟨htrim, ⟨lexed, hlexed, hnone⟩, -⟩ := canonical_body h rfl nofun
  obtain ⟨hclosed, htokens⟩ := Lexed.closed_of_ofText hlexed
  refine ⟨htrim, hclosed, fun hmem => ?_⟩
  rw [← htokens] at hmem
  obtain ⟨k, hk, hterminator⟩ := List.mem_map.1 hmem
  exact hnone k hk hterminator

/-- The words of a listing are spelled with letters, and the first of them is `SHOW`. -/
theorem words_of_mem_listings : ∀ entry ∈ listings, (∀ w ∈ entry.1, w.all Char.isUpper) ∧
    entry.1.head? = some ("SHOW" : Text) := by decide

theorem mem_listings {words : List Text} (h : listings.lookup words = some l) :
    (words, l) ∈ listings := by
  obtain ⟨before, behind, hlistings, -⟩ := List.lookup_eq_some_iff.1 h
  rw [hlistings]
  exact List.mem_append_right _ List.mem_cons_self

/-- The words between blanks are those of a listing exactly if the text has no comment and its
tokens are the words of the listing. -/
theorem lookup_words_iff (hs : Kept s) :
    listings.lookup ((Text.words (Text.dropTerminators (Text.trim s))).map Text.upper) = some l ↔
      hasComment s = false ∧ Listed (tokens s) l := by
  have hwords (hplain : ∀ p ∈ (cut s).pieces, p.isPlain) :
      Text.words (Text.dropTerminators (Text.trim s)) = Text.words s := by
    have hdrop := Text.dropTerminators_append (not_mem_of_isPlain hs.closed hplain) []
    rw [List.append_nil] at hdrop
    rw [hs.trimmed, hdrop]
    exact congrArg Text.words (List.append_nil s)
  constructor
  · intro hlookup
    have hchars : ∀ c ∈ s, isBlank c ∨ c = ';' ∨ 'A' ≤ c.toUpper ∧ c.toUpper ≤ 'Z' := by
      intro c hc
      rw [← hs.trimmed] at hc
      rcases Text.mem_of_dropEndWhile (p := (· == ';')) hc with hc | hc
      · refine (Text.mem_words hc).imp_right fun ⟨w, hw, hin⟩ => .inr ?_
        have hletters := (words_of_mem_listings _ (mem_listings hlookup)).1 (Text.upper w)
          (List.mem_map_of_mem hw)
        exact of_decide_eq_true
          (List.all_eq_true.1 hletters c.toUpper (List.mem_map_of_mem hin))
      · exact .inr (.inl (beq_iff_eq.1 hc))
    have hplain := isPlain_of_chars hchars hs.unterminated
    rw [hwords hplain] at hlookup
    refine ⟨List.any_eq_false.2 fun p hp => ?_, Text.words s, tokens_of_isPlain hs.closed hplain,
      hlookup⟩
    rcases cases_of_isPlain ((glued_of_cut s).wellFormed p hp) (hplain p hp) with
      ⟨b, rfl, -⟩ | ⟨c, w, rfl, -⟩
    · exact Bool.false_ne_true
    · exact Bool.false_ne_true
  · intro h
    obtain ⟨hcomment, ws, htokens, hlookup⟩ := h
    have hplain : ∀ p ∈ (cut s).pieces, p.isPlain := by
      intro p hp
      cases p with
      | blank => rfl
      | comment => exact (List.any_eq_false.1 hcomment _ hp rfl).elim
      | token k lexeme =>
        have hk : k ∈ tokens s := List.mem_filterMap.2 ⟨_, hp, rfl⟩
        rw [htokens] at hk
        obtain ⟨w, -, rfl⟩ := List.mem_map.1 hk
        rfl
    have hsame := tokens_of_isPlain hs.closed hplain
    rw [htokens] at hsame
    rw [hwords hplain, ← (List.map_inj_right fun _ _ => Token.word.inj).1 hsame, hlookup]

/-- The first token of a text that begins with a word of letters. -/
theorem tokens_of_first {keyword w rest : Text} (hkeyword : keyword ≠ [])
    (hletters : keyword.all Char.isUpper) (hw : Text.upper w = keyword)
    (hrest : ∀ c ∈ rest.head?, isBlank c ∨ c = ';') :
    tokens (w ++ rest) = .word w :: tokens rest := by
  refine tokens_keyword_append hkeyword hletters hw fun d hd => ?_
  rcases hrest d hd with hblank | rfl
  · exact inWord_of_isBlank hblank
  · exact inWord_signs ';' (by decide)

theorem describing {w : Text} (hw : Text.upper w = "DESCRIBE" ∨ Text.upper w = "DESC") :
    Text.upper w ≠ [] ∧ (Text.upper w).all Char.isUpper := by
  rcases hw with hw | hw
  · rw [hw]
    decide
  · rw [hw]
    decide

/-- The first word between blanks is `DESCRIBE` exactly if the text begins with it and nothing but a
blank stands behind it. -/
theorem describes_iff (hs : Kept s) :
    (((Text.words (Text.dropTerminators (Text.trim s))).map Text.upper).head?.any
      fun w => w == ("DESCRIBE" : Text) || w == ("DESC" : Text)) ↔ Describes s := by
  rw [hs.trimmed, List.head?_map]
  constructor
  · intro h
    cases hwords : Text.words (Text.dropTerminators s) with
    | nil =>
      rw [hwords] at h
      cases h
    | cons w ws =>
      rw [hwords] at h
      have hw : Text.upper w = "DESCRIBE" ∨ Text.upper w = "DESC" := by
        simpa using h
      have hstart : ∀ c ∈ (Text.dropTerminators s).head?, isBlank c = false := by
        intro c hc
        have hhead := Text.head?_dropEndWhile hc
        rw [← hs.trimmed] at hhead
        exact Text.head?_trim hhead
      obtain ⟨rest, htext, hblank, -⟩ := Text.exists_of_words_eq_cons hstart hwords
      have hwhole := Text.dropEndWhile_append (· == ';') s
      rw [show Text.dropEndWhile (· == ';') s = w ++ rest from htext, List.append_assoc] at hwhole
      refine ⟨w, _, hwhole.symm, hw, fun c hc => ?_⟩
      have hends : ∀ d ∈ (rest ++ (s.reverse.takeWhile (· == ';')).reverse).head?,
          isBlank d ∨ d = ';' := by
        intro d hd
        cases rest with
        | nil =>
          have hin := List.mem_reverse.1 (List.mem_of_mem_head? hd)
          exact .inr (beq_iff_eq.1 (List.all_eq_true.1 List.all_takeWhile d hin))
        | cons b rest => exact .inl (hblank d hd)
      rcases hends c hc with hc' | rfl
      · exact hc'
      · obtain ⟨r, hr⟩ := List.head?_eq_some_iff.1 hc
        have htokens := tokens_of_first (describing hw).1 (describing hw).2 rfl hends
        have hread : read ';' r = .ok (.token (.symbol ';') [';'], r) := rfl
        rw [hwhole, hr, tokens_of_read hread] at htokens
        refine (hs.unterminated ?_).elim
        rw [htokens]
        exact List.mem_cons_of_mem _ List.mem_cons_self
  · intro h
    obtain ⟨w, rest, rfl, hw, hblank⟩ := h
    have hletter := beginsWord_of_upper (describing hw).2 rfl
    have hne : w ≠ [] := by
      intro hnil
      rw [hnil] at hw
      exact absurd hw (by decide)
    have hplain : ∀ c ∈ w, c ≠ ';' := by
      intro c hc heq
      have hbegins := (hletter c hc).1
      rw [heq] at hbegins
      exact absurd hbegins (by decide)
    have hfirst := Text.words_of_forall hne fun c hc => (hletter c hc).2.1
    rw [Text.dropTerminators_append hplain]
    have hhead : (Text.words (w ++ Text.dropTerminators rest)).head? = some w := by
      cases hrest : Text.dropTerminators rest with
      | nil =>
        rw [List.append_nil, hfirst]
        rfl
      | cons b r =>
        have hb : b ∈ rest.head? := by
          refine Text.head?_dropEndWhile (p := (· == ';')) ?_
          rw [show Text.dropEndWhile (· == ';') rest = b :: r from hrest]
          rfl
        rw [Text.words_append_cons (hblank b hb), hfirst]
        rfl
    rw [hhead]
    simpa using hw

/-! ## What is answered -/

/-- A listing does not begin with the word `DESCRIBE`. -/
theorem not_describes_of_listed (hl : Listed (tokens s) l) : ¬ Describes s := by
  intro h
  obtain ⟨w, rest, rfl, hw, hblank⟩ := h
  obtain ⟨ws, htokens, hlookup⟩ := hl
  rw [tokens_of_first (describing hw).1 (describing hw).2 rfl fun c hc => .inl (hblank c hc)]
    at htokens
  have hshow := (words_of_mem_listings _ (mem_listings hlookup)).2
  cases ws with
  | nil => cases htokens
  | cons v ws =>
    obtain rfl := Token.word.inj (List.cons.inj htokens).1
    rw [Option.some.inj hshow] at hw
    exact absurd hw (by decide)

theorem answerWords_of_listed (hs : Kept s) (hcomment : hasComment s = false)
    (hl : Listed (tokens s) l) : g.answerWords s = .ok (g.list l) := by
  have hlookup := (lookup_words_iff hs).2 ⟨hcomment, hl⟩
  unfold answerWords
  dsimp only
  rw [hlookup]

theorem lookup_of_not_listed (hs : Kept s)
    (h : ¬ (hasComment s = false ∧ ∃ l, Listed (tokens s) l)) :
    listings.lookup ((Text.words (Text.dropTerminators (Text.trim s))).map Text.upper) = none := by
  cases hlookup : listings.lookup
      ((Text.words (Text.dropTerminators (Text.trim s))).map Text.upper) with
  | none => rfl
  | some l =>
    obtain ⟨hcomment, hl⟩ := (lookup_words_iff hs).1 hlookup
    exact (h ⟨hcomment, l, hl⟩).elim

theorem answerWords_of_describes (hs : Kept s) (hd : Describes s) :
    g.answerWords s = describe g.catalog s := by
  have hlookup := lookup_of_not_listed hs fun h =>
    not_describes_of_listed h.2.choose_spec hd
  unfold answerWords
  dsimp only
  rw [hlookup, if_pos ((describes_iff hs).2 hd)]

/-- What is not heard is acknowledged. -/
theorem answerWords_of_not_heard (hs : Kept s) (h : ¬ Heard s) : g.answerWords s = .ok .ok := by
  have hlookup := lookup_of_not_listed hs fun hlisted => h (.inl hlisted)
  unfold answerWords
  dsimp only
  rw [hlookup, if_neg fun hd => h (.inr ((describes_iff hs).1 hd))]

/-- What is found under a name: the statement that created the object, or else the full name that
nothing is stored under. -/
def find (c : Catalog) (name : Text) : Except Text Text :=
  match c.get? name with
  | some object => .ok object.ddl
  | none => .error (c.qualify name)

/-- The second word of a text, which a `DESCRIBE` names its object with. -/
def secondWord (s : Text) : Text := Text.dropTerminators ((Text.words s)[1]?.getD [])

theorem describe_eq (c : Catalog) (s : Text) : describe c s =
    match find c (secondWord s) with
    | .ok ddl => .ok (.text "ddl" ddl)
    | .error full => .error (.notFound .table full) := by
  unfold describe find secondWord
  dsimp only
  cases c.get? (Text.dropTerminators ((Text.words s)[1]?.getD [])) with
  | some object => rfl
  | none => rfl

theorem describe_eq_iff {c : Catalog} {s t : Text} :
    describe c s = describe c t ↔ find c (secondWord s) = find c (secondWord t) := by
  rw [describe_eq, describe_eq]
  constructor
  · intro h
    split at h
    · next ddl hs =>
      split at h
      · next ddl' ht =>
        rw [hs, ht]
        simpa [TableResult.text, TableResult.content, Row.insert] using h
      · cases h
    · next full hs =>
      split at h
      · cases h
      · next full' ht =>
        rw [hs, ht]
        simpa using h
  · intro h
    rw [h]

theorem hasContent_list (g : Local) (l : Listing) : (g.list l).hasContent := by
  cases l <;> rfl

/-- What is heard is not answered by an acknowledgement. -/
theorem answerWords_ne_of_heard (hs : Kept s) (h : Heard s) : g.answerWords s ≠ .ok .ok := by
  intro hanswer
  rcases h with ⟨hcomment, l, hl⟩ | hd
  · rw [answerWords_of_listed hs hcomment hl] at hanswer
    have hcontent := hasContent_list g l
    rw [Except.ok.inj hanswer] at hcontent
    cases hcontent
  · rw [answerWords_of_describes hs hd, describe_eq] at hanswer
    split at hanswer
    · cases hanswer
    · cases hanswer

/-- The text of a statement has its tokens, the terminator aside. -/
theorem tokens_of_parse {t : Text} (h : parse t = .ok (some (.other s))) :
    tokens s = substance t := by
  have hnone := (kept_of_parse h).unterminated
  obtain ⟨src, k, ts, left, hsrc, -, -, -, hword⟩ := parse_eq_ok_some_iff.1 h
  have hbody : s = src.body := by
    rcases cases_of_firstWord hword with ⟨w, opening, op, -, -, hfound, hop⟩ | ⟨-, hfound⟩
    · obtain rfl := Option.some.inj hfound
      have hkeeps := opening.keepsBody_of_kind _ (kind_of_ofOpening hop) (kind_of_kept rfl)
        fun hinsert => by cases hinsert
      exact keepsText_ofOpening hkeeps _ _ _ hop s rfl
    · cases hfound
  obtain ⟨body, ending, hpieces⟩ := exists_bodyOf hsrc
  have htokens : tokens s = body.filterMap token? := by
    have hinfix : (cut t).pieces = [] ++ body ++ ending := hpieces.pieces
    rw [hbody, hpieces.body_eq, tokens_trim, tokens, cut_of_pieces_eq_infix hinfix]
  have hending : (ending.filterMap token?).filter (· ≠ .symbol ';') = [] := by
    rcases hpieces.terminated with ⟨rfl, -⟩ | ⟨lexeme, behind, rfl, hbehind⟩
    · rfl
    · simp [token?, hbehind]
  have hwhole : tokens t = tokens s ++ ending.filterMap token? := by
    rw [htokens, tokens, hpieces.pieces, List.filterMap_append]
  rw [substance, hwhole, List.filter_append, hending, List.append_nil]
  refine (List.filter_eq_self.2 fun k hk => ?_).symm
  exact decide_eq_true fun heq => hnone (heq ▸ hk)

/-- **Statements with the same tokens are answered alike** exactly if both are heard or neither is,
and what two of them describe is found alike. -/
theorem same_answer_iff {t t' s s' : Text} {ks : List Token} (g : Local)
    (ht : Lexed.kinds? t = some ks) (ht' : Lexed.kinds? t' = some ks)
    (hparse : parse t = .ok (some (.other s))) (hparse' : parse t' = .ok (some (.other s'))) :
    (g.execute (.other s)).1 = (g.execute (.other s')).1 ↔
      (Heard s ↔ Heard s') ∧ (Describes s → Describes s' →
        find g.catalog (secondWord s) = find g.catalog (secondWord s')) := by
  have hs := kept_of_parse hparse
  have hs' := kept_of_parse hparse'
  have htokens : tokens s = tokens s' := by
    rw [tokens_of_parse hparse, tokens_of_parse hparse', substance, substance,
      (Lexed.kinds?_eq_some_iff.1 ht).2, (Lexed.kinds?_eq_some_iff.1 ht').2]
  have hanswer (s : Text) : (g.execute (.other s)).1 = g.answerWords s := rfl
  rw [hanswer, hanswer]
  by_cases h : Heard s
  · by_cases h' : Heard s'
    · rw [and_iff_right (iff_of_true h h')]
      rcases h with ⟨hcomment, l, hl⟩ | hd
      · have hl' : Listed (tokens s') l := htokens ▸ hl
        have hcomment' := (h'.resolve_right (not_describes_of_listed hl')).1
        rw [answerWords_of_listed hs hcomment hl, answerWords_of_listed hs' hcomment' hl']
        exact iff_of_true rfl fun hd => (not_describes_of_listed hl hd).elim
      · have hd' : Describes s' := by
          refine h'.resolve_left fun hlisted => ?_
          obtain ⟨l, hl⟩ := hlisted.2
          exact not_describes_of_listed (htokens ▸ hl) hd
        rw [answerWords_of_describes hs hd, answerWords_of_describes hs' hd', describe_eq_iff]
        exact ⟨fun hfound _ _ => hfound, fun hfound => hfound hd hd'⟩
    · refine iff_of_false (fun hsame => ?_) fun hboth => h' (hboth.1.1 h)
      rw [answerWords_of_not_heard hs' h'] at hsame
      exact answerWords_ne_of_heard hs h hsame
  · by_cases h' : Heard s'
    · refine iff_of_false (fun hsame => ?_) fun hboth => h (hboth.1.2 h')
      rw [answerWords_of_not_heard hs h] at hsame
      exact answerWords_ne_of_heard hs' h' hsame.symm
    · refine iff_of_true ?_ ⟨iff_of_false h h', fun hd => (h (.inr hd)).elim⟩
      rw [answerWords_of_not_heard hs h, answerWords_of_not_heard hs' h']

/-- A gateway without any objects. -/
def blankLocal : Local := ofDefaults ∅ defaultSavepointDir {}

theorem same_answer_trailingComment :
    Lexed.kinds? "DESC\n t /* its columns */;" = Lexed.kinds? "DESC t;" ∧
      (blankLocal.execute (.other "DESC\n t /* its columns */")).1 =
        (blankLocal.execute (.other "DESC t")).1 := by
  have hkinds : Lexed.kinds? "DESC t;" = some [.word "DESC", .word "t", .symbol ';'] := by
    decide +kernel
  have hcommented : Lexed.kinds? "DESC\n t /* its columns */;" =
      some [.word "DESC", .word "t", .symbol ';'] := by decide +kernel
  have hparse : parse "DESC t;" = .ok (some (.other "DESC t")) := by decide +kernel
  have hparse' : parse "DESC\n t /* its columns */;" =
      .ok (some (.other "DESC\n t /* its columns */")) := by decide +kernel
  have hblank {b : Char} {rest : Text} (hb : isBlank b) : ∀ c ∈ (b :: rest).head?, isBlank c := by
    intro c hc
    obtain rfl := Option.some.inj hc
    exact hb
  have hdescribes : Describes "DESC t" := ⟨"DESC", " t", rfl, .inr rfl, hblank (by decide)⟩
  have hdescribes' : Describes "DESC\n t /* its columns */" :=
    ⟨"DESC", "\n t /* its columns */", rfl, .inr rfl, hblank (by decide)⟩
  refine ⟨hcommented.trans hkinds.symm,
    (same_answer_iff blankLocal hcommented hkinds hparse' hparse).2 ⟨?_, fun _ _ => ?_⟩⟩
  · exact iff_of_true (.inr hdescribes') (.inr hdescribes)
  · decide +kernel

/-- A comment between its words turns a listing into an acknowledgement. -/
theorem commented_listing_is_acknowledged :
    Lexed.kinds? "SHOW /* all */ TABLES;" = Lexed.kinds? "SHOW TABLES;" ∧
      parse "SHOW /* all */ TABLES;" = .ok (some (.other "SHOW /* all */ TABLES")) ∧
      parse "SHOW TABLES;" = .ok (some (.other "SHOW TABLES")) ∧
      (blankLocal.execute (.other "SHOW /* all */ TABLES")).1 = .ok .ok ∧
      (blankLocal.execute (.other "SHOW TABLES")).1 = .ok (.names "table name" []) := by
  decide +kernel

end Local

end SqlConsole
