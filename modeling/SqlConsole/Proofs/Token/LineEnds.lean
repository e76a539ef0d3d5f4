import SqlConsole.Proofs.Text.Parts
import SqlConsole.Proofs.Token.Lines
/-!
# Line ends

A text is read line by line, and a line ends with `\n` or with `\r\n`.  Behind each other and with
line feeds between them, the lines are the text without the carriage returns in front of its line
feeds (`unlines_lines`).  Outside of quotes these are blanks, so a text without them has the same
tokens, with the same change inside of quoted texts, and the same is left open in it
(`tokens_dropReturns`, `fault?_dropReturns`).
-/

namespace SqlConsole

namespace Text

/-- A text without the carriage returns in front of its line feeds. -/
def dropReturns : Text → Text
  | [] => []
  | c :: r => if c = '\r' ∧ r.head? = some '\n' then dropReturns r else c :: dropReturns r

theorem dropReturns_return {r : Text} (h : r.head? = some '\n') :
    dropReturns ('\r' :: r) = dropReturns r := by
  rw [dropReturns, if_pos ⟨rfl, h⟩]

theorem dropReturns_cons {c : Char} {r : Text} (h : ¬ (c = '\r' ∧ r.head? = some '\n')) :
    dropReturns (c :: r) = c :: dropReturns r := by
  rw [dropReturns, if_neg h]

theorem dropReturns_cons_of_ne {c : Char} (h : c ≠ '\r') (r : Text) :
    dropReturns (c :: r) = c :: dropReturns r :=
  dropReturns_cons fun hc => h hc.1

/-- A text begins as before, besides a carriage return. -/
theorem head?_dropReturns (t : Text) :
    (dropReturns t).head? = t.head? ∨ t.head? = some '\r' ∧ (dropReturns t).head? = some '\n' := by
  induction t with
  | nil => exact .inl rfl
  | cons c r ih =>
    by_cases hreturn : c = '\r' ∧ r.head? = some '\n'
    · obtain ⟨rfl, hr⟩ := hreturn
      rw [dropReturns_return hr]
      rcases ih with hsame | ⟨hother, -⟩
      · exact .inr ⟨rfl, hsame.trans hr⟩
      · rw [hr] at hother
        cases hother
    · rw [dropReturns_cons hreturn]
      exact .inl rfl

theorem dropReturns_append {s t : Text} (h : ¬ (s.getLast? = some '\r' ∧ t.head? = some '\n')) :
    dropReturns (s ++ t) = dropReturns s ++ dropReturns t := by
  induction s with
  | nil => rfl
  | cons c s ih =>
    cases s with
    | nil =>
      have hc : ¬ (c = '\r' ∧ t.head? = some '\n') := fun hreturn => h (by simpa using hreturn)
      have hlast : ¬ (c = '\r' ∧ ([] : Text).head? = some '\n') := fun hreturn => by cases hreturn.2
      rw [List.singleton_append, dropReturns_cons hc, dropReturns_cons hlast]
      rfl
    | cons d s =>
      have hrest : dropReturns (d :: s ++ t) = dropReturns (d :: s) ++ dropReturns t :=
        ih (by simpa using h)
      by_cases hc : c = '\r' ∧ d = '\n'
      · obtain ⟨rfl, rfl⟩ := hc
        rw [List.cons_append, dropReturns_return (by rfl), hrest, dropReturns_return (by rfl)]
      · have hstays : ∀ u, ¬ (c = '\r' ∧ (d :: u).head? = some '\n') := fun u hreturn =>
          hc ⟨hreturn.1, Option.some.inj hreturn.2⟩
        have hlong : dropReturns (c :: d :: s ++ t) = c :: dropReturns (d :: s ++ t) :=
          dropReturns_cons (hstays (s ++ t))
        rw [hlong, hrest, dropReturns_cons (hstays s)]
        rfl

theorem dropReturns_of_not_mem {t : Text} (h : '\r' ∉ t) : dropReturns t = t := by
  induction t with
  | nil => rfl
  | cons c r ih =>
    have hc : c ≠ '\r' := fun hc => h (hc ▸ List.mem_cons_self)
    rw [dropReturns_cons_of_ne hc, ih fun hr => h (List.mem_cons_of_mem c hr)]

/-! ## Lines -/

/-- What a line is without the carriage return at its end. -/
def dropReturn (line : Text) : Text := if line.getLast? = some '\r' then line.dropLast else line

theorem fields_concat (sep : Char) (t : Text) : fields sep (t ++ [sep]) = fields sep t ++ [[]] :=
  fieldsBy_append_cons (p := (· == sep)) (beq_self_eq_true sep) t []

theorem lines_concat (t : Text) : lines (t ++ ['\n']) = (fields '\n' t).map dropReturn := by
  unfold lines
  rw [fields_concat]
  simp only [List.dropLast_concat, List.getLast?_concat]
  rfl

/-- The first part is empty exactly where a separator comes first. -/
theorem first_field_eq_nil_iff {sep : Char} {t part : Text} {parts : List Text}
    (h : fields sep t = part :: parts) : part = [] ↔ (t ++ [sep]).head? = some sep := by
  cases t with
  | nil =>
    obtain ⟨rfl, -⟩ := List.cons.inj h
    exact ⟨fun _ => rfl, fun _ => rfl⟩
  | cons c t =>
    by_cases hc : c = sep
    · subst hc
      rw [fields, fieldsBy, if_pos (by simp)] at h
      obtain ⟨rfl, -⟩ := List.cons.inj h
      exact ⟨fun _ => rfl, fun _ => rfl⟩
    · obtain ⟨first, others, hparts⟩ := List.exists_cons_of_ne_nil (fieldsBy_ne_nil (· == sep) t)
      rw [fields, fieldsBy, if_neg (by simpa using hc), hparts] at h
      obtain ⟨rfl, -⟩ := List.cons.inj h
      simp [hc]

theorem dropReturn_cons {c : Char} {part : Text} (h : ¬ (c = '\r' ∧ part = [])) :
    dropReturn (c :: part) = c :: dropReturn part := by
  cases part with
  | nil =>
    have hc : c ≠ '\r' := fun hc => h ⟨hc, rfl⟩
    simp [dropReturn, hc]
  | cons d part =>
    unfold dropReturn
    rw [List.getLast?_cons_cons]
    split <;> rfl

/-- The parts between line feeds, each without a carriage return at its end and with a line feed
behind it. -/
theorem unlines_dropReturn_fields (t : Text) :
    Piece.unlines ((fields '\n' t).map dropReturn) = dropReturns (t ++ ['\n']) := by
  induction t with
  | nil => rfl
  | cons c t ih =>
    obtain ⟨part, parts, hparts⟩ := List.exists_cons_of_ne_nil (fieldsBy_ne_nil (· == '\n') t)
    have hfields : fields '\n' t = part :: parts := hparts
    have hempty : part = [] ↔ (t ++ ['\n']).head? = some '\n' := first_field_eq_nil_iff hfields
    rw [hfields, List.map_cons, Piece.unlines_cons] at ih
    by_cases hfeed : c = '\n'
    · subst hfeed
      have hcons : fields '\n' ('\n' :: t) = [] :: part :: parts := by
        rw [fields, fieldsBy, if_pos (by simp), hparts]
      rw [hcons, List.map_cons, Piece.unlines_cons, List.map_cons, Piece.unlines_cons, ih,
        List.cons_append, dropReturns_cons_of_ne (by decide)]
      rfl
    · have hcons : fields '\n' (c :: t) = (c :: part) :: parts := by
        rw [fields, fieldsBy, if_neg (by simpa using hfeed), hparts]
      rw [hcons, List.map_cons, Piece.unlines_cons, List.cons_append]
      by_cases hreturn : c = '\r' ∧ part = []
      · obtain ⟨rfl, rfl⟩ := hreturn
        rw [dropReturns_return (hempty.1 rfl), ← ih]
        rfl
      · have hstays : ¬ (c = '\r' ∧ (t ++ ['\n']).head? = some '\n') := fun h =>
          hreturn ⟨h.1, hempty.2 h.2⟩
        rw [dropReturn_cons hreturn, dropReturns_cons hstays, ← ih]
        rfl

/-- **Lines and their text.** -/
theorem unlines_lines (t : Text) :
    Piece.unlines (lines (t ++ ['\n'])) = dropReturns (t ++ ['\n']) := by
  rw [lines_concat, unlines_dropReturn_fields]

end Text

/-! ## Tokens -/

/-- A token without the carriage returns in front of the line feeds of a quoted text. -/
def Token.dropReturns : Token → Token
  | .quoted name => .quoted (Text.dropReturns name)
  | .string value => .string (Text.dropReturns value)
  | t => t

namespace Piece

open Text

theorem dropReturns_quotedToken (q : Char) (value : Text) :
    (quotedToken q value).dropReturns = quotedToken q (dropReturns value) := by
  unfold quotedToken
  split <;> rfl

/-- What belongs to a class without blanks holds no carriage return. -/
theorem not_mem_of_class {p : Char → Bool} (hp : p '\r' = false) {t : Text}
    (h : ∀ c ∈ t, p c = true) : '\r' ∉ t := by
  intro hmem
  have htrue := h '\r' hmem
  rw [hp] at htrue
  cases htrue

/-- The text between quotes changes, and the quotes do not. -/
theorem dropReturns_quote {q : Char} (hq : IsQuote q) (value rest : Text) :
    dropReturns (quote q value ++ rest) = quote q (dropReturns value) ++ dropReturns rest := by
  have hreturn : q ≠ '\r' := by rcases hq with rfl | rfl | rfl <;> decide
  have hfeed : q ≠ '\n' := by rcases hq with rfl | rfl | rfl <;> decide
  have hinner : dropReturns (double q value ++ q :: rest) =
      double q (dropReturns value) ++ q :: dropReturns rest := by
    induction value with
    | nil => exact dropReturns_cons_of_ne hreturn rest
    | cons c value ih =>
      by_cases hc : c = q
      · subst hc
        have hdouble : ∀ t, double c (c :: t) = c :: c :: double c t := fun t => by simp [double]
        rw [dropReturns_cons_of_ne hreturn, hdouble, hdouble, List.cons_append, List.cons_append,
          dropReturns_cons_of_ne hreturn, dropReturns_cons_of_ne hreturn, ih]
        rfl
      · have hdouble : ∀ t, double q (c :: t) = c :: double q t := fun t => by simp [double, hc]
        have hhead : (double q value ++ q :: rest).head? = some '\n' ↔
            value.head? = some '\n' := by
          cases value with
          | nil => simp [double, hfeed]
          | cons d value => by_cases hd : d = q <;> simp [double, hd, hfeed]
        rw [hdouble, List.cons_append]
        by_cases hpair : c = '\r' ∧ value.head? = some '\n'
        · obtain ⟨rfl, hvalue⟩ := hpair
          rw [dropReturns_return (hhead.2 hvalue), dropReturns_return hvalue, ih]
        · have hstays : ¬ (c = '\r' ∧ (double q value ++ q :: rest).head? = some '\n') :=
            fun h => hpair ⟨h.1, hhead.1 h.2⟩
          rw [dropReturns_cons hstays, dropReturns_cons hpair, hdouble, ih]
          rfl
  rw [quote, List.cons_append, dropReturns_cons_of_ne hreturn, List.append_assoc,
    List.singleton_append, hinner]
  simp [quote]

theorem closeQuote?_cons_of_ne {c q : Char} (hc : c ≠ q) (t : Text) :
    closeQuote? q (c :: t) =
      (closeQuote? q t).map fun (value, rest) => (c :: value, rest) := by
  cases t with
  | nil => simp [closeQuote?, hc]
  | cons d t => rw [closeQuote?, if_neg hc]

/-- A quoted text that is never closed is not closed by the change. -/
theorem closeQuote?_dropReturns {q : Char} (hq : IsQuote q) {t : Text}
    (h : closeQuote? q t = none) : closeQuote? q (dropReturns t) = none := by
  have hreturn : q ≠ '\r' := by rcases hq with rfl | rfl | rfl <;> decide
  fun_induction closeQuote? q t with
  | case1 => rfl
  | case2 => cases h
  | case3 c hc =>
    have halone : dropReturns [c] = [c] := dropReturns_cons fun hpair => by cases hpair.2
    rw [halone]
    simp [closeQuote?, hc]
  | case4 r ih =>
    rw [dropReturns_cons_of_ne hreturn, dropReturns_cons_of_ne hreturn, closeQuote?, if_pos rfl,
      if_pos rfl, ih (by simpa using h)]
    rfl
  | case5 => cases h
  | case6 c d r hc ih =>
    have hrest : closeQuote? q (dropReturns (d :: r)) = none := ih (by simpa using h)
    by_cases hpair : c = '\r' ∧ (d :: r).head? = some '\n'
    · obtain ⟨rfl, hd⟩ := hpair
      rw [dropReturns_return hd]
      exact hrest
    · rw [dropReturns_cons hpair, closeQuote?_cons_of_ne hc, hrest]
      rfl

theorem closeComment?_cons {c : Char} {t : Text} (h : ¬ (c = '*' ∧ t.head? = some '/')) :
    closeComment? (c :: t) = (closeComment? t).map fun (body, rest) => (c :: body, rest) := by
  cases t with
  | nil => rfl
  | cons d t =>
    rw [closeComment?, if_neg]
    simpa using h

/-- A block comment ends where it did. -/
theorem closeComment?_dropReturns (t : Text) :
    (closeComment? (dropReturns t)).map (·.2) =
      (closeComment? t).map fun (_, rest) => dropReturns rest := by
  fun_induction closeComment? t with
  | case1 => rfl
  | case2 c =>
    have halone : dropReturns [c] = [c] := dropReturns_cons fun hpair => by cases hpair.2
    rw [halone]
    rfl
  | case3 c d r hcd =>
    obtain ⟨rfl, rfl⟩ := hcd
    rw [dropReturns_cons_of_ne (by decide), dropReturns_cons_of_ne (by decide)]
    rfl
  | case4 c d r hcd ih =>
    rw [Option.map_map]
    by_cases hpair : c = '\r' ∧ (d :: r).head? = some '\n'
    · obtain ⟨rfl, hd⟩ := hpair
      rw [dropReturns_return hd]
      exact ih
    · have hopen : ¬ (c = '*' ∧ (dropReturns (d :: r)).head? = some '/') := by
        rintro ⟨rfl, hslash⟩
        rcases head?_dropReturns (d :: r) with hsame | ⟨-, hfeed⟩
        · rw [hsame] at hslash
          exact hcd ⟨rfl, Option.some.inj hslash⟩
        · rw [hslash] at hfeed
          cases hfeed
      rw [dropReturns_cons hpair, closeComment?_cons hopen, Option.map_map]
      exact ih

theorem dropWhile_dropReturns (t : Text) :
    (dropReturns t).dropWhile (· != '\n') = dropReturns (t.dropWhile (· != '\n')) := by
  induction t with
  | nil => rfl
  | cons c r ih =>
    by_cases hpair : c = '\r' ∧ r.head? = some '\n'
    · obtain ⟨rfl, hr⟩ := hpair
      rw [dropReturns_return hr, ih]
      rfl
    · rw [dropReturns_cons hpair]
      by_cases hfeed : c = '\n'
      · subst hfeed
        exact (dropReturns_cons hpair).symm
      · have hgoes : ∀ u : Text, (c :: u).dropWhile (· != '\n') = u.dropWhile (· != '\n') :=
          fun u => List.dropWhile_cons_of_pos (by simpa using hfeed)
        rw [hgoes, hgoes, ih]

/-- What ends before a line feed ends before a text without its carriage returns too. -/
theorem Seam.dropReturns {p : Piece} {rest : Text} (h : Seam p rest) (hfeed : p.endsBefore '\n') :
    Seam p (dropReturns rest) := by
  intro d hd
  rcases head?_dropReturns rest with hsame | ⟨-, hother⟩
  · exact h d (hsame ▸ hd)
  · obtain rfl : '\n' = d := Option.some.inj (hother.symm.trans hd)
    exact hfeed

/-- A text is cut into a piece and the rest, and so is the text without carriage returns. -/
theorem tokens_of_wellFormed {p : Piece} {rest : Text} (hwf : p.WellFormed) (hseam : Seam p rest) :
    tokens (p.text ++ rest) = p.token?.toList ++ tokens rest ∧
      fault? (p.text ++ rest) = fault? rest := by
  obtain ⟨c, t, htext⟩ := List.exists_cons_of_ne_nil hwf.text_ne_nil
  have hread : read c (t ++ rest) = .ok (p, rest) :=
    read_eq_ok_iff.2 ⟨hwf, hseam, by rw [htext]; rfl⟩
  rw [htext, List.cons_append]
  exact ⟨tokens_of_read hread, fault?_of_read hread⟩

/-- A piece without carriage returns stays as it is. -/
theorem tokens_dropReturns_of_not_mem {p : Piece} {rest : Text} (hwf : p.WellFormed)
    (hseam : Seam p rest) (hmem : '\r' ∉ p.text) (hfeed : p.endsBefore '\n') :
    tokens (dropReturns (p.text ++ rest)) = p.token?.toList ++ tokens (dropReturns rest) ∧
      fault? (dropReturns (p.text ++ rest)) = fault? (dropReturns rest) := by
  have hlast : ¬ (p.text.getLast? = some '\r' ∧ rest.head? = some '\n') := fun h =>
    hmem (List.mem_of_getLast? h.1)
  rw [dropReturns_append hlast, dropReturns_of_not_mem hmem]
  exact tokens_of_wellFormed hwf (hseam.dropReturns hfeed)

/-- A piece becomes another one of the same token, or is left out. -/
theorem tokens_dropReturns_of_wellFormed {p : Piece} {rest : Text} (hwf : p.WellFormed)
    (hseam : Seam p rest) :
    tokens (dropReturns (p.text ++ rest)) =
        (p.token?.map Token.dropReturns).toList ++ tokens (dropReturns rest) ∧
      fault? (dropReturns (p.text ++ rest)) = fault? (dropReturns rest) := by
  cases hwf with
  | @blank b hb =>
    by_cases hpair : b = '\r' ∧ rest.head? = some '\n'
    · obtain ⟨rfl, hrest⟩ := hpair
      have hgone : dropReturns (text (.blank '\r') ++ rest) = dropReturns rest :=
        dropReturns_return hrest
      rw [hgone]
      exact ⟨rfl, rfl⟩
    · have hstays : dropReturns (text (.blank b) ++ rest) = b :: dropReturns rest :=
        dropReturns_cons hpair
      rw [hstays]
      exact ⟨tokens_cons_of_isBlank hb _, fault?_cons_of_isBlank hb _⟩
  | @lineComment t ht =>
    have hrest : (t ++ rest).dropWhile (· != '\n') = rest :=
      (takeWhile_append_of_seam (by simpa using ht)
        fun d hd => by simpa [endsBefore] using hseam d hd).2
    have htext : dropReturns (text (.comment ('-' :: '-' :: t)) ++ rest) =
        '-' :: '-' :: dropReturns (t ++ rest) := by
      have hdash : ∀ u, dropReturns ('-' :: u) = '-' :: dropReturns u :=
        dropReturns_cons_of_ne (by decide)
      exact (hdash _).trans (congrArg _ (hdash _))
    have hread : read '-' ('-' :: dropReturns (t ++ rest)) =
        .ok (.comment ('-' :: '-' :: (dropReturns (t ++ rest)).takeWhile (· != '\n')),
          dropReturns rest) := by
      simp [read, isBlank_signs '-' (by decide), dropWhile_dropReturns, hrest]
    rw [htext]
    exact ⟨tokens_of_read hread, fault?_of_read hread⟩
  | @blockComment body hclose =>
    have hclosed := closeComment?_dropReturns (body ++ rest)
    rw [closeComment?_of_body hclose rest] at hclosed
    obtain ⟨⟨body', _⟩, hclose', rfl⟩ := Option.map_eq_some_iff.1 hclosed
    have htext : dropReturns (text (.comment ('/' :: '*' :: body)) ++ rest) =
        '/' :: '*' :: dropReturns (body ++ rest) := by
      have hslash : ∀ u, dropReturns ('/' :: u) = '/' :: dropReturns u :=
        dropReturns_cons_of_ne (by decide)
      have hstar : ∀ u, dropReturns ('*' :: u) = '*' :: dropReturns u :=
        dropReturns_cons_of_ne (by decide)
      exact (hslash _).trans (congrArg _ (hstar _))
    have hread : read '/' ('*' :: dropReturns (body ++ rest)) =
        .ok (.comment ('/' :: '*' :: body'), dropReturns rest) := by
      simp [read, isBlank_signs '/' (by decide), hclose']
    rw [htext]
    exact ⟨tokens_of_read hread, fault?_of_read hread⟩
  | @quoted q hq value =>
    have hquoted : WellFormed (.token (quotedToken q (dropReturns value))
        (quote q (dropReturns value))) := .quoted hq _
    have hends : Seam (.token (quotedToken q (dropReturns value)) (quote q (dropReturns value)))
        rest := by
      intro d hd
      have hbefore := hseam d hd
      rw [endsBefore_quoted] at hbefore ⊢
      exact hbefore
    have hfeed : endsBefore (.token (quotedToken q (dropReturns value))
        (quote q (dropReturns value))) '\n' := by
      rw [endsBefore_quoted]
      rcases hq with rfl | rfl | rfl <;> simp [quote]
    have htext : dropReturns (text (.token (quotedToken q value) (quote q value)) ++ rest) =
        quote q (dropReturns value) ++ dropReturns rest := dropReturns_quote hq value rest
    rw [htext]
    have hpiece := tokens_of_wellFormed hquoted (hends.dropReturns hfeed)
    simp only [token?, Option.map_some, dropReturns_quotedToken]
    exact hpiece
  | @number c t hc ht =>
    have hclass : ∀ d ∈ c :: t, inNumber d :=
      List.forall_mem_cons.2 ⟨inNumber_of_isDigit hc, ht⟩
    exact tokens_dropReturns_of_not_mem (.number hc ht) hseam
      (not_mem_of_class (by decide) hclass) (by simp [endsBefore, inNumber])
  | @word c t hblank hdigit hc ht =>
    have hclass : ∀ d ∈ c :: t, inWord d :=
      List.forall_mem_cons.2 ⟨inWord_of_beginsWord hc, ht⟩
    exact tokens_dropReturns_of_not_mem (.word hblank hdigit hc ht) hseam
      (not_mem_of_class (inWord_of_isBlank (by decide)) hclass)
      (by simp [endsBefore, inWord_of_isBlank isBlank_newline])
  | @symbol c hblank hquote hdigit hword =>
    have hmem : '\r' ∉ [c] := by
      intro hmem
      obtain rfl := List.mem_singleton.1 hmem
      revert hblank
      decide
    exact tokens_dropReturns_of_not_mem (.symbol hblank hquote hdigit hword) hseam hmem
      (by simp [endsBefore])

/-- **A text without the carriage returns of its line ends has the same tokens**, with the same
change inside of quoted texts, and the same is left open in it. -/
theorem tokens_dropReturns (t : Text) :
    tokens (dropReturns t) = (tokens t).map Token.dropReturns ∧
      fault? (dropReturns t) = fault? t := by
  fun_induction cut t with
  | case1 => exact ⟨by simp [dropReturns], by simp [dropReturns]⟩
  | case2 c r fault hread =>
    have hopen : read c (dropReturns r) = .error fault ∧
        dropReturns (c :: r) = c :: dropReturns r := by
      rcases read_eq_error_iff.1 hread with ⟨hq, hclose, rfl⟩ | ⟨r, rfl, rfl, hclose, rfl⟩
      · have hreturn : c ≠ '\r' := by rcases hq with rfl | rfl | rfl <;> decide
        exact ⟨read_eq_error_iff.2 (.inl ⟨hq, closeQuote?_dropReturns hq hclose, rfl⟩),
          dropReturns_cons_of_ne hreturn r⟩
      · have hstar : dropReturns ('*' :: r) = '*' :: dropReturns r :=
          dropReturns_cons_of_ne (by decide) r
        have hclose' : closeComment? (dropReturns r) = none := by
          have hclosed := closeComment?_dropReturns r
          rw [hclose] at hclosed
          exact Option.map_eq_none_iff.1 hclosed
        exact ⟨read_eq_error_iff.2 (.inr ⟨dropReturns r, rfl, hstar, hclose', rfl⟩),
          dropReturns_cons_of_ne (by decide) _⟩
    rw [hopen.2, tokens, fault?, tokens, fault?, cut_of_fault hopen.1, cut_of_fault hread]
    exact ⟨rfl, rfl⟩
  | case3 c r p rest hread tail ih =>
    obtain ⟨hwf, hseam, htext⟩ := read_eq_ok_iff.1 hread
    obtain ⟨htokens, hfault⟩ := tokens_dropReturns_of_wellFormed hwf hseam
    rw [htext] at htokens hfault
    refine ⟨?_, ?_⟩
    · rw [htokens, ih.1, tokens_of_read hread, List.map_append]
      cases p.token? <;> rfl
    · rw [hfault, ih.2, fault?_of_read hread]

end Piece

end SqlConsole
