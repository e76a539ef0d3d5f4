import SqlConsole.Proofs.Script.Partition
import SqlConsole.Proofs.Statement.Canonical
/-!
# Texts of blanks and words

The parser cuts a text into tokens, and the gateway splits it at its blanks.  Where the text has
blanks and words only, the two agree: words that stand beside each other have a blank between them
(`Piece.tokens_of_isPlain`).  A comment is split at its blanks too, so in a text that has one the
words between blanks need not be its tokens.
-/

namespace SqlConsole

namespace Text

/-- A character of a text is a blank or belongs to one of its words. -/
theorem mem_words {t : Text} {c : Char} (hc : c ∈ t) : isBlank c ∨ ∃ w ∈ words t, c ∈ w := by
  refine (mem_fieldsBy hc).imp_right fun ⟨w, hw, hmem⟩ => ⟨w, ?_, hmem⟩
  refine List.mem_filter.2 ⟨hw, ?_⟩
  cases w with
  | nil => cases hmem
  | cons => rfl

theorem dropTerminators_append {w : Text} (hw : ∀ c ∈ w, c ≠ ';') (t : Text) :
    dropTerminators (w ++ t) = w ++ dropTerminators t := by
  induction w with
  | nil => rfl
  | cons c w ih =>
    rw [List.cons_append, Script.dropTerminators_cons (hw c List.mem_cons_self),
      ih fun d hd => hw d (List.mem_cons_of_mem c hd)]
    rfl

end Text

namespace Piece

/-! ## Texts of blanks and words -/

/-- A blank or a word. -/
def isPlain : Piece → Bool
  | .blank _ => true
  | .token (.word _) _ => true
  | _ => false

def isComment : Piece → Bool
  | .comment _ => true
  | _ => false

/-- A text has a comment. -/
def hasComment (t : Text) : Bool := (cut t).pieces.any isComment

theorem cases_of_isPlain {p : Piece} (hwf : p.WellFormed) (hp : p.isPlain) :
    (∃ b, p = .blank b ∧ isBlank b) ∨
      ∃ c w, p = .token (.word (c :: w)) (c :: w) ∧ ∀ d ∈ c :: w, inWord d := by
  cases hwf with
  | @blank b hb => exact .inl ⟨b, rfl, hb⟩
  | @word c w hblank hdigit hc hw =>
    refine .inr ⟨c, w, rfl, fun d hd => ?_⟩
    rcases List.mem_cons.1 hd with rfl | hd
    · exact inWord_of_beginsWord hc
    · exact hw d hd
  | lineComment | blockComment | number | symbol => cases hp
  | quoted hq value =>
    unfold quotedToken at hp
    split at hp
    · cases hp
    · cases hp

/-- Words that stand beside each other have a blank between them, so the tokens are the words. -/
theorem tokens_of_glued {ps : List Piece} (h : Glued ps []) (hps : ∀ p ∈ ps, p.isPlain) :
    ps.filterMap token? = (Text.words (ps.flatMap text)).map .word := by
  induction ps with
  | nil => rfl
  | cons p ps ih =>
    obtain ⟨hwf, hseam, hglued⟩ := h
    have hrest : ∀ q ∈ ps, q.isPlain := fun q hq => hps q (List.mem_cons_of_mem p hq)
    have htail := ih hglued hrest
    rcases cases_of_isPlain hwf (hps p List.mem_cons_self) with ⟨b, rfl, hb⟩ | ⟨c, w, rfl, hw⟩
    · rw [List.flatMap_cons]
      change ps.filterMap token? = (Text.words (b :: ps.flatMap text)).map .word
      rw [Text.words_cons hb, htail]
    · have hsolid : ∀ d ∈ c :: w, isBlank d = false := by
        intro d hd
        cases hblank : isBlank d with
        | false => rfl
        | true =>
          have hword := hw d hd
          rw [inWord_of_isBlank hblank] at hword
          cases hword
      have hfirst := Text.words_of_forall (List.cons_ne_nil c w) hsolid
      rw [List.flatMap_cons, List.filterMap_cons]
      change Token.word (c :: w) :: ps.filterMap token? =
        (Text.words ((c :: w) ++ ps.flatMap text)).map Token.word
      cases ps with
      | nil =>
        rw [List.flatMap_nil, List.append_nil, hfirst]
        rfl
      | cons q ps =>
        rcases cases_of_isPlain hglued.1 (hrest q List.mem_cons_self) with
          ⟨b, rfl, hb⟩ | ⟨d, v, rfl, hv⟩
        · rw [List.flatMap_cons] at htail ⊢
          change _ = (Text.words ((c :: w) ++ b :: ps.flatMap text)).map Token.word
          change _ = (Text.words (b :: ps.flatMap text)).map Token.word at htail
          rw [htail, Text.words_append_cons hb, Text.words_cons hb, hfirst]
          rfl
        · -- A word would go on with the next one.
          have hends : (!inWord d) = true := hseam d rfl
          rw [hv d List.mem_cons_self] at hends
          cases hends

/-- Letters, blanks and terminators make up blanks, words and terminators. -/
theorem isPlain_of_chars {t : Text}
    (hchars : ∀ c ∈ t, isBlank c ∨ c = ';' ∨ 'A' ≤ c.toUpper ∧ c.toUpper ≤ 'Z')
    (hnone : .symbol ';' ∉ tokens t) : ∀ p ∈ (cut t).pieces, p.isPlain := by
  intro p hp
  have hmem (c : Char) (hc : c ∈ p.text) :
      isBlank c ∨ c = ';' ∨ 'A' ≤ c.toUpper ∧ c.toUpper ≤ 'Z' := by
    apply hchars
    rw [← flatMap_text_cut t]
    exact List.mem_append_left _ (List.mem_flatMap.2 ⟨p, hp, hc⟩)
  have hsign (c : Char) (hc : c ∈ signs) (hother : c ≠ ';') (hin : c ∈ p.text) : False := by
    rcases hmem c hin with hblank | rfl | hletter
    · rw [isBlank_signs c hc] at hblank
      cases hblank
    · exact hother rfl
    · have hword := inWord_of_beginsWord (Script.beginsWord_of_toUpper hletter).1
      exact not_mem_signs inWord_signs hword hc
  cases (glued_of_cut t).wellFormed p hp with
  | blank | word => rfl
  | lineComment => exact (hsign '-' (by decide) (by decide) List.mem_cons_self).elim
  | blockComment => exact (hsign '/' (by decide) (by decide) List.mem_cons_self).elim
  | @quoted q hq value =>
    exact (hsign q hq.mem_signs (Script.ne_terminator_of_isQuote hq) List.mem_cons_self).elim
  | @number c w hc _ =>
    rcases hmem c List.mem_cons_self with hblank | rfl | hletter
    · rw [isBlank_of_isDigit hc] at hblank
      cases hblank
    · exact absurd hc (by decide)
    · rw [(Script.beginsWord_of_toUpper hletter).2.2] at hc
      cases hc
  | @symbol c hblank _ _ hword =>
    rcases hmem c List.mem_cons_self with hblank' | rfl | hletter
    · rw [hblank] at hblank'
      cases hblank'
    · exact (hnone (List.mem_filterMap.2 ⟨_, hp, rfl⟩)).elim
    · rw [(Script.beginsWord_of_toUpper hletter).1] at hword
      cases hword

theorem not_mem_of_isPlain {t : Text} (hclosed : Closed t)
    (hplain : ∀ p ∈ (cut t).pieces, p.isPlain) : ∀ c ∈ t, c ≠ ';' := by
  intro c hc
  rw [← hclosed.flatMap_text] at hc
  obtain ⟨p, hp, hin⟩ := List.mem_flatMap.1 hc
  rcases cases_of_isPlain ((glued_of_cut t).wellFormed p hp) (hplain p hp) with
    ⟨b, rfl, hb⟩ | ⟨d, w, rfl, hw⟩
  · obtain rfl := List.mem_singleton.1 hin
    exact Script.ne_terminator_of_isBlank hb
  · intro heq
    have hword := hw c hin
    rw [heq, inWord_signs ';' (by decide)] at hword
    cases hword

theorem tokens_of_isPlain {t : Text} (hclosed : Closed t)
    (hplain : ∀ p ∈ (cut t).pieces, p.isPlain) : tokens t = (Text.words t).map .word := by
  have hglued := glued_of_cut t
  rw [Cut.openText, show (cut t).openEnd = none from hclosed] at hglued
  have htokens := tokens_of_glued hglued hplain
  rwa [hclosed.flatMap_text] at htokens

end Piece

end SqlConsole
