import Mathlib.Data.List.Basic
import SqlConsole.Proofs.Token.Cut
import SqlConsole.Proofs.Value.Exact
import SqlConsole.Query
/-!
# Values as literals

An exact value can be written down: `NULL`, a truth value, a number with its sign, or a text between
quotes.  The tokens of what is written are known (`Value.tokens`), they stand in front of a comma, a
closing parenthesis or a terminator (`glued_literal`), and the planner reads the value back from them
(`literal?_tokens`), from the smallest number to the largest one.
-/

namespace SqlConsole

open Piece

/-! ## Tokens as they are written -/

/-- A token as it is written: a quoted name between backquotes, a string between single quotes. -/
def Token.spelled : Token → Text
  | .word w => w
  | .quoted name => quote '`' name
  | .string s => quote '\'' s
  | .number digits => digits
  | .symbol c => [c]

/-- The piece that spells a token. -/
def Piece.ofToken (k : Token) : Piece := .token k k.spelled

theorem Piece.filterMap_map_ofToken (ks : List Token) : (ks.map ofToken).filterMap token? = ks := by
  induction ks with
  | nil => rfl
  | cons k ks ih => exact congrArg (k :: ·) ih

/-! ## Numbers -/

namespace Text

theorem decimalValue_ofNat (n : Nat) : decimalValue (ofNat n) = n :=
  Nat.ofDigitChars_toDigits (by decide) (by decide)

theorem isDigit_of_mem_ofNat {n : Nat} {c : Char} (h : c ∈ ofNat n) : c.isDigit :=
  Nat.isDigit_of_mem_toDigits (by decide) (by decide) h

theorem isDigits_ofNat (n : Nat) : isDigits (ofNat n) = true := by
  rw [isDigits, Bool.and_eq_true, Bool.not_eq_true', List.isEmpty_eq_false_iff]
  exact ⟨Nat.toDigits_ne_nil, List.all_eq_true.2 fun _ => isDigit_of_mem_ofNat⟩

theorem exists_ofNat_eq_cons (n : Nat) :
    ∃ c t, ofNat n = c :: t ∧ c.isDigit ∧ ∀ d ∈ t, d.isDigit := by
  obtain ⟨c, t, hdigits⟩ : ∃ c t, ofNat n = c :: t :=
    List.exists_cons_of_ne_nil Nat.toDigits_ne_nil
  have hdigit : ∀ d ∈ c :: t, d.isDigit := fun d hd => isDigit_of_mem_ofNat (hdigits ▸ hd)
  exact ⟨c, t, hdigits, List.forall_mem_cons.1 hdigit⟩

end Text

namespace Query

/-- The smallest number is read as well: it has no counterpart without a sign. -/
theorem int64?_of_neg {i : Int64} (h : i.toInt < 0) :
    int64? true (Text.ofNat i.toInt.natAbs) = some i := by
  have hbound : i.toInt.natAbs ≤ 0x8000000000000000 := by
    have hsmallest := i.le_toInt
    omega
  have hvalue : -(i.toInt.natAbs : Int) = i.toInt := by omega
  simp only [int64?, Text.isDigits_ofNat, Text.decimalValue_ofNat, Bool.not_true, if_pos hbound,
    Bool.false_eq_true, if_false, if_true, hvalue, Int64.ofInt_toInt]

theorem int64?_of_nonneg {i : Int64} (h : 0 ≤ i.toInt) :
    int64? false (Text.ofNat i.toInt.natAbs) = some i := by
  have hbound : i.toInt.natAbs < 0x8000000000000000 := by
    have hlargest := i.toInt_lt
    omega
  have hvalue : (i.toInt.natAbs : Int) = i.toInt := by omega
  simp only [int64?, Text.isDigits_ofNat, Text.decimalValue_ofNat, Bool.not_true, if_pos hbound,
    Bool.false_eq_true, if_false, ← Int64.ofInt_eq_ofNat, hvalue, Int64.ofInt_toInt]

end Query

/-! ## Values -/

namespace Value

/-- A value as it is written in a statement. -/
def literal : Value → Text
  | .null => "NULL"
  | .string s => quote '\'' s
  | v => v.render

/-- The tokens of a value that is no double. -/
def tokens : Value → List Token
  | .null => [.word "NULL"]
  | .bool true => [.word "TRUE"]
  | .bool false => [.word "FALSE"]
  | .int i =>
    if i.toInt < 0 then [.symbol '-', .number (Text.ofNat i.toInt.natAbs)]
    else [.number (Text.ofNat i.toInt.natAbs)]
  | .double _ => []
  | .string s => [.string s]

variable {v : Value}

/-- A literal is spelled by its tokens. -/
theorem flatMap_spelled_tokens (hv : v.IsExact) : v.tokens.flatMap Token.spelled = v.literal := by
  cases v with
  | double => exact hv.elim
  | int i =>
    have hliteral : literal (.int i) = Text.ofInt i.toInt := rfl
    rw [tokens, hliteral, Text.ofInt]
    split <;> simp [Token.spelled]
  | null => rfl
  | bool b => cases b <;> rfl
  | string s => exact List.append_nil _

/-- The characters that may follow a literal. -/
def stops : List Char := [',', ')', ';']

theorem forall_stops {p : Char → Prop} : (∀ c ∈ stops, p c) ↔ p ',' ∧ p ')' ∧ p ';' := by
  simp [stops]

/-- A word begins with a letter that is no digit. -/
theorem wellFormed_word {w : Text}
    (hhead : w.head?.any fun c => !isBlank c && !c.isDigit && beginsWord c)
    (htail : w.tail.all inWord) : (ofToken (.word w)).WellFormed := by
  cases w with
  | nil => cases hhead
  | cons c t =>
    simp only [List.head?_cons, Option.any_some, Bool.and_eq_true, Bool.not_eq_true'] at hhead
    obtain ⟨⟨hblank, hdigit⟩, hbegins⟩ := hhead
    exact .word hblank hdigit hbegins (List.all_eq_true.1 htail)

theorem wellFormed_number (n : Nat) : (ofToken (.number (Text.ofNat n))).WellFormed := by
  obtain ⟨c, t, hdigits, hc, ht⟩ := Text.exists_ofNat_eq_cons n
  rw [hdigits]
  exact .number hc fun d hd => inNumber_of_isDigit (ht d hd)

/-- A sign in front of digits opens no comment. -/
theorem seam_minus (n : Nat) (rest : Text) :
    Seam (ofToken (.symbol '-')) (Text.ofNat n ++ rest) := by
  obtain ⟨c, t, hdigits, hc, -⟩ := Text.exists_ofNat_eq_cons n
  have hminus : c ≠ '-' := by
    rintro rfl
    exact absurd hc (by decide)
  rw [hdigits]
  exact seam_cons (by simpa [ofToken, endsBefore] using hminus) _

/-- No literal goes on with one of these characters. -/
theorem glued_literal (hv : v.IsExact) {c : Char} (hc : c ∈ stops) (rest : Text) :
    Glued (v.tokens.map ofToken) (c :: rest) := by
  have hstops : ∀ c ∈ stops, inWord c = false ∧ inNumber c = false ∧ c ≠ '\'' :=
    forall_stops.2 (by decide)
  have hstop := hstops c hc
  have hword (w : Text) : Seam (ofToken (.word w)) (c :: rest) :=
    seam_cons (by simpa [ofToken, endsBefore] using hstop.1) rest
  have hnumber (n : Nat) : Glued [ofToken (.number (Text.ofNat n))] (c :: rest) :=
    ⟨wellFormed_number n, seam_cons (by simpa [ofToken, endsBefore] using hstop.2.1) rest, trivial⟩
  cases v with
  | null => exact ⟨wellFormed_word (by decide) (by decide), hword _, trivial⟩
  | bool b =>
    cases b <;> exact ⟨wellFormed_word (by decide) (by decide), hword _, trivial⟩
  | int i =>
    rw [tokens]
    split
    · have hsign : (ofToken (.symbol '-')).WellFormed :=
        .symbol (by decide) (by simp [IsQuote]) (by decide) (by decide)
      have hseam : Seam (ofToken (.symbol '-'))
          ([ofToken (.number (Text.ofNat i.toInt.natAbs))].flatMap text ++ c :: rest) := by
        rw [List.flatMap_singleton]
        exact seam_minus _ _
      exact ⟨hsign, hseam, hnumber _⟩
    · exact hnumber _
  | double => exact hv.elim
  | string s => exact ⟨.quoted (.inl rfl) s, seam_string s hstop.2.2 rest, trivial⟩

/-- **The planner reads a value back** from its tokens. -/
theorem literal?_tokens {ts : List Located} (hv : v.IsExact) (h : ts.map (·.token) = v.tokens) :
    Query.literal? ts = some v := by
  unfold Query.literal?
  cases v with
  | double => exact hv.elim
  | null =>
    rw [h]
    rfl
  | bool b =>
    rw [h]
    cases b <;> rfl
  | string s =>
    rw [h]
    rfl
  | int i =>
    rw [tokens] at h
    split at h
    next hneg =>
      rw [h]
      simp only [Query.number?, Query.int64?_of_neg hneg]
    next hpos =>
      rw [h]
      simp only [Query.number?, Query.int64?_of_nonneg (Int.not_lt.1 hpos)]

/-- The tokens that literals are made of. -/
def InLiteral : Token → Prop
  | .word w => w = "NULL" ∨ w = "TRUE" ∨ w = "FALSE"
  | .symbol c => c = '-'
  | .quoted _ => False
  | .number _ | .string _ => True

theorem inLiteral_of_mem_tokens {k : Token} (h : k ∈ v.tokens) : InLiteral k := by
  cases v with
  | null => exact List.mem_singleton.1 h ▸ .inl rfl
  | bool b =>
    cases b with
    | true => exact List.mem_singleton.1 h ▸ .inr (.inl rfl)
    | false => exact List.mem_singleton.1 h ▸ .inr (.inr rfl)
  | int i =>
    rw [tokens] at h
    split at h
    · rcases List.mem_cons.1 h with rfl | h
      · exact rfl
      · exact List.mem_singleton.1 h ▸ trivial
    · exact List.mem_singleton.1 h ▸ trivial
  | double => cases h
  | string s => exact List.mem_singleton.1 h ▸ trivial

/-- No literal is the beginning of another part of a query. -/
theorem InLiteral.isKeyword_from {k : Token} (h : InLiteral k) : k.isKeyword "FROM" = false := by
  cases k with
  | word w => rcases h with rfl | rfl | rfl <;> decide
  | _ => rfl

end Value

end SqlConsole
