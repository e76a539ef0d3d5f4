import SqlConsole.Gateway.Local
/-!
# Ids of jobs

A source of ids hands them out one after the other (`JobIds.stream`).  If it runs out of those that
it was given, it counts, and what is counted never comes back (`JobIds.neverRepeats_counted`), since
numbers are spelled by different digits.

The gateway keeps its jobs under the ids that it draws as it answers one request after the other
(`Local.afterCalls`).
-/

namespace SqlConsole

/-! ## Sources of ids -/

namespace JobIds

/-- The ids that are drawn one after the other. -/
def stream (ids : JobIds) : Nat → Text
  | 0 => ids.next.1
  | n + 1 => ids.next.2.stream n

/-- No id is drawn twice. -/
def NeverRepeats (ids : JobIds) : Prop := ∀ m n, ids.stream m = ids.stream n → m = n

theorem NeverRepeats.next {ids : JobIds} (h : ids.NeverRepeats) : ids.next.2.NeverRepeats := by
  intro m n heq
  have hsucc : m + 1 = n + 1 := h (m + 1) (n + 1) heq
  omega

/-- Behind the given ids come the numbers of the ids that were drawn. -/
theorem stream_counted (drawn n : Nat) :
    stream ⟨[], drawn⟩ n = Text.ofNatHex 32 (drawn + n + 1) := by
  induction n generalizing drawn with
  | zero => rfl
  | succ n ih =>
    have hstep : stream ⟨[], drawn⟩ (n + 1) = stream ⟨[], drawn + 1⟩ n := rfl
    rw [hstep, ih (drawn + 1)]
    congr 1
    omega

end JobIds

/-! ## Hexadecimal numbers -/

namespace Text

/-- The number that a small hexadecimal digit stands for. -/
def hexDigit (c : Char) : Nat := if c.isDigit then c.toNat - 48 else c.toNat - 87

/-- The number that small hexadecimal digits spell. -/
def hexValue (digits : Text) : Nat := digits.foldl (fun n c => 16 * n + hexDigit c) 0

theorem hexDigit_digitChar : ∀ n, n < 16 → hexDigit n.digitChar = n := by decide

theorem hexValue_toDigits (n : Nat) : hexValue (Nat.toDigits 16 n) = n := by
  induction n using Nat.strongRecOn with
  | ind n ih =>
    rw [Nat.toDigits_eq_if (by decide)]
    by_cases hsmall : n < 16
    · rw [if_pos hsmall]
      have hdigit : hexValue [n.digitChar] = 16 * 0 + hexDigit n.digitChar := rfl
      rw [hdigit, hexDigit_digitChar n hsmall]
      omega
    · rw [if_neg hsmall]
      have hlast : hexDigit (n % 16).digitChar = n % 16 :=
        hexDigit_digitChar (n % 16) (Nat.mod_lt n (by decide))
      have hfront : hexValue (Nat.toDigits 16 (n / 16)) = n / 16 := ih (n / 16) (by omega)
      rw [hexValue] at hfront ⊢
      rw [List.foldl_append, hfront]
      show 16 * (n / 16) + hexDigit (n % 16).digitChar = n
      rw [hlast]
      omega

theorem hexValue_zeros (count : Nat) (digits : Text) :
    hexValue (List.replicate count '0' ++ digits) = hexValue digits := by
  induction count with
  | zero => rfl
  | succ count ih => exact ih

/-- Numbers are spelled by different hexadecimal digits. -/
theorem ofNatHex_inj {width m n : Nat} (h : ofNatHex width m = ofNatHex width n) : m = n := by
  have hvalue : hexValue (ofNatHex width m) = hexValue (ofNatHex width n) := by rw [h]
  rw [ofNatHex, ofNatHex, hexValue_zeros, hexValue_zeros, hexValue_toDigits,
    hexValue_toDigits] at hvalue
  exact hvalue

end Text

/-- Ids that are only counted never repeat. -/
theorem JobIds.neverRepeats_counted (drawn : Nat) : NeverRepeats ⟨[], drawn⟩ := by
  intro m n heq
  rw [stream_counted, stream_counted] at heq
  have hcount : drawn + m + 1 = drawn + n + 1 := Text.ofNatHex_inj heq
  omega

/-! ## Requests -/

namespace Local

/-- A request on behalf of a statement, and the state of interrupt handling that it meets. -/
structure Call where
  request : Request
  token : CancelToken
  interrupts : Interrupts

/-- The state behind a request. -/
def afterCall (g : Local) (call : Call) : Local :=
  (handle call.request call.token g call.interrupts).2.1

/-- The state behind requests that are made one after the other. -/
def afterCalls (g : Local) (calls : List Call) : Local := calls.foldl afterCall g

/-- Requests one after the other, none of them cancelled. -/
def quietly (requests : List Request) : List Call := requests.map (⟨·, 0, {}⟩)

theorem mem_of_getElem?_eq_some {α : Type} {named : Std.TreeMap Text α} {name : Text} {a : α}
    (h : named[name]? = some a) : name ∈ named := by
  rw [Std.TreeMap.mem_iff_isSome_getElem?, h]
  rfl

end Local

end SqlConsole
