import SqlConsole.Value
/-!
# Exact values

All values but the doubles are exact: an exact value is the same as another one only if it is that
one.  A double that is no number is not even the same as itself, and zero has two signs.
-/

namespace SqlConsole

/-- A value that is no double. -/
def Value.IsExact : Value → Prop
  | .double _ => False
  | _ => True

instance : DecidablePred Value.IsExact
  | .double _ => isFalse id
  | .null | .bool _ | .int _ | .string _ => isTrue trivial

theorem Value.IsExact.same_iff {v w : Value} (hv : v.IsExact) : w.same v = true ↔ w = v := by
  cases v <;> cases w <;> simp_all [Value.same, Value.IsExact]

/-- Lists of values are compared place by place. -/
theorem sameValues_iff {values : List Value} (h : ∀ v ∈ values, v.IsExact) (others : List Value) :
    sameValues others values = true ↔ others = values := by
  induction values generalizing others with
  | nil => cases others <;> simp [sameValues]
  | cons v values ih =>
    obtain ⟨hv, hvalues⟩ := List.forall_mem_cons.1 h
    cases others with
    | nil => simp [sameValues]
    | cons w others => rw [sameValues, Bool.and_eq_true, hv.same_iff, ih hvalues, List.cons.injEq]

end SqlConsole
