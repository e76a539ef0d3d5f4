import SqlConsole.Proofs.Token.Places
/-!
# Parts between byte offsets

A part of a text lies between two byte offsets exactly if both are boundaries of characters, in
order and not behind the end (`InRange`, `exists_slice?_iff`).  What is cut out has the rest of the
text around it (`slice?_eq_some_iff`).
-/

namespace SqlConsole.Text

variable {t u part : Text} {start stop m n : Nat}

/-- A byte offset between two characters of a text, or at one of its ends. -/
def IsBoundary (t : Text) (n : Nat) : Prop := ∃ before, before <+: t ∧ byteLength before = n

/-- Two byte offsets with a part of a text between them. -/
structure InRange (t : Text) (start stop : Nat) : Prop where
  first : IsBoundary t start
  last : IsBoundary t stop
  ordered : start ≤ stop
  within : stop ≤ byteLength t

theorem isBoundary_zero (t : Text) : IsBoundary t 0 := ⟨[], List.nil_prefix, rfl⟩

theorem IsBoundary.le (h : IsBoundary t n) : n ≤ byteLength t := by
  obtain ⟨before, ⟨behind, rfl⟩, rfl⟩ := h
  rw [byteLength_append]
  exact Nat.le_add_right _ _

theorem IsBoundary.min (hm : IsBoundary t m) (hn : IsBoundary t n) : IsBoundary t (min m n) := by
  rcases Nat.le_total m n with hle | hle
  · rwa [Nat.min_eq_left hle]
  · rwa [Nat.min_eq_right hle]

theorem IsBoundary.inRange (hstart : IsBoundary t start) (hstop : IsBoundary t stop)
    (hle : start ≤ stop) : InRange t start stop :=
  ⟨hstart, hstop, hle, hstop.le⟩

theorem exists_of_dropBytes? (h : dropBytes? n t = some u) :
    ∃ before, t = before ++ u ∧ byteLength before = n := by
  fun_induction dropBytes? n t with
  | case1 t =>
    cases h
    exact ⟨[], rfl, rfl⟩
  | case2 => cases h
  | case3 n c r hle ih =>
    obtain ⟨before, rfl, hlength⟩ := ih h
    refine ⟨c :: before, rfl, ?_⟩
    rw [byteLength_cons, hlength]
    omega
  | case4 => cases h

theorem exists_of_takeBytes? (h : takeBytes? n t = some u) :
    ∃ behind, t = u ++ behind ∧ byteLength u = n := by
  fun_induction takeBytes? n t generalizing u with
  | case1 t =>
    cases h
    exact ⟨t, rfl, rfl⟩
  | case2 => cases h
  | case3 n c r hle ih =>
    obtain ⟨v, hv, rfl⟩ := Option.map_eq_some_iff.1 h
    obtain ⟨behind, rfl, hlength⟩ := ih hv
    refine ⟨behind, rfl, ?_⟩
    rw [byteLength_cons, hlength]
    omega
  | case4 => cases h

/-- What is cut out of a text, with what stands around it. -/
theorem slice?_eq_some_iff : slice? start stop t = some part ↔
    ∃ before behind, t = before ++ (part ++ behind) ∧ byteLength before = start ∧
      start + byteLength part = stop := by
  constructor
  · intro h
    unfold slice? at h
    split at h
    · next hle =>
      obtain ⟨u, hu, hpart⟩ := Option.bind_eq_some_iff.1 h
      obtain ⟨before, rfl, hbefore⟩ := exists_of_dropBytes? hu
      obtain ⟨behind, rfl, hlength⟩ := exists_of_takeBytes? hpart
      exact ⟨before, behind, rfl, hbefore, by omega⟩
    · cases h
  · rintro ⟨before, behind, rfl, rfl, rfl⟩
    exact slice?_append before part behind

theorem infix_of_slice? (h : slice? start stop t = some part) : part <:+: t := by
  obtain ⟨before, behind, rfl, -, -⟩ := slice?_eq_some_iff.1 h
  exact ⟨before, behind, List.append_assoc _ _ _⟩

/-- A part can be cut out exactly between offsets in range. -/
theorem exists_slice?_iff : (∃ part, slice? start stop t = some part) ↔ InRange t start stop := by
  constructor
  · rintro ⟨part, hpart⟩
    obtain ⟨before, behind, rfl, rfl, rfl⟩ := slice?_eq_some_iff.1 hpart
    refine IsBoundary.inRange ⟨before, List.prefix_append _ _, rfl⟩ ⟨before ++ part, ?_, ?_⟩
      (Nat.le_add_right _ _)
    · rw [← List.append_assoc]
      exact List.prefix_append _ _
    · exact byteLength_append before part
  · rintro ⟨⟨before, hbefore, rfl⟩, ⟨upTo, hupTo, rfl⟩, hle, -⟩
    -- Both are beginnings of the text, so the one with fewer bytes is a beginning of the other.
    have hprefix : before <+: upTo := by
      rcases List.prefix_or_prefix_of_prefix hbefore hupTo with hprefix | ⟨rest, rfl⟩
      · exact hprefix
      · rw [byteLength_append] at hle
        have hrest : rest = [] := byteLength_eq_zero_iff.1 (by omega)
        exact ⟨[], by rw [hrest, List.append_nil, List.append_nil]⟩
    obtain ⟨part, rfl⟩ := hprefix
    obtain ⟨behind, rfl⟩ := hupTo
    refine ⟨part, slice?_eq_some_iff.2 ⟨before, behind, List.append_assoc _ _ _, rfl, ?_⟩⟩
    exact (byteLength_append before part).symm

instance (t : Text) (start stop : Nat) : Decidable (InRange t start stop) :=
  decidable_of_iff ((slice? start stop t).isSome) <| by
    rw [Option.isSome_iff_exists, exists_slice?_iff]

-- An umlaut has two bytes.
example : InRange ['ü', ';'] 0 2 ∧ ¬ InRange ['ü', ';'] 1 2 := by decide

end SqlConsole.Text
