/-!
# Ranges of code points

A property of characters is given by the ranges of code points that have it. The ranges stand in rising order, so a search can
end at the first range that starts too late.
-/

namespace JvmUnits

/-- The first and the last code point of a range. -/
abbrev CodeRange := Nat × Nat

namespace CodeRange

/-- The code point is in the range. -/
def Holds (range : CodeRange) (code : Nat) : Prop := range.1 ≤ code ∧ code ≤ range.2

/-- Each range starts before the next one. -/
def isRising : List CodeRange → Bool
  | first :: next :: rest => decide (first.1 < next.1) && isRising (next :: rest)
  | _ => true

/-- The code point is in one of the ranges, which stand in rising order. -/
def anyHolds : List CodeRange → Nat → Bool
  | [], _ => false
  | range :: rest, code => decide (range.1 ≤ code) && (decide (code ≤ range.2) || anyHolds rest code)

/-- Ranges stay in rising order without the first one. -/
theorem isRising_of_cons {range : CodeRange} {rest : List CodeRange} (h : isRising (range :: rest) = true) :
    isRising rest = true := by
  cases rest with
  | nil => rfl
  | cons next rest =>
    simp only [isRising, Bool.and_eq_true] at h
    exact h.2

/-- In rising order no later range starts before the first one. -/
theorem first_le_of_isRising {range : CodeRange} {rest : List CodeRange} (h : isRising (range :: rest) = true)
    {later : CodeRange} (mem : later ∈ rest) : range.1 ≤ later.1 := by
  induction rest generalizing range with
  | nil => cases mem
  | cons next rest ih =>
    simp only [isRising, Bool.and_eq_true, decide_eq_true_eq] at h
    obtain ⟨step, tail⟩ := h
    rcases List.mem_cons.mp mem with rfl | mem
    · exact Nat.le_of_lt step
    · exact Nat.le_trans (Nat.le_of_lt step) (ih tail mem)

/-- In rising order the search that ends early finds every range that holds the code point. -/
theorem anyHolds_iff {ranges : List CodeRange} (h : isRising ranges = true) (code : Nat) :
    anyHolds ranges code = true ↔ ∃ range ∈ ranges, Holds range code := by
  induction ranges with
  | nil => simp [anyHolds]
  | cons range rest ih =>
    have tail : isRising rest = true := isRising_of_cons h
    simp only [anyHolds, Bool.and_eq_true, Bool.or_eq_true, decide_eq_true_eq, ih tail, List.mem_cons]
    constructor
    · rintro ⟨low, high | ⟨later, mem, holds⟩⟩
      · exact ⟨range, .inl rfl, low, high⟩
      · exact ⟨later, .inr mem, holds⟩
    · rintro ⟨found, rfl | mem, holds⟩
      · exact ⟨holds.1, .inl holds.2⟩
      · exact ⟨Nat.le_trans (first_le_of_isRising h mem) holds.1, .inr ⟨found, mem, holds⟩⟩

end CodeRange

end JvmUnits
