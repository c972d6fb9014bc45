namespace ListingFilter

def ascendFrom (start : Nat) : List (Nat × Nat) → Bool
  | [] => true
  | (first, last) :: rest => start ≤ first && first ≤ last && ascendFrom (last + 1) rest

/-- A set of characters: the first and the last code point of each range, in ascending order. -/
structure CodeRanges where
  ranges : List (Nat × Nat)
  ascending : ascendFrom 0 ranges = true := by decide +kernel

namespace CodeRanges

variable {ranges : List (Nat × Nat)} {start n : Nat} {r : Nat × Nat}

def holds (n : Nat) : List (Nat × Nat) → Bool
  | [] => false
  | (first, last) :: rest => if n ≤ last then first ≤ n else holds n rest

instance : Membership Nat CodeRanges := ⟨fun s n ↦ ∃ r ∈ s.ranges, r.1 ≤ n ∧ n ≤ r.2⟩

theorem le_of_mem_of_ascendFrom (h : ascendFrom start ranges = true) (hr : r ∈ ranges) :
    start ≤ r.1 := by
  induction ranges generalizing start with
  | nil => cases hr
  | cons head rest ih =>
    simp only [ascendFrom, Bool.and_eq_true, decide_eq_true_eq] at h
    rcases List.mem_cons.1 hr with rfl | hr
    · exact h.1.1
    · have := ih h.2 hr
      omega

theorem holds_iff (h : ascendFrom start ranges = true) :
    holds n ranges = true ↔ ∃ r ∈ ranges, r.1 ≤ n ∧ n ≤ r.2 := by
  induction ranges generalizing start with
  | nil => simp [holds]
  | cons head rest ih =>
    obtain ⟨first, last⟩ := head
    simp only [ascendFrom, Bool.and_eq_true, decide_eq_true_eq] at h
    simp only [holds, List.mem_cons, exists_eq_or_imp]
    split
    · next hn =>
      simp only [decide_eq_true_eq]
      constructor
      · exact fun hf ↦ .inl ⟨hf, hn⟩
      · intro hin
        rcases hin with ⟨hf, -⟩ | ⟨r, hr, hf, -⟩
        · exact hf
        · have := le_of_mem_of_ascendFrom h.2 hr
          omega
    · next hn => simp [ih h.2, hn]

instance (n : Nat) (s : CodeRanges) : Decidable (n ∈ s) :=
  decidable_of_iff (holds n s.ranges = true) (holds_iff s.ascending)

end CodeRanges

end ListingFilter
