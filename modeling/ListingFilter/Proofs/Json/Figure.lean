import ListingFilter.Proofs.Json.Value
import ListingFilter.Proofs.Text.Digits

namespace ListingFilter.Json

/-- Whether a text does not go on with a number that stands in front of it. -/
def Stops (t : Text) : Prop :=
  ∀ c ∈ t.head?, c.isDigit = false ∧ c ≠ '.' ∧ c ≠ 'e' ∧ c ≠ 'E'

theorem Stops.append {t rest : Text} (h : Stops t) (hr : Stops rest) : Stops (t ++ rest) := by
  cases t with
  | nil => exact hr
  | cons c t => exact h

section

variable {mark : Char} {t rest : Text}

end

namespace Figure

def fractionText (digits : List (Fin 10)) : Text :=
  if digits = [] then [] else '.' :: digits.map fun d ↦ Nat.digitChar d.val

def exponentText (exponent? : Option Int) : Text :=
  match exponent? with
  | none => []
  | some e => 'e' :: Text.ofInt e

def text (n : Figure) : Text :=
  (if n.negative then ['-'] else []) ++
    (Text.ofNat n.whole ++ (fractionText n.fraction ++ exponentText n.exponent?))

variable {rest : Text}

theorem ofDigits_digits (n : Nat) : Numeral.ofDigits (digits n) = n := by
  have := Nat.ofDigitChars_ten_toDigits (n := n)
  rw [Nat.ofDigitChars_eq_foldl] at this
  rw [Numeral.ofDigits, digits, List.foldl_map]
  exact this

theorem value_ofInt (n : Int64) : (ofInt n.toInt).numeral.value = .ok (.integer n.toInt) := by
  have low := n.minValue_le_toInt
  have high := n.toInt_lt
  have isWhole : (ofInt n.toInt).numeral.isWhole = true := rfl
  have whole : Numeral.ofDigits (ofInt n.toInt).numeral.whole = n.toInt.natAbs := ofDigits_digits _
  have sign : (ofInt n.toInt).numeral.negative = decide (n.toInt < 0) := rfl
  rw [Numeral.value, isWhole, whole, sign]
  simp only
  by_cases hn : n.toInt < 0
  · have value : -(n.toInt.natAbs : Int) = n.toInt := by omega
    rw [if_neg (by simp [hn]), value, if_pos ⟨trivial, by simpa using hn, by omega, low⟩]
  · have value : (n.toInt.natAbs : Int) = n.toInt := by omega
    have fits : n.toInt.natAbs < UInt64.size := by
      have : UInt64.size = 2 ^ 64 := rfl
      omega
    rw [if_pos ⟨trivial, by simpa using hn, fits⟩, value]

end Figure

end ListingFilter.Json
