import ListingFilter.Json.Lexeme.Basic

namespace ListingFilter.Json

def scanDigits (t : Text) : List Nat × Text :=
  ((t.takeWhile Char.isDigit).map fun c ↦ c.toNat - '0'.toNat, t.dropWhile Char.isDigit)

def scanDigits1 (t : Text) : Except (Scanned Scalar) (List Nat × Text) :=
  match t with
  | [] => .error ⟨.error .endInValue, .error .invalidNumber⟩
  | c :: _ =>
    if c.isDigit then .ok (scanDigits t)
    else .error ⟨.error .invalidNumber, .error .invalidNumber⟩

/-- The digits before the point: without a zero in front of another digit. -/
def scanWhole (t : Text) : Except (Scanned Scalar) (List Nat × Text) := do
  let (digits, rest) ← scanDigits1 t
  match digits with
  | 0 :: _ :: _ => .error ⟨.error .invalidNumber, .error .invalidNumber⟩
  | _ => return (digits, rest)

def afterMark (mark : Char) : Text → Option Text
  | [] => none
  | c :: rest => if c = mark then some rest else none

def scanFraction (t : Text) : Except (Scanned Scalar) (List Nat × Text) :=
  match afterMark '.' t with
  | some rest => scanDigits1 rest
  | none => .ok ([], t)

def scanExponentDigits (t : Text) : Except (Scanned Scalar) (Option (Bool × List Nat) × Text) := do
  let unsigned := ((afterMark '+' t).or (afterMark '-' t)).getD t
  let (digits, rest) ← scanDigits1 unsigned
  return (some ((afterMark '-' t).isSome, digits), rest)

def scanExponent (t : Text) : Except (Scanned Scalar) (Option (Bool × List Nat) × Text) :=
  match (afterMark 'e' t).or (afterMark 'E' t) with
  | some rest => scanExponentDigits rest
  | none => .ok (none, t)

def scanNumeral (t : Text) : Except (Scanned Scalar) (Numeral × Text) := do
  let (whole, rest) ← scanWhole ((afterMark '-' t).getD t)
  let (fraction, rest) ← scanFraction rest
  let (exponent?, rest) ← scanExponent rest
  return (⟨(afterMark '-' t).isSome, whole, fraction, exponent?⟩, rest)

theorem length_lt_of_scanDigits1 {t rest : Text} {digits : List Nat}
    (h : scanDigits1 t = .ok (digits, rest)) : rest.length < t.length := by
  unfold scanDigits1 scanDigits at h
  split at h
  · cases h
  · next c tail =>
    split at h
    · next hc =>
      cases h
      have := (List.dropWhile_sublist (l := tail) Char.isDigit).length_le
      simp only [List.dropWhile_cons, hc, if_true, List.length_cons]
      omega
    · cases h

theorem length_le_of_afterMark {mark : Char} {t rest : Text} (h : afterMark mark t = some rest) :
    rest.length ≤ t.length := by
  cases t with
  | nil => cases h
  | cons c t =>
    simp only [afterMark] at h
    split at h
    · cases h
      simp
    · cases h

theorem length_le_of_or_afterMark {m n : Char} {t rest : Text}
    (h : (afterMark m t).or (afterMark n t) = some rest) : rest.length ≤ t.length := by
  rcases Option.or_eq_some_iff.1 h with h | ⟨_, h⟩ <;> exact length_le_of_afterMark h

theorem length_lt_of_scanWhole {t rest : Text} {digits : List Nat}
    (h : scanWhole t = .ok (digits, rest)) : rest.length < t.length := by
  simp only [scanWhole, bind, Except.bind, pure, Except.pure] at h
  split at h
  · cases h
  · next found =>
    split at h
    · cases h
    · cases h
      exact length_lt_of_scanDigits1 found

theorem length_le_of_scanFraction {t rest : Text} {digits : List Nat}
    (h : scanFraction t = .ok (digits, rest)) : rest.length ≤ t.length := by
  unfold scanFraction at h
  split at h
  · next found =>
    have := length_le_of_afterMark found
    have := length_lt_of_scanDigits1 h
    omega
  · cases h
    exact Nat.le_refl _

theorem length_le_of_scanExponent {t rest : Text} {e : Option (Bool × List Nat)}
    (h : scanExponent t = .ok (e, rest)) : rest.length ≤ t.length := by
  unfold scanExponent at h
  split at h
  · next marked hm =>
    have := length_le_of_or_afterMark hm
    simp only [scanExponentDigits, bind, Except.bind, pure, Except.pure] at h
    split at h
    · cases h
    · next found =>
      cases h
      have := length_lt_of_scanDigits1 found
      cases hs : (afterMark '+' marked).or (afterMark '-' marked) with
      | none =>
        simp only [hs, Option.getD_none] at this
        omega
      | some _ =>
        have := length_le_of_or_afterMark hs
        simp only [hs, Option.getD_some] at *
        omega
  · cases h
    exact Nat.le_refl _

theorem length_lt_of_scanNumeral {t rest : Text} {n : Numeral}
    (h : scanNumeral t = .ok (n, rest)) : rest.length < t.length := by
  simp only [scanNumeral, bind, Except.bind, pure, Except.pure] at h
  split at h
  · cases h
  · next hw =>
    split at h
    · cases h
    · next hf =>
      split at h
      · cases h
      · next he =>
        cases h
        have := length_lt_of_scanWhole hw
        have := length_le_of_scanFraction hf
        have := length_le_of_scanExponent he
        cases hm : afterMark '-' t with
        | none =>
          simp only [hm, Option.getD_none] at *
          omega
        | some _ =>
          have := length_le_of_afterMark hm
          simp only [hm, Option.getD_some] at *
          omega

end ListingFilter.Json
