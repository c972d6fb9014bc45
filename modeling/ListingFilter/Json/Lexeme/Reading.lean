import ListingFilter.Json.Lexeme.Numeral
import ListingFilter.Json.Lexeme.String

namespace ListingFilter.Json

def words : List (Text × Scalar) :=
  [(['n', 'u', 'l', 'l'], .null), (['t', 'r', 'u', 'e'], .bool true),
    (['f', 'a', 'l', 's', 'e'], .bool false)]

def afterWord : (word t : Text) → Except Fault Text
  | [], t => .ok t
  | _ :: _, [] => .error .endInValue
  | w :: word, c :: rest => if w = c then afterWord word rest else .error .expectedWord

def scanScalar (c : Char) (rest : Text) : Lexeme × Text :=
  if c = '-' ∨ c.isDigit then
    match scanNumeral (c :: rest) with
    | .ok (n, after) => (.leaf (.scalar ⟨n.value.map .number, .ok ()⟩), after)
    | .error s => (.leaf (.scalar s), [])
  else match words.find? (·.1.head? = some c) with
    | none => (.faulty .expectedValue, [])
    | some (word, scalar) =>
      match afterWord word (c :: rest) with
      | .ok after => (.leaf (.scalar ⟨.ok scalar, .ok ()⟩), after)
      | .error f => (.faulty f, [])

def scanLexeme (c : Char) (rest : Text) : Lexeme × Text :=
  match c with
  | '[' => (.opening .square, rest)
  | '{' => (.opening .curly, rest)
  | ']' => (.leaf (.closing .square), rest)
  | '}' => (.leaf (.closing .curly), rest)
  | ',' => (.leaf .comma, rest)
  | ':' => (.leaf .colon, rest)
  | '"' =>
    let (parts, stop, after) := scanString rest
    (.leaf (.string ⟨joinParts stop parts, stop.skipped⟩), after)
  | c => scanScalar c rest

def isSpace (c : Char) : Bool := c = ' ' ∨ c = '\n' ∨ c = '\t' ∨ c = '\r'

theorem length_le_of_afterWord {word t rest : Text} (h : afterWord word t = .ok rest) :
    rest.length + word.length ≤ t.length := by
  fun_induction afterWord word t <;> simp_all
  omega

theorem length_pos_of_mem_words {word : Text × Scalar} (h : word ∈ words) : 0 < word.1.length := by
  simp only [words, List.mem_cons, List.not_mem_nil, or_false] at h
  rcases h with rfl | rfl | rfl <;> simp

theorem length_scanScalar_le (c : Char) (rest : Text) :
    (scanScalar c rest).2.length ≤ rest.length := by
  unfold scanScalar
  split
  · split
    · next h => exact Nat.le_of_lt_succ (length_lt_of_scanNumeral h)
    · simp
  · split
    · simp
    · next found =>
      split
      · next h =>
        have := length_le_of_afterWord h
        have := length_pos_of_mem_words (List.mem_of_find?_eq_some found)
        simp only [List.length_cons] at *
        omega
      · simp

theorem length_scanLexeme_le (c : Char) (rest : Text) :
    (scanLexeme c rest).2.length ≤ rest.length := by
  unfold scanLexeme
  split
  case h_7 => exact length_scanString_le rest
  case h_8 => exact length_scanScalar_le c rest
  all_goals exact Nat.le_refl _

/-- The lexemes of a text, up to the first one that cannot be read to its end. -/
def lexemes (t : Text) : List Lexeme :=
  match _ : t.dropWhile isSpace with
  | [] => []
  | c :: rest => (scanLexeme c rest).1 :: lexemes (scanLexeme c rest).2
termination_by t.length
decreasing_by
  have := (List.dropWhile_sublist (l := t) isSpace).length_le
  have := length_scanLexeme_le c rest
  simp_all
  omega

end ListingFilter.Json
