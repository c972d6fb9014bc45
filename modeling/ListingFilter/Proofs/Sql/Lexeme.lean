import ListingFilter.Proofs.Text.Digits
import ListingFilter.Proofs.Text.Search
import ListingFilter.Sql.Dialect

namespace ListingFilter

namespace Sql

inductive Lexeme
  | sign (text : Text)
  | name (text : Text)
  | literal (text : Text)
  deriving DecidableEq, Repr

def isWordChar (c : Char) : Bool := c.isAlphanum || c = '-'

def isOperatorChar (c : Char) : Bool := c ∈ ['<', '>', '=']

def isMark (c : Char) : Bool := c ∈ ['.', ',', '(', ')', '*']

/-- Whether `c` and a character behind it belong to one sign. -/
def joins (c behind : Char) : Bool :=
  isWordChar c && isWordChar behind || isOperatorChar c && isOperatorChar behind

def withChar (c : Char) (reading? : Option (Text × Text)) : Option (Text × Text) :=
  reading?.map fun (t, after) ↦ (c :: t, after)

/-- What a text says up to the first `quote` that does not stand twice, and the text behind it. -/
def undoubled? (quote : Char) : Text → Option (Text × Text)
  | [] => none
  | c :: rest =>
    if c ≠ quote then withChar c (undoubled? quote rest)
    else match rest with
      | [] => some ([], [])
      | c' :: rest' =>
        if c' = quote then withChar quote (undoubled? quote rest') else some ([], rest)

def unescape (letter : Char) : Char :=
  if letter = '0' then '\x00'
  else if letter = 'b' then '\x08'
  else if letter = 't' then '\t'
  else if letter = 'z' then '\x1a'
  else if letter = 'n' then '\n'
  else if letter = 'r' then '\r'
  else letter

/-- What a text says up to the first `'` without a backslash, and the text behind it. -/
def unescaped? : Text → Option (Text × Text)
  | [] => none
  | c :: rest =>
    if c = '\'' then some ([], rest)
    else if c = '\\' then
      match rest with
      | [] => none
      | letter :: rest' => withChar (unescape letter) (unescaped? rest')
    else withChar c (unescaped? rest)

end Sql

namespace Dialect

open Sql

def literalBody? (d : Dialect) (t : Text) : Option (Text × Text) :=
  match d with
  | sqlite => undoubled? '\'' t
  | mysql => unescaped? t
  | postgres => Text.splitOnce? ['\''] t

def leading? (d : Dialect) (c : Char) (rest : Text) : Option (Lexeme × Text) :=
  if c = d.nameQuote then (undoubled? c rest).map fun (t, after) ↦ (.name t, after)
  else if c = '\'' then (d.literalBody? rest).map fun (t, after) ↦ (.literal t, after)
  else if d = postgres ∧ c = 'E' ∧ rest.head? = some '\'' then
    (unescaped? rest.tail).map fun (t, after) ↦ (.literal t, after)
  else if isWordChar c || isOperatorChar c || isMark c then
    some (.sign (c :: rest.takeWhile (joins c)), rest.dropWhile (joins c))
  else none

end Dialect

namespace Sql

variable {c quote : Char} {t w rest after : Text} {reading? : Option (Text × Text)}

theorem withChar_eq_some_iff :
    withChar c reading? = some (t, after) ↔ ∃ t', reading? = some (t', after) ∧ c :: t' = t := by
  cases reading? with
  | none => simp [withChar]
  | some found =>
    obtain ⟨t', after'⟩ := found
    simp only [withChar, Option.map_some, Option.some.injEq, Prod.mk.injEq]
    constructor
    · rintro ⟨ht, rfl⟩
      exact ⟨t', ⟨rfl, rfl⟩, ht⟩
    · rintro ⟨_, ⟨rfl, rfl⟩, ht⟩
      exact ⟨ht, rfl⟩

theorem length_lt_of_undoubled? (h : undoubled? quote rest = some (t, after)) :
    after.length < rest.length := by
  fun_induction undoubled? quote rest generalizing t with
  | case1 => cases h
  | case2 c rest _ ih =>
    obtain ⟨t', ht, -⟩ := withChar_eq_some_iff.1 h
    exact Nat.lt_succ_of_lt (ih ht)
  | case3 => cases h; exact Nat.lt_succ_self _
  | case4 c _ rest' ih =>
    obtain ⟨t', ht, -⟩ := withChar_eq_some_iff.1 h
    exact Nat.lt_succ_of_lt (Nat.lt_succ_of_lt (ih ht))
  | case5 => cases h; exact Nat.lt_succ_self _

theorem length_lt_of_unescaped? (h : unescaped? rest = some (t, after)) :
    after.length < rest.length := by
  fun_induction unescaped? rest generalizing t with
  | case1 => cases h
  | case2 => cases h; exact Nat.lt_succ_self _
  | case3 => cases h
  | case4 letter rest' _ ih =>
    obtain ⟨t', ht, -⟩ := withChar_eq_some_iff.1 h
    exact Nat.lt_succ_of_lt (Nat.lt_succ_of_lt (ih ht))
  | case5 c rest _ _ ih =>
    obtain ⟨t', ht, -⟩ := withChar_eq_some_iff.1 h
    exact Nat.lt_succ_of_lt (ih ht)

theorem undoubled?_cons_of_ne (hc : c ≠ quote) (rest : Text) :
    undoubled? quote (c :: rest) = withChar c (undoubled? quote rest) := by
  rw [undoubled?.eq_def]
  exact if_pos hc

theorem undoubled?_doubled (hr : rest.head? ≠ some quote) (t : Text) :
    undoubled? quote (Dialect.doubled quote t ++ quote :: rest) = some (t, rest) := by
  induction t with
  | nil =>
    cases rest with
    | nil => simp [Dialect.doubled, undoubled?]
    | cons c rest =>
      have hc : c ≠ quote := by simpa using hr
      simp [Dialect.doubled, undoubled?, hc]
  | cons c t ih =>
    have hd : Dialect.doubled quote (c :: t) =
        (if c = quote then [c, c] else [c]) ++ Dialect.doubled quote t := List.flatMap_cons
    rw [hd, List.append_assoc]
    by_cases hc : c = quote
    · subst hc
      simp [undoubled?, ih, withChar]
    · rw [if_neg hc, List.singleton_append, undoubled?_cons_of_ne hc, ih]
      rfl

theorem unescape_of_escape? {letter : Char} (h : Dialect.escape? c = some letter) :
    unescape letter = c := by
  unfold Dialect.escape? at h
  split at h
  · next hc =>
    cases h
    obtain rfl | rfl | rfl := hc <;> rfl
  · iterate 6 (split at h; next hc => cases h; exact hc.symm)
    cases h

theorem ne_of_escape?_eq_none (h : Dialect.escape? c = none) : c ≠ '\\' ∧ c ≠ '\'' := by
  constructor
  · rintro rfl
    cases h
  · rintro rfl
    cases h

theorem unescaped?_quote (rest : Text) : unescaped? ('\'' :: rest) = some ([], rest) := by
  rw [unescaped?.eq_def]
  exact if_pos rfl

theorem unescaped?_cons (h : Dialect.escape? c = none) (rest : Text) :
    unescaped? (c :: rest) = withChar c (unescaped? rest) := by
  obtain ⟨backslash, quote⟩ := ne_of_escape?_eq_none h
  rw [unescaped?.eq_def]
  dsimp only
  rw [if_neg quote, if_neg backslash]

theorem unescaped?_escaped (t rest : Text) :
    unescaped? (Dialect.escaped t ++ '\'' :: rest) = some (t, rest) := by
  induction t with
  | nil => exact unescaped?_quote rest
  | cons c t ih =>
    rw [Dialect.escaped, List.flatMap_cons, ← Dialect.escaped, List.append_assoc]
    cases hc : Dialect.escape? c with
    | some letter => simp [unescaped?, ih, withChar, unescape_of_escape? hc]
    | none =>
      dsimp only
      rw [List.singleton_append, unescaped?_cons hc, ih]
      rfl

theorem escaped_eq_self (h : '\\' ∉ Dialect.escaped t) : Dialect.escaped t = t ∧ '\'' ∉ t := by
  have plain : ∀ c ∈ t, Dialect.escape? c = none := by
    intro c hc
    cases he : Dialect.escape? c with
    | none => rfl
    | some letter =>
      refine absurd (List.mem_flatMap.2 ⟨c, hc, ?_⟩) h
      rw [he]
      exact List.mem_cons_self
  refine ⟨?_, fun hq ↦ (ne_of_escape?_eq_none (plain _ hq)).2 rfl⟩
  clear h
  induction t with
  | nil => rfl
  | cons c t ih =>
    obtain ⟨head, tail⟩ := List.forall_mem_cons.1 plain
    rw [Dialect.escaped, List.flatMap_cons, head, ← Dialect.escaped, ih tail]
    rfl

end Sql

namespace Dialect

open Sql

variable {d : Dialect} {c : Char} {t w rest after : Text} {lexeme : Lexeme}

theorem length_lt_of_literalBody? (h : d.literalBody? rest = some (t, after)) :
    after.length < rest.length := by
  cases d with
  | postgres =>
    rw [Text.eq_of_splitOnce?_eq_some h]
    simp only [List.length_append, List.length_cons]
    omega
  | mysql => exact length_lt_of_unescaped? h
  | sqlite => exact length_lt_of_undoubled? h

theorem length_le_of_leading? (h : d.leading? c rest = some (lexeme, after)) :
    after.length ≤ rest.length := by
  unfold leading? at h
  split at h
  · obtain ⟨⟨t, after'⟩, ht, he⟩ := Option.map_eq_some_iff.1 h
    cases he
    exact Nat.le_of_lt (length_lt_of_undoubled? ht)
  · split at h
    · obtain ⟨⟨t, after'⟩, ht, he⟩ := Option.map_eq_some_iff.1 h
      cases he
      exact Nat.le_of_lt (length_lt_of_literalBody? ht)
    · split at h
      · obtain ⟨⟨t, after'⟩, ht, he⟩ := Option.map_eq_some_iff.1 h
        cases he
        have hlt := length_lt_of_unescaped? ht
        rw [List.length_tail] at hlt
        omega
      · split at h
        · cases h
          exact (List.dropWhile_suffix _).length_le
        · cases h

/-- The lexemes of a text. Some texts have none, such as one that ends inside of a literal. -/
def lexemes? (d : Dialect) (t : Text) : Option (List Lexeme) :=
  match t with
  | [] => some []
  | c :: rest =>
    if c = ' ' then lexemes? d rest
    else match _ : d.leading? c rest with
      | none => none
      | some (lexeme, after) => (lexemes? d after).map (lexeme :: ·)
termination_by t.length
decreasing_by
  · exact Nat.lt_succ_self _
  · exact Nat.lt_succ_of_le (length_le_of_leading? ‹_›)

theorem lexemes?_nil (d : Dialect) : d.lexemes? [] = some [] := by
  rw [lexemes?]

theorem lexemes?_space (d : Dialect) (rest : Text) :
    d.lexemes? (' ' :: rest) = d.lexemes? rest := by
  rw [lexemes?, if_pos rfl]

theorem lexemes?_of_leading? (hc : c ≠ ' ') (h : d.leading? c rest = some (lexeme, after)) :
    d.lexemes? (c :: rest) = (d.lexemes? after).map (lexeme :: ·) := by
  rw [lexemes?, if_neg hc]
  split
  · next hn => cases hn.symm.trans h
  · next hs => cases hs.symm.trans h; rfl

end Dialect

namespace Sql

def isBreakChar (c : Char) : Bool := c ∈ [' ', '.', ',', '(', ')']

def EndsSign (rest : Text) : Prop := ∀ c ∈ rest.head?, isBreakChar c = true

def isSign : Text → Bool
  | [] => false
  | c :: w =>
    (isWordChar c || isOperatorChar c || isMark c) && w.all (joins c) && (c ≠ 'E' || !w.isEmpty)

variable {d : Dialect} {c : Char} {t w rest : Text}

theorem EndsSign.head?_ne (h : EndsSign rest) (hc : isBreakChar c = false) :
    rest.head? ≠ some c := by
  intro hr
  rw [h c hr] at hc
  cases hc

theorem single_of_isBreakChar (h : isBreakChar c = true) :
    isWordChar c = false ∧ isOperatorChar c = false := by
  simp only [isBreakChar, decide_eq_true_eq, List.mem_cons, List.not_mem_nil, or_false] at h
  obtain rfl | rfl | rfl | rfl | rfl := h <;> decide

theorem single_of_isMark (h : isMark c = true) :
    isWordChar c = false ∧ isOperatorChar c = false := by
  simp only [isMark, decide_eq_true_eq, List.mem_cons, List.not_mem_nil, or_false] at h
  obtain rfl | rfl | rfl | rfl | rfl := h <;> decide

theorem joins_eq_false (h : EndsSign rest ∨ isMark c = true) :
    ∀ b ∈ rest.head?, joins c b = false := by
  intro b hb
  cases h with
  | inl h => simp [joins, single_of_isBreakChar (h b hb)]
  | inr h => simp [joins, single_of_isMark h]

theorem ne_of_isSign (h : isSign (c :: w) = true) : c ≠ '"' ∧ c ≠ '\x60' ∧ c ≠ '\'' ∧ c ≠ ' ' := by
  have hc : (isWordChar c || isOperatorChar c || isMark c) = true := by
    simp only [isSign, Bool.and_eq_true] at h
    exact h.1.1
  have other {x : Char} (hx : (isWordChar x || isOperatorChar x || isMark x) = false) : c ≠ x := by
    rintro rfl
    rw [hc] at hx
    cases hx
  exact ⟨other (by decide), other (by decide), other (by decide), other (by decide)⟩

theorem leading?_sign (h : isSign (c :: w) = true) (hr : EndsSign rest ∨ isMark c = true) :
    d.leading? c (w ++ rest) = some (.sign (c :: w), rest) := by
  obtain ⟨double, back, single, -⟩ := ne_of_isSign h
  simp only [isSign, Bool.and_eq_true, Bool.or_eq_true, List.all_eq_true] at h
  obtain ⟨⟨hc, hw⟩, hE⟩ := h
  obtain ⟨ht, hd⟩ := Text.takeWhile_append_of_head? hw (joins_eq_false hr)
  have name : c ≠ d.nameQuote := by cases d <;> assumption
  have escaped : ¬ (d = .postgres ∧ c = 'E' ∧ (w ++ rest).head? = some '\'') := by
    rintro ⟨-, rfl, hhead⟩
    cases w with
    | nil => simp at hE
    | cons x w =>
      obtain rfl : x = '\'' := by simpa using hhead
      exact absurd (hw _ List.mem_cons_self) (by decide)
  rw [Dialect.leading?, if_neg name, if_neg single, if_neg escaped, if_pos (by simpa using hc),
    ht, hd]

theorem isSign_text (s : Symbol) : isSign s.text = true := by
  cases s with
  | connective op => cases op <;> decide
  | operator op => cases op <;> decide
  | truth value => cases value <;> decide
  | _ => decide

theorem isWordChar_of_isDigit (h : c.isDigit = true) : isWordChar c = true ∧ c ≠ 'E' := by
  refine ⟨by simp [isWordChar, Char.isAlphanum, h], ?_⟩
  rintro rfl
  cases h

theorem isSign_of_digits (hne : w ≠ []) (h : ∀ c ∈ w, c.isDigit = true) :
    isSign w = true ∧ isSign ('-' :: w) = true := by
  have word : ∀ c ∈ w, isWordChar c = true := fun c hc ↦ (isWordChar_of_isDigit (h c hc)).1
  constructor
  · obtain ⟨c, w, rfl⟩ := List.exists_cons_of_ne_nil hne
    obtain ⟨head, tail⟩ := List.forall_mem_cons.1 word
    have hE := (isWordChar_of_isDigit (h c List.mem_cons_self)).2
    simpa [isSign, joins, head, hE] using fun x hx ↦ .inl (tail x hx)
  · have dash : isWordChar '-' = true := by decide
    simpa [isSign, joins, dash] using fun x hx ↦ .inl (word x hx)

theorem isSign_ofInt (n : Int) : isSign (.ofInt n) = true := by
  obtain ⟨plain, negative⟩ := isSign_of_digits Nat.toDigits_ne_nil
    fun c hc ↦ Text.isDigit_of_mem_ofNat (n := n.natAbs) hc
  unfold Text.ofInt
  split
  · exact negative
  · exact plain

end Sql

end ListingFilter
