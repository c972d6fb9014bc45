import ListingFilter.Text.Quoted
import ListingFilter.Token.Basic

namespace ListingFilter.Token

def isBreak (c : Char) : Bool := isBlank c ∨ c = '(' ∨ c = ')'

/-- The quoted run that goes on behind a first character `c`, and the text behind the run. -/
def quotedRun (c : Char) (rest : Text) : Text × Text :=
  if Text.isQuote c then
    match Text.splitOnce? [c] rest with
    | some (inside, after) => (inside ++ [c], after)
    | none => ([], rest)
  else ([], rest)

/-- The word that begins with `c`, and the text behind it. It ends in front of a blank, a parenthesis
or the end; one that begins with a quote runs to the next quote of the same kind first, if there is
one. -/
def word (c : Char) (rest : Text) : Text × Text :=
  let (quoted, after) := quotedRun c rest
  (c :: (quoted ++ after.takeWhile (!isBreak ·)), after.dropWhile (!isBreak ·))

def leading (c : Char) (rest : Text) : Text × Text :=
  if c = '(' ∨ c = ')' then ([c], rest) else word c rest

def next? (t : Text) : Option (Token × Text) :=
  match t.dropWhile isBlank with
  | [] => none
  | c :: rest => some (⟨t.takeWhile isBlank, (leading c rest).1⟩, (leading c rest).2)

theorem quotedRun_append (c : Char) (rest : Text) :
    (quotedRun c rest).1 ++ (quotedRun c rest).2 = rest := by
  unfold quotedRun
  split
  · split
    · next h => simp [Text.eq_of_splitOnce?_eq_some h]
    · rfl
  · rfl

theorem leading_append (c : Char) (rest : Text) :
    (leading c rest).1 ++ (leading c rest).2 = c :: rest := by
  unfold leading
  split
  · rfl
  · simp [word, quotedRun_append]

theorem leading_ne_nil (c : Char) (rest : Text) : (leading c rest).1 ≠ [] := by
  unfold leading
  split <;> simp [word]

theorem eq_of_next?_eq_some {t after : Text} {token : Token} (h : next? t = some (token, after)) :
    t = token.gap ++ (token.text ++ after) := by
  unfold next? at h
  split at h
  · cases h
  · next c rest hd =>
    simp only [Option.some.injEq, Prod.mk.injEq] at h
    obtain ⟨rfl, rfl⟩ := h
    rw [leading_append, ← hd, List.takeWhile_append_dropWhile]

theorem text_ne_nil_of_next?_eq_some {t after : Text} {token : Token}
    (h : next? t = some (token, after)) : token.text ≠ [] := by
  unfold next? at h
  split at h
  · cases h
  · next c rest hd =>
    simp only [Option.some.injEq, Prod.mk.injEq] at h
    obtain ⟨rfl, rfl⟩ := h
    exact leading_ne_nil c rest

theorem length_lt_of_next?_eq_some {t after : Text} {token : Token}
    (h : next? t = some (token, after)) : after.length < t.length := by
  have ht := congrArg List.length (eq_of_next?_eq_some h)
  have hn := List.length_pos_iff.2 (text_ne_nil_of_next?_eq_some h)
  simp only [List.length_append] at ht
  omega

def read (t : Text) : List Token :=
  match _ : next? t with
  | none => []
  | some (token, after) => token :: read after
termination_by t.length
decreasing_by exact length_lt_of_next?_eq_some ‹_›

theorem read_of_next?_eq_none {t : Text} (h : next? t = none) : read t = [] := by
  rw [read]
  split
  · rfl
  · next he => cases h.symm.trans he

theorem read_of_next?_eq_some {t after : Text} {token : Token}
    (h : next? t = some (token, after)) : read t = token :: read after := by
  rw [read]
  split
  · next he => cases h.symm.trans he
  · next he => cases h.symm.trans he; rfl

end ListingFilter.Token
