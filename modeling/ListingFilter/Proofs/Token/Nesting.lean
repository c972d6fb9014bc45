import ListingFilter.Filter.Group
import Mathlib.Data.List.Infix

namespace ListingFilter.Token

variable {depth : Nat} {t : Token} {ts us inside seen : List Token}

/-- The number of open parentheses behind a token that `depth` are open in front of; `none` for one
that closes nothing. -/
def deepen? (depth : Nat) (t : Token) : Option Nat :=
  match t.kind, depth with
  | .opening, depth => some (depth + 1)
  | .closing, depth + 1 => some depth
  | .closing, 0 => none
  | _, depth => some depth

def depthAfter? (depth : Nat) (ts : List Token) : Option Nat := ts.foldlM deepen? depth

def isBalanced (ts : List Token) : Bool := depthAfter? 0 ts = some 0

def enclosed? : List Token → Option (List Token)
  | [] => none
  | first :: rest =>
    if first.kind = .opening ∧ rest.getLast?.any (·.kind = .closing) ∧ isBalanced rest.dropLast then
      some rest.dropLast
    else none

def toUnmatched? (depth : Nat) (ts : List Token) : Option (List Token) :=
  ts.inits.find? fun us ↦ (depthAfter? depth us).isNone

theorem depthAfter?_cons (depth : Nat) (t : Token) (ts : List Token) :
    depthAfter? depth (t :: ts) = (deepen? depth t).bind fun d ↦ depthAfter? d ts := rfl

theorem depthAfter?_append (depth : Nat) (ts us : List Token) :
    depthAfter? depth (ts ++ us) = (depthAfter? depth ts).bind fun d ↦ depthAfter? d us :=
  List.foldlM_append

theorem deepen?_opening (h : t.kind = .opening) (depth : Nat) : deepen? depth t = some (depth + 1) := by
  simp [deepen?, h]

theorem deepen?_closing (h : t.kind = .closing) (depth : Nat) :
    deepen? (depth + 1) t = some depth := by
  simp [deepen?, h]

theorem deepen?_zero_closing (h : t.kind = .closing) : deepen? 0 t = none := by
  simp [deepen?, h]

theorem deepen?_word (h : t.kind = .word) (depth : Nat) : deepen? depth t = some depth := by
  simp [deepen?, h]

theorem deepen?_connective {op : Connective} (h : t.kind = .connective op) (depth : Nat) :
    deepen? depth t = some depth := by
  simp [deepen?, h]

theorem deepen?_add {d : Nat} (h : deepen? depth t = some d) (more : Nat) :
    deepen? (depth + more) t = some (d + more) := by
  cases hk : t.kind with
  | opening =>
    rw [deepen?_opening hk] at h ⊢
    cases h
    rw [Nat.add_right_comm]
  | closing =>
    cases depth with
    | zero => rw [deepen?_zero_closing hk] at h; cases h
    | succ depth =>
      rw [deepen?_closing hk] at h
      cases h
      rw [Nat.add_right_comm, deepen?_closing hk]
  | connective op =>
    rw [deepen?_connective hk] at h ⊢
    cases h
    rfl
  | word =>
    rw [deepen?_word hk] at h ⊢
    cases h
    rfl

theorem deepen?_eq_none_iff : deepen? depth t = none ↔ depth = 0 ∧ t.kind = .closing := by
  cases hk : t.kind with
  | opening => simp [deepen?_opening hk]
  | closing => cases depth <;> simp [deepen?_zero_closing hk, deepen?_closing hk]
  | connective op => simp [deepen?_connective hk]
  | word => simp [deepen?_word hk]

theorem depthAfter?_add {d : Nat} (h : depthAfter? depth ts = some d) (more : Nat) :
    depthAfter? (depth + more) ts = some (d + more) := by
  induction ts generalizing depth with
  | nil =>
    cases h
    rfl
  | cons t ts ih =>
    rw [depthAfter?_cons] at h ⊢
    obtain ⟨e, ht, hd⟩ := Option.bind_eq_some_iff.1 h
    rw [deepen?_add ht more]
    exact ih hd

theorem toUnmatched?_cons_of_eq_some {d : Nat} (h : deepen? depth t = some d) (ts : List Token) :
    toUnmatched? depth (t :: ts) = (toUnmatched? d ts).map (t :: ·) := by
  have hp : (fun us ↦ (depthAfter? depth us).isNone) ∘ List.cons t =
      fun us ↦ (depthAfter? d us).isNone := by
    funext us
    simp [depthAfter?_cons, h]
  rw [toUnmatched?, List.inits_cons, List.find?_cons_of_neg (by simp [depthAfter?]), List.find?_map,
    hp, ← toUnmatched?]

theorem toUnmatched?_cons_of_eq_none (h : deepen? depth t = none) (ts : List Token) :
    toUnmatched? depth (t :: ts) = some [t] := by
  have hp : (fun us ↦ (depthAfter? depth us).isNone) ∘ List.cons t = fun _ ↦ true := by
    funext us
    simp [depthAfter?_cons, h]
  rw [toUnmatched?, List.inits_cons, List.find?_cons_of_neg (by simp [depthAfter?]), List.find?_map,
    hp]
  cases ts <;> rfl

theorem toUnmatched?_eq_none_iff : toUnmatched? depth ts = none ↔ (depthAfter? depth ts).isSome := by
  induction ts generalizing depth with
  | nil => simp [toUnmatched?, depthAfter?]
  | cons t ts ih =>
    rw [depthAfter?_cons]
    cases h : deepen? depth t with
    | none => simp [toUnmatched?_cons_of_eq_none h]
    | some d => simp [toUnmatched?_cons_of_eq_some h, ih]

theorem enclosed?_eq_some_iff :
    enclosed? ts = some inside ↔ ∃ first close, ts = first :: (inside ++ [close]) ∧
      first.kind = .opening ∧ close.kind = .closing ∧ isBalanced inside := by
  constructor
  · intro h
    cases ts with
    | nil => cases h
    | cons first rest =>
      simp only [enclosed?, Option.ite_none_right_eq_some, Option.some.injEq] at h
      obtain ⟨⟨hf, hl, hb⟩, rfl⟩ := h
      cases hc : rest.getLast? with
      | none => simp [hc] at hl
      | some close =>
        have hr := List.dropLast_append_getLast? close hc
        exact ⟨first, close, by rw [hr], hf, by simpa [hc] using hl, hb⟩
  · rintro ⟨first, close, rfl, hf, hc, hb⟩
    simp [enclosed?, hf, hc, hb]

end ListingFilter.Token

namespace ListingFilter.Group

open Token

variable {depth : Nat} {t s : Text} {close : Token} {ts inside after : List Token}

theorem splitAtClosing?_cons (depth : Nat) (t : Token) (ts : List Token) :
    splitAtClosing? depth (t :: ts) = match deepen? depth t with
      | some d => (splitAtClosing? d ts).map fun (inside, found) ↦ (t :: inside, found)
      | none => some ([], t, ts) := by
  cases hk : t.kind with
  | opening => simp [splitAtClosing?, hk, deepen?_opening hk]
  | closing =>
    cases depth with
    | zero => simp [splitAtClosing?, hk, deepen?_zero_closing hk]
    | succ depth => simp [splitAtClosing?, hk, deepen?_closing hk]
  | connective op => simp [splitAtClosing?, hk, deepen?_connective hk]
  | word => simp [splitAtClosing?, hk, deepen?_word hk]

theorem splitAtClosing?_eq_some_iff :
    splitAtClosing? depth ts = some (inside, close, after) ↔
      ts = inside ++ close :: after ∧ depthAfter? depth inside = some 0 ∧ close.kind = .closing := by
  induction ts generalizing depth inside with
  | nil => simp [splitAtClosing?]
  | cons t ts ih =>
    rw [splitAtClosing?_cons]
    cases h : deepen? depth t with
    | none =>
      obtain ⟨rfl, hk⟩ := deepen?_eq_none_iff.1 h
      constructor
      · intro hs
        cases hs
        exact ⟨rfl, rfl, hk⟩
      · rintro ⟨ht, hd, hc⟩
        cases inside with
        | nil => cases ht; rfl
        | cons u inside =>
          cases ht
          rw [depthAfter?_cons, h] at hd
          cases hd
    | some d =>
      constructor
      · intro hs
        obtain ⟨⟨inside, found⟩, hs, he⟩ := Option.map_eq_some_iff.1 hs
        cases he
        obtain ⟨rfl, hd, hc⟩ := ih.1 hs
        exact ⟨rfl, by rw [depthAfter?_cons, h]; exact hd, hc⟩
      · rintro ⟨ht, hd, hc⟩
        cases inside with
        | nil =>
          cases ht
          cases hd
          rw [deepen?_zero_closing hc] at h
          cases h
        | cons u inside =>
          cases ht
          rw [depthAfter?_cons, h] at hd
          exact Option.map_eq_some_iff.2 ⟨_, ih.2 ⟨rfl, hd, hc⟩, rfl⟩

/-- A group is what two matching parentheses enclose, with the blanks in front of the second. -/
theorem inner?_eq_some_iff :
    inner? t = some s ↔ ∃ first inside close, Token.read t = first :: (inside ++ [close]) ∧
      first.kind = .opening ∧ close.kind = .closing ∧ isBalanced inside ∧
        s = layout inside ++ close.gap := by
  unfold inner?
  constructor
  · intro h
    split at h
    · cases h
    · next first rest hr =>
      split at h
      · next inside close hf hs =>
        obtain ⟨rfl, hd, hc⟩ := splitAtClosing?_eq_some_iff.1 hs
        cases h
        exact ⟨first, inside, close, hr, hf, hc, by simpa [isBalanced] using hd, rfl⟩
      · cases h
  · rintro ⟨first, inside, close, hr, hf, hc, hb, rfl⟩
    have hs : splitAtClosing? 0 (inside ++ [close]) = some (inside, close, []) :=
      splitAtClosing?_eq_some_iff.2 ⟨rfl, by simpa [isBalanced] using hb, hc⟩
    simp [hr, hf, hs]

end ListingFilter.Group
