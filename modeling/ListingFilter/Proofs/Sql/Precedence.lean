import ListingFilter.Proofs.Sql.Spelling

namespace ListingFilter

namespace Sql

/-- A condition by its connectives. An atom is not looked into. -/
inductive Formula
  | atom (lexemes : List Lexeme)
  | binary (op : Connective) (left right : Formula)
  deriving DecidableEq, Repr

namespace Lexeme

def opening : Lexeme := .sign ['(']

def closing : Lexeme := .sign [')']

def connective (op : Connective) : Lexeme := .sign op.keyword

def deepen? (depth : Nat) (l : Lexeme) : Option Nat :=
  if l = opening then some (depth + 1)
  else if l = closing then
    match depth with
    | 0 => none
    | depth + 1 => some depth
  else some depth

def isPlain (l : Lexeme) : Bool :=
  l ≠ opening ∧ l ≠ closing ∧ l ≠ connective .and ∧ l ≠ connective .or

end Lexeme

open Lexeme

abbrev Ranges := List Lexeme × List (List Lexeme)

def Ranges.prepend (ls : List Lexeme) (r : Ranges) : Ranges := (ls ++ r.1, r.2)

def ranges? (op : Connective) (depth : Nat) : List Lexeme → Option Ranges
  | [] => if depth = 0 then some ([], []) else none
  | l :: ls =>
    if l = connective op ∧ depth = 0 then (ranges? op 0 ls).map fun r ↦ ([], r.1 :: r.2)
    else (l.deepen? depth).bind fun depth ↦ (ranges? op depth ls).map (Ranges.prepend [l])

/-- Joins what the ranges between the connectives `op` are read as, from the left. -/
def level? (op : Connective) (operand? : List Lexeme → Option Formula) (ls : List Lexeme) :
    Option Formula := do
  let (first, later) ← ranges? op 0 ls
  return (← later.mapM operand?).foldl (.binary op) (← operand? first)

def primary? (condition? : List Lexeme → Option Formula) : List Lexeme → Option Formula
  | [] => none
  | first :: rest =>
    if first = opening then
      if rest.getLast? = some closing then condition? rest.dropLast else none
    else some (.atom (first :: rest))

/-- What stands between two of the connective: AND is read before OR. -/
def operand? (condition? : List Lexeme → Option Formula) :
    Connective → List Lexeme → Option Formula
  | .and => primary? condition?
  | .or => level? .and (primary? condition?)

namespace Formula

/-- The condition that lexemes are, where parentheses stand in one another less than `bound` times. -/
def within? : (bound : Nat) → List Lexeme → Option Formula
  | 0, _ => none
  | bound + 1, ls => level? .or (operand? (within? bound) .or) ls

def ofLexemes? (ls : List Lexeme) : Option Formula := within? (ls.length + 1) ls

end Formula

variable {op op' : Connective} {depth least more : Nat} {l : Lexeme} {ls us : List Lexeme}
  {r : Ranges} {f g : Formula} {read? : List Lexeme → Option Formula}

theorem prepend_nil : Ranges.prepend [] = id := rfl

theorem prepend_comp_prepend (ls us : List Lexeme) :
    Ranges.prepend ls ∘ Ranges.prepend us = Ranges.prepend (ls ++ us) :=
  funext fun r ↦ congrArg (·, r.2) (List.append_assoc ls us r.1).symm

theorem ranges?_cons (hl : l = connective op → depth ≠ 0) (ls : List Lexeme) :
    ranges? op depth (l :: ls) =
      (l.deepen? depth).bind fun depth ↦ (ranges? op depth ls).map (Ranges.prepend [l]) := by
  rw [ranges?, if_neg fun h ↦ hl h.1 h.2]

theorem deepen?_opening (depth : Nat) : opening.deepen? depth = some (depth + 1) := rfl

theorem deepen?_closing (depth : Nat) : closing.deepen? (depth + 1) = some depth := rfl

theorem deepen?_connective (op : Connective) (depth : Nat) :
    (connective op).deepen? depth = some depth := by
  cases op <;> rfl

theorem connective_ne_connective (h : op ≠ op') : connective op ≠ connective op' := by
  cases op <;> cases op' <;> first | exact absurd rfl h | decide

theorem deepen?_of_isPlain (h : l.isPlain = true) (depth : Nat) : l.deepen? depth = some depth := by
  simp only [isPlain, decide_eq_true_eq] at h
  rw [Lexeme.deepen?.eq_def, if_neg h.1, if_neg h.2.1]

theorem ne_connective_of_isPlain (h : l.isPlain = true) (op : Connective) : l ≠ connective op := by
  simp only [isPlain, decide_eq_true_eq] at h
  cases op
  · exact h.2.2.1
  · exact h.2.2.2

/-- Where at least `least` parentheses are open, the connective does not divide these lexemes, and
they leave as many open. -/
def Undivided (op : Connective) (least : Nat) (ls : List Lexeme) : Prop :=
  ∀ depth, least ≤ depth → ∀ us,
    ranges? op depth (ls ++ us) = (ranges? op depth us).map (Ranges.prepend ls)

namespace Undivided

theorem mono (h : Undivided op least ls) (hle : least ≤ more) : Undivided op more ls :=
  fun depth hd us ↦ h depth (hle.trans hd) us

theorem append (h : Undivided op least ls) (h' : Undivided op least us) :
    Undivided op least (ls ++ us) := by
  intro depth hd vs
  rw [List.append_assoc, h depth hd, h' depth hd, Option.map_map, prepend_comp_prepend]

theorem single (hl : l = connective op → 0 < least) (hd : ∀ depth, l.deepen? depth = some depth) :
    Undivided op least [l] := by
  intro depth hle us
  have hne : l = connective op → depth ≠ 0 := fun h ↦ Nat.ne_of_gt ((hl h).trans_le hle)
  rw [List.singleton_append, ranges?_cons hne, hd, Option.bind_some]

theorem of_isPlain (h : ∀ l ∈ ls, l.isPlain = true) : Undivided op 0 ls := by
  induction ls with
  | nil => exact fun depth _ us ↦ by rw [prepend_nil, Option.map_id, id, List.nil_append]
  | cons l ls ih =>
    obtain ⟨head, tail⟩ := List.forall_mem_cons.1 h
    have hl : Undivided op 0 [l] :=
      single (fun h ↦ absurd h (ne_connective_of_isPlain head op)) (deepen?_of_isPlain head)
    exact hl.append (ih tail)

theorem enclosed (h : Undivided op 1 ls) : Undivided op 0 (opening :: (ls ++ [closing])) := by
  intro depth _ us
  have hopen : opening ≠ connective op := by cases op <;> decide
  have hclose : closing ≠ connective op := by cases op <;> decide
  rw [List.cons_append, List.append_assoc, List.singleton_append,
    ranges?_cons fun h ↦ absurd h hopen, deepen?_opening, Option.bind_some,
    h _ (Nat.le_add_left ..),
    ranges?_cons fun h ↦ absurd h hclose, deepen?_closing, Option.bind_some, Option.map_map,
    prepend_comp_prepend, Option.map_map, prepend_comp_prepend, List.singleton_append,
    List.cons_append]

theorem ranges?_eq (h : Undivided op 0 ls) : ranges? op 0 ls = some (ls, []) := by
  have hnil := h 0 le_rfl []
  rw [List.append_nil] at hnil
  rw [hnil]
  simp [ranges?, Ranges.prepend]

theorem level?_eq (h : Undivided op 0 ls) : level? op read? ls = read? ls := by
  rw [level?, h.ranges?_eq]
  cases hf : read? ls <;> simp [hf]

end Undivided

theorem ranges?_append_connective (h : ranges? op depth ls = some r) (us : List Lexeme) :
    ranges? op depth (ls ++ connective op :: us) =
      (ranges? op 0 us).map fun r' ↦ (r.1, r.2 ++ r'.1 :: r'.2) := by
  induction ls generalizing depth r with
  | nil =>
    by_cases hd : depth = 0
    · subst hd
      cases h
      simp [ranges?]
    · simp [ranges?, hd] at h
  | cons l ls ih =>
    by_cases hl : l = connective op ∧ depth = 0
    · rw [ranges?, if_pos hl] at h
      obtain ⟨r, hr, rfl⟩ := Option.map_eq_some_iff.1 h
      rw [List.cons_append, ranges?, if_pos hl, ih hr, Option.map_map]
      rfl
    · rw [ranges?, if_neg hl] at h
      obtain ⟨d, hd, h⟩ := Option.bind_eq_some_iff.1 h
      obtain ⟨r, hr, rfl⟩ := Option.map_eq_some_iff.1 h
      rw [List.cons_append, ranges?, if_neg hl, hd, Option.bind_some, ih hr, Option.map_map]
      rfl

theorem level?_append_connective (hl : level? op read? ls = some f) (hu : Undivided op 0 us)
    (hg : read? us = some g) :
    level? op read? (ls ++ connective op :: us) = some (.binary op f g) := by
  obtain ⟨r, hr, h⟩ := Option.bind_eq_some_iff.1 hl
  obtain ⟨later, hlater, h⟩ := Option.bind_eq_some_iff.1 h
  obtain ⟨first, hfirst, h⟩ := Option.bind_eq_some_iff.1 h
  cases h
  rw [level?, ranges?_append_connective hr, hu.ranges?_eq]
  simp [hlater, hfirst, hg]

example :
    Formula.ofLexemes? [.name ['a'], connective .or, .name ['b'], connective .and, .name ['c']] =
      some (.binary .or (.atom [.name ['a']])
        (.binary .and (.atom [.name ['b']]) (.atom [.name ['c']]))) := by
  decide

def Symbol.divides : Symbol → Bool
  | opening | closing | connective _ => true
  | _ => false

def Piece.divides : Piece → Bool
  | symbol s => s.divides
  | _ => false

theorem isPlain_sign_text {s : Symbol} (h : s.divides = false) :
    (Lexeme.sign s.text).isPlain = true := by
  cases s with
  | operator op => cases op <;> decide
  | truth value => cases value <;> decide
  | connective op => cases h
  | opening => cases h
  | closing => cases h
  | _ => decide

theorem isPlain_sign {t : Text} (h : ∀ c ∈ t, c ∉ ['(', ')', 'A', 'O']) :
    (Lexeme.sign t).isPlain = true := by
  have other (c : Char) (w : Text) (hc : c ∈ ['(', ')', 'A', 'O']) :
      Lexeme.sign t ≠ .sign (c :: w) := by
    intro ht
    cases ht
    exact h c List.mem_cons_self hc
  have parens : Lexeme.sign t ≠ opening ∧ Lexeme.sign t ≠ closing :=
    ⟨other '(' [] (by decide), other ')' [] (by decide)⟩
  have connectives : Lexeme.sign t ≠ connective .and ∧ Lexeme.sign t ≠ connective .or :=
    ⟨other 'A' ['N', 'D'] (by decide), other 'O' ['R'] (by decide)⟩
  exact decide_eq_true ⟨parens.1, parens.2, connectives⟩

theorem isPlain_sign_ofInt (n : Int) : (Lexeme.sign (.ofInt n)).isPlain = true := by
  refine isPlain_sign fun c hc hm ↦ ?_
  have hc := Text.isDigit_of_mem_ofInt hc
  simp only [List.mem_cons, List.not_mem_nil, or_false] at hm
  obtain rfl | rfl | rfl | rfl := hm <;> exact absurd hc (by decide)

theorem Value.isPlain_lexeme (v : Value) : v.lexeme.isPlain = true := by
  cases v with
  | text t => rfl
  | bool b => exact isPlain_sign_text (s := .truth b) rfl
  | id n => exact isPlain_sign_ofInt n.toInt
  | number n => exact isPlain_sign_ofInt n.toInt

theorem Piece.isPlain_of_mem {piece : Piece} (h : piece.divides = false) :
    ∀ l ∈ piece.lexeme?, l.isPlain = true := by
  intro l hl
  cases piece with
  | gap => cases hl
  | symbol s => cases hl; exact isPlain_sign_text h
  | name t => cases hl; rfl
  | value v => cases hl; exact v.isPlain_lexeme

theorem undivided_of_divides {pieces : List Piece} (h : ∀ piece ∈ pieces, piece.divides = false) :
    Undivided op 0 (lexemes pieces) := by
  refine .of_isPlain fun l hl ↦ ?_
  obtain ⟨piece, hp, hl⟩ := List.mem_filterMap.1 hl
  exact Piece.isPlain_of_mem (h piece hp) l hl

theorem lexemes_append (xs ys : List Piece) : lexemes (xs ++ ys) = lexemes xs ++ lexemes ys :=
  List.filterMap_append

theorem lexemes_enclosed (xs : List Piece) :
    lexemes (Piece.enclosed xs) = opening :: (lexemes xs ++ [closing]) := by
  rw [Piece.enclosed, lexemes, List.filterMap_cons, List.filterMap_append]
  rfl

theorem undivided_spaced {s : Symbol} {xs ys : List Piece} (hs : s.divides = false)
    (hx : Undivided op least (lexemes xs)) (hy : Undivided op least (lexemes ys)) :
    Undivided op least (lexemes (xs ++ Piece.spaced s ++ ys)) := by
  have hmid : Undivided op 0 (lexemes (Piece.spaced s)) :=
    undivided_of_divides (by simp [Piece.spaced, Piece.divides, hs])
  rw [lexemes_append, lexemes_append]
  exact (hx.append (hmid.mono (Nat.zero_le least))).append hy

theorem undivided_enclosed {xs : List Piece} (h : Undivided op 1 (lexemes xs)) :
    Undivided op 0 (lexemes (Piece.enclosed xs)) := by
  rw [lexemes_enclosed]
  exact h.enclosed

theorem undivided_value (v : Value) : Undivided op 0 (lexemes [.value v]) :=
  undivided_of_divides (by simp [Piece.divides])

theorem undivided_column (c : ColumnRef) : Undivided op 0 (lexemes c.pieces) :=
  undivided_of_divides (by simp [ColumnRef.pieces, Piece.divides, Symbol.divides])

theorem undivided_source (s : Source) : Undivided op 0 (lexemes s.pieces) := by
  refine undivided_of_divides ?_
  cases h : s.join? <;>
    simp [Source.pieces, Join.pieces, Piece.spaced, ColumnRef.pieces, Piece.divides,
      Symbol.divides, h]

theorem undivided_valueList (vs : List Value) : Undivided op 0 (lexemes (valueList vs)) := by
  refine undivided_of_divides ?_
  fun_induction valueList vs with
  | case1 => simp
  | case2 v => simp [Piece.divides]
  | case3 v vs _ ih => simpa [Piece.divides, Symbol.divides] using ih

namespace Expr

def lexemes (e : Expr) : List Lexeme := Sql.lexemes e.pieces

def formula : Expr → Formula
  | binary op left right => .binary op left.formula right.formula
  | e => .atom e.lexemes

def side (parens : Bool) (e : Expr) : List Lexeme :=
  if parens then opening :: (e.lexemes ++ [closing]) else e.lexemes

theorem side_eq (parens : Bool) (e : Expr) : e.side parens =
    Sql.lexemes (if parens then Piece.enclosed e.pieces else e.pieces) := by
  cases parens
  · rfl
  · exact (lexemes_enclosed e.pieces).symm

theorem lexemes_binary (op : Connective) (left right : Expr) :
    (binary op left right).lexemes = left.side (left.needsParensLeft op) ++
      connective op :: right.side right.needsParensRight := by
  rw [lexemes, pieces, lexemes_append, lexemes_append, side_eq, side_eq, List.append_assoc]
  rfl

theorem undivided_side {e : Expr} (h : Undivided op 1 e.lexemes) (parens : Bool)
    (hbare : parens = false → Undivided op least e.lexemes) :
    Undivided op least (e.side parens) := by
  cases parens
  · exact hbare rfl
  · exact h.enclosed.mono (Nat.zero_le least)

theorem undivided_atom {e : Expr} (h : e.needsParensRight = false)
    (hinner : ∀ source condition, e = rowExists source condition →
      Undivided op 1 condition.lexemes) : Undivided op 0 e.lexemes := by
  cases e with
  | truth value => exact undivided_of_divides (by simp [pieces, Piece.divides, Symbol.divides])
  | compare column o value =>
    exact undivided_spaced rfl (undivided_column column) (undivided_value value)
  | member column values =>
    cases values with
    | nil =>
      have hone : Undivided op 0 (Sql.lexemes [.value (.number 1)]) := undivided_value _
      exact undivided_spaced rfl hone (undivided_value _)
    | cons v vs =>
      have hlist : Undivided op 1 (Sql.lexemes (valueList (v :: vs))) :=
        (undivided_valueList _).mono (Nat.zero_le 1)
      exact undivided_spaced rfl (undivided_column column) (undivided_enclosed hlist)
  | same left right => exact undivided_spaced rfl (undivided_column left) (undivided_column right)
  | rowExists source condition =>
    have word : Undivided op 0 (Sql.lexemes [.symbol .rowExists]) :=
      undivided_of_divides (by simp [Piece.divides, Symbol.divides])
    have start : Undivided op 0 (Sql.lexemes [.symbol .select, .gap, .symbol .one]) :=
      undivided_of_divides (by simp [Piece.divides, Symbol.divides])
    have rows := undivided_spaced (s := .source) rfl start (undivided_source source)
    have inside := undivided_spaced (s := .condition) rfl (rows.mono (Nat.zero_le 1))
      (hinner source condition rfl)
    exact word.append (undivided_enclosed inside)
  | binary o left right => cases h

/-- In parentheses nothing divides an expression, and by itself only its own connective does. -/
theorem undivided (e : Expr) (op : Connective) : Undivided op 1 e.lexemes ∧
    ((∀ left right, e ≠ binary op left right) → Undivided op 0 e.lexemes) := by
  have atom {e : Expr} (h : Undivided op 0 e.lexemes) : Undivided op 1 e.lexemes ∧
      ((∀ left right, e ≠ binary op left right) → Undivided op 0 e.lexemes) :=
    ⟨h.mono (Nat.zero_le 1), fun _ ↦ h⟩
  induction e with
  | rowExists source condition ih =>
    refine atom (undivided_atom rfl fun source' condition' he ↦ ?_)
    cases he
    exact ih.1
  | binary op' left right ihl ihr =>
    obtain ⟨hl, hl'⟩ := ihl
    obtain ⟨hr, hr'⟩ := ihr
    rw [lexemes_binary, List.append_cons]
    constructor
    · refine ((undivided_side hl _ fun _ ↦ hl).append ?_).append (undivided_side hr _ fun _ ↦ hr)
      exact .single (fun _ ↦ Nat.one_pos) (deepen?_connective op')
    · intro hne
      have hop : op' ≠ op := fun h ↦ hne left right (by rw [h])
      have hsep : Undivided op 0 [connective op'] :=
        .single (fun h ↦ absurd h (connective_ne_connective hop)) (deepen?_connective op')
      have hleft : Undivided op 0 (left.side (left.needsParensLeft op')) := by
        refine undivided_side hl _ fun hp ↦ hl' fun l r he ↦ ?_
        simp [he, needsParensLeft, Ne.symm hop] at hp
      have hright : Undivided op 0 (right.side right.needsParensRight) := by
        refine undivided_side hr _ fun hp ↦ hr' fun l r he ↦ ?_
        simp [he, needsParensRight] at hp
      exact (hleft.append hsep).append hright
  | _ => exact atom (undivided_atom rfl (by simp))

theorem undivided_of_needsParensRight {e : Expr} (h : e.needsParensRight = false)
    (op : Connective) : Undivided op 0 e.lexemes := by
  refine (e.undivided op).2 fun left right he ↦ ?_
  rw [he] at h
  cases h

theorem formula_eq_atom {e : Expr} (h : e.needsParensRight = false) :
    e.formula = .atom e.lexemes := by
  cases e with
  | binary op left right => cases h
  | _ => rfl

theorem primary?_atom {e : Expr} (h : e.needsParensRight = false) :
    primary? read? e.lexemes = some e.formula := by
  obtain ⟨first, rest, hl, hfirst⟩ :
      ∃ first rest, e.lexemes = first :: rest ∧ first ≠ opening := by
    cases e with
    | truth value => exact ⟨_, _, rfl, by cases value <;> decide⟩
    | compare column op value => exact ⟨_, _, rfl, by simp [opening]⟩
    | member column values =>
      cases values with
      | nil => exact ⟨_, _, rfl, by decide⟩
      | cons v vs => exact ⟨_, _, rfl, by simp [opening]⟩
    | same left right => exact ⟨_, _, rfl, by simp [opening]⟩
    | rowExists source condition => exact ⟨_, _, rfl, by decide⟩
    | binary op left right => cases h
  rw [formula_eq_atom h, hl, primary?, if_neg hfirst]

theorem operand?_eq (h : ∀ op, Undivided op 0 ls) (op : Connective) :
    operand? read? op ls = primary? read? ls := by
  cases op with
  | and => rfl
  | or => exact (h .and).level?_eq

theorem level?_eq_primary? (h : ∀ op, Undivided op 0 ls) (op : Connective) :
    level? op (operand? read? op) ls = primary? read? ls :=
  (h op).level?_eq.trans (operand?_eq h op)

theorem primary?_enclosed (ls : List Lexeme) :
    primary? read? (opening :: (ls ++ [closing])) = read? ls := by
  simp [primary?]

theorem undivided_parens (e : Expr) (op : Connective) : Undivided op 0 (e.side true) :=
  (e.undivided op).1.enclosed

theorem undivided_right (e : Expr) (op : Connective) :
    Undivided op 0 (e.side e.needsParensRight) := by
  cases h : e.needsParensRight with
  | false => exact undivided_of_needsParensRight h op
  | true => exact e.undivided_parens op

theorem length_le_side (e : Expr) (parens : Bool) :
    e.lexemes.length ≤ (e.side parens).length := by
  cases parens with
  | false => exact le_rfl
  | true =>
    simp only [side, if_true, List.length_cons, List.length_append]
    omega

open Formula

/-- An expression is read from its lexemes as a level of each connective that it may stand on the
left of without parentheses. -/
def ReadsAt (e : Expr) (bound : Nat) : Prop := ∀ op, e.needsParensLeft op = false →
  level? op (operand? (within? bound) op) e.lexemes = some e.formula

theorem within?_of_readsAt {e : Expr} {bound : Nat} (h : e.ReadsAt bound) :
    within? (bound + 1) e.lexemes = some e.formula := by
  rw [within?]
  cases hp : e.needsParensLeft .or with
  | false => exact h .or hp
  | true =>
    cases e with
    | binary op left right =>
      obtain rfl : op = .and := by cases op <;> simp_all [needsParensLeft]
      have hor : Undivided .or 0 (binary .and left right).lexemes :=
        (undivided _ .or).2 (by simp)
      exact hor.level?_eq.trans (h .and (by simp [needsParensLeft]))
    | _ => cases hp

theorem primary?_parens {e : Expr} {bound : Nat} (h : e.ReadsAt bound) :
    primary? (within? (bound + 1)) (e.side true) = some e.formula :=
  (primary?_enclosed e.lexemes).trans (within?_of_readsAt h)

theorem readsAt (e : Expr) {bound : Nat} (hb : e.lexemes.length ≤ bound) : e.ReadsAt bound := by
  induction e generalizing bound with
  | binary op left right ihl ihr =>
    intro op' hp
    obtain rfl : op = op' := by simpa [needsParensLeft] using hp
    rw [lexemes_binary, List.length_append, List.length_cons] at hb
    have hl := left.length_le_side (left.needsParensLeft op)
    have hr := right.length_le_side right.needsParensRight
    -- a side in parentheses is read one level below, and at least the connective is left out there
    obtain ⟨less, rfl⟩ : ∃ less, bound = less + 1 := ⟨bound - 1, by omega⟩
    rw [lexemes_binary]
    refine level?_append_connective (f := left.formula) (g := right.formula) ?_
      (right.undivided_right op) ?_
    · cases hparens : left.needsParensLeft op with
      | false => exact ihl (by omega) op hparens
      | true =>
        rw [level?_eq_primary? left.undivided_parens]
        exact primary?_parens (ihl (by omega))
    · rw [operand?_eq right.undivided_right]
      cases hparens : right.needsParensRight with
      | false => exact primary?_atom hparens
      | true => exact primary?_parens (ihr (by omega))
  | _ =>
    intro op _
    rw [level?_eq_primary? (undivided_of_needsParensRight rfl)]
    exact primary?_atom rfl

/-- The lexemes of an expression are read as the expression. -/
theorem ofLexemes?_lexemes (e : Expr) : ofLexemes? e.lexemes = some e.formula :=
  within?_of_readsAt (e.readsAt le_rfl)

end Expr

end Sql

def Dialect.condition? (d : Dialect) (t : Text) : Option Sql.Formula :=
  (d.lexemes? t).bind Sql.Formula.ofLexemes?

theorem Dialect.condition?_inlineText (d : Dialect) (e : Sql.Expr) :
    d.condition? (d.inlineText e.pieces) = some e.formula := by
  rw [condition?, d.lexemes?_inlineText e.separated_pieces]
  exact e.ofLexemes?_lexemes

end ListingFilter
