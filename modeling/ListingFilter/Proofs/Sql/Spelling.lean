import ListingFilter.Proofs.Sql.Lexeme
import Mathlib.Data.List.Chain

namespace ListingFilter

namespace Sql

def Value.lexeme : Value → Lexeme
  | text t => .literal t
  | bool b => .sign (truthText b)
  | id n | number n => .sign (.ofInt n.toInt)

def Piece.lexeme? : Piece → Option Lexeme
  | symbol s => some (.sign s.text)
  | gap => none
  | name t => some (.name t)
  | value v => some v.lexeme

def lexemes (pieces : List Piece) : List Lexeme := pieces.filterMap Piece.lexeme?

def Symbol.isBreak : Symbol → Bool
  | dot | comma | opening | closing => true
  | _ => false

def Piece.isBreak : Piece → Bool
  | gap => true
  | symbol s => s.isBreak
  | _ => false

/-- No two pieces stand side by side that would be read as one. -/
def Separated (pieces : List Piece) : Prop :=
  pieces.IsChain fun a b ↦ a.isBreak = true ∨ b.isBreak = true

theorem Symbol.exists_char_of_isBreak {s : Symbol} (h : s.isBreak = true) :
    ∃ c, s.text = [c] ∧ isBreakChar c = true ∧ isMark c = true := by
  cases s with
  | dot => exact ⟨'.', rfl, by decide⟩
  | comma => exact ⟨',', rfl, by decide⟩
  | opening => exact ⟨'(', rfl, by decide⟩
  | closing => exact ⟨')', rfl, by decide⟩
  | _ => cases h

end Sql

namespace Dialect

open Sql

variable {d : Dialect} {lexeme : Lexeme} {piece : Piece} {pieces : List Piece} {t rest : Text}

def pieceText (d : Dialect) : Piece → Text
  | .value v => d.literal v
  | piece => d.fixedText piece

theorem inlineText_cons (d : Dialect) (piece : Piece) (pieces : List Piece) :
    d.inlineText (piece :: pieces) = d.pieceText piece ++ d.inlineText pieces := by
  cases piece <;> rfl

theorem endsSign_inlineText (h : ∀ piece ∈ pieces.head?, piece.isBreak = true) :
    EndsSign (d.inlineText pieces) := by
  cases pieces with
  | nil => simp [EndsSign, inlineText]
  | cons piece pieces =>
    have hp := h piece rfl
    intro c hc
    rw [inlineText_cons] at hc
    cases piece with
    | gap =>
      cases hc
      rfl
    | symbol s =>
      obtain ⟨b, hb, hbreak, -⟩ := Symbol.exists_char_of_isBreak hp
      change c ∈ (s.text ++ d.inlineText pieces).head? at hc
      rw [hb] at hc
      cases hc
      exact hbreak
    | name t => cases hp
    | value v => cases hp

theorem lexemes?_sign (h : isSign t = true) (hr : EndsSign rest ∨ ∀ c ∈ t.head?, isMark c = true) :
    d.lexemes? (t ++ rest) = (d.lexemes? rest).map (.sign t :: ·) := by
  cases t with
  | nil => cases h
  | cons c w =>
    have hmark : EndsSign rest ∨ isMark c = true := hr.imp_right fun hm ↦ hm c rfl
    exact lexemes?_of_leading? (ne_of_isSign h).2.2.2 (leading?_sign h hmark)

theorem lexemes?_name (hr : EndsSign rest) (t : Text) :
    d.lexemes? (d.quoteName t ++ rest) = (d.lexemes? rest).map (.name t :: ·) := by
  have hne : d.nameQuote ≠ ' ' ∧ isBreakChar d.nameQuote = false := by cases d <;> decide
  have hl : d.leading? d.nameQuote (doubled d.nameQuote t ++ d.nameQuote :: rest) =
      some (.name t, rest) := by
    rw [leading?, if_pos rfl, undoubled?_doubled (hr.head?_ne hne.2)]
    rfl
  have h := lexemes?_of_leading? hne.1 hl
  simpa [quoteName] using h

theorem leading?_quote {body : Text} (h : d.literalBody? body = some (t, rest)) :
    d.leading? '\'' body = some (.literal t, rest) := by
  have hname : '\'' ≠ d.nameQuote := by cases d <;> decide
  rw [leading?, if_neg hname, if_pos rfl, h]
  rfl

theorem leading?_textLiteral (hr : EndsSign rest) (t : Text) :
    ∃ c body, d.textLiteral t ++ rest = c :: body ∧ c ≠ ' ' ∧
      d.leading? c body = some (.literal t, rest) := by
  cases d with
  | sqlite =>
    refine ⟨'\'', doubled '\'' t ++ '\'' :: rest, by simp [textLiteral, quoted], by decide, ?_⟩
    exact leading?_quote (undoubled?_doubled (hr.head?_ne (by decide)) t)
  | mysql =>
    refine ⟨'\'', escaped t ++ '\'' :: rest, by simp [textLiteral, quoted], by decide, ?_⟩
    exact leading?_quote (unescaped?_escaped t rest)
  | postgres =>
    by_cases hb : '\\' ∈ escaped t
    · refine ⟨'E', '\'' :: (escaped t ++ '\'' :: rest), by simp [textLiteral, quoted, hb],
        by decide, ?_⟩
      have hE : ¬ ('E' = postgres.nameQuote) ∧ ¬ ('E' = '\'') := by decide
      rw [leading?, if_neg hE.1, if_neg hE.2, if_pos ⟨rfl, rfl, rfl⟩, List.tail_cons,
        unescaped?_escaped]
      rfl
    · obtain ⟨he, hq⟩ := escaped_eq_self hb
      have hliteral : postgres.textLiteral t = '\'' :: (t ++ ['\'']) := by
        rw [textLiteral, if_neg hb, he, quoted]
      refine ⟨'\'', t ++ '\'' :: rest, by simp [hliteral], by decide, ?_⟩
      exact leading?_quote (Text.splitOnce?_singleton_append hq rest)

theorem lexemes?_textLiteral (hr : EndsSign rest) (t : Text) :
    d.lexemes? (d.textLiteral t ++ rest) = (d.lexemes? rest).map (.literal t :: ·) := by
  obtain ⟨c, body, ht, hc, hl⟩ := leading?_textLiteral (d := d) hr t
  rw [ht, lexemes?_of_leading? hc hl]

theorem lexemes?_value (hr : EndsSign rest) (v : Value) :
    d.lexemes? (d.literal v ++ rest) = (d.lexemes? rest).map (v.lexeme :: ·) := by
  cases v with
  | text t => exact lexemes?_textLiteral hr t
  | bool b => exact lexemes?_sign (isSign_text (.truth b)) (.inl hr)
  | id n => exact lexemes?_sign (isSign_ofInt n.toInt) (.inl hr)
  | number n => exact lexemes?_sign (isSign_ofInt n.toInt) (.inl hr)

theorem lexemes?_piece (hr : piece.isBreak = true ∨ EndsSign rest) :
    d.lexemes? (d.pieceText piece ++ rest) =
      (d.lexemes? rest).map (piece.lexeme?.toList ++ ·) := by
  cases piece with
  | gap => simpa [pieceText, fixedText, Piece.lexeme?] using d.lexemes?_space rest
  | symbol s =>
    refine lexemes?_sign (isSign_text s) (hr.symm.imp_right fun hbreak c hc ↦ ?_)
    change c ∈ s.text.head? at hc
    obtain ⟨b, hb, -, hmark⟩ := Symbol.exists_char_of_isBreak hbreak
    rw [hb] at hc
    cases hc
    exact hmark
  | name t => exact lexemes?_name (hr.resolve_left (by simp [Piece.isBreak])) t
  | value v => exact lexemes?_value (hr.resolve_left (by simp [Piece.isBreak])) v

/-- Reading the text of a statement gives back its names, literals and signs. -/
theorem lexemes?_inlineText (d : Dialect) (h : Separated pieces) :
    d.lexemes? (d.inlineText pieces) = some (lexemes pieces) := by
  induction pieces with
  | nil => exact d.lexemes?_nil
  | cons piece pieces ih =>
    obtain ⟨head, tail⟩ := List.isChain_cons.1 h
    have hr : piece.isBreak = true ∨ EndsSign (d.inlineText pieces) := by
      by_cases hp : piece.isBreak = true
      · exact .inl hp
      · exact .inr (endsSign_inlineText fun next hn ↦ (head next hn).resolve_left hp)
    rw [inlineText_cons, lexemes?_piece hr, ih tail]
    cases hl : piece.lexeme? <;> simp [lexemes, hl]

end Dialect

namespace Sql

variable {b : Piece} {xs ys : List Piece}

theorem separated_cons_iff (hb : b.isBreak = true) (ys : List Piece) :
    Separated (b :: ys) ↔ Separated ys := by
  simp [Separated, List.isChain_cons, hb]

theorem separated_append_cons_iff (hb : b.isBreak = true) (xs ys : List Piece) :
    Separated (xs ++ b :: ys) ↔ Separated xs ∧ Separated ys := by
  rw [Separated, List.isChain_append, List.isChain_cons]
  simp [Separated, hb]

theorem separated_spaced_iff (xs : List Piece) (s : Symbol) (ys : List Piece) :
    Separated (xs ++ Piece.spaced s ++ ys) ↔ Separated xs ∧ Separated ys := by
  have gap : Piece.gap.isBreak = true := rfl
  have h : xs ++ Piece.spaced s ++ ys =
      xs ++ Piece.gap :: ([Piece.symbol s] ++ Piece.gap :: ys) := by
    simp [Piece.spaced]
  rw [h, separated_append_cons_iff gap, separated_append_cons_iff gap]
  simp [Separated]

theorem separated_enclosed_iff : Separated (Piece.enclosed xs) ↔ Separated xs := by
  rw [Piece.enclosed, separated_cons_iff rfl, separated_append_cons_iff rfl]
  simp [Separated]

theorem separated_singleton (piece : Piece) : Separated [piece] := List.isChain_singleton piece

theorem ColumnRef.separated_pieces (c : ColumnRef) : Separated c.pieces := by
  simp [Separated, ColumnRef.pieces, Piece.isBreak, Symbol.isBreak]

theorem separated_valueList (vs : List Value) : Separated (valueList vs) := by
  fun_induction valueList vs with
  | case1 => exact List.isChain_nil
  | case2 v => exact separated_singleton _
  | case3 v vs _ ih =>
    have comma : (Piece.symbol .comma).isBreak = true := rfl
    refine (separated_append_cons_iff comma [.value v] (.gap :: valueList vs)).2 ⟨?_, ?_⟩
    · exact separated_singleton _
    · exact (separated_cons_iff rfl _).2 ih

theorem separated_cons_of_head? {piece : Piece} (h : Separated ys)
    (hb : ∀ b ∈ ys.head?, b.isBreak = true) : Separated (piece :: ys) :=
  List.isChain_cons.2 ⟨fun b hm ↦ .inr (hb b hm), h⟩

theorem Join.separated_pieces (j : Join) : Separated j.pieces := by
  have start : Separated [.gap, .symbol .inner, .gap, .symbol .join, .gap, .name j.table] := by
    simp [Separated, Piece.isBreak]
  have left := (separated_spaced_iff _ .link _).2 ⟨start, j.left.separated_pieces⟩
  exact (separated_spaced_iff _ (.operator .eq) _).2 ⟨left, j.right.separated_pieces⟩

theorem Source.separated_pieces (s : Source) : Separated s.pieces := by
  refine (separated_spaced_iff [_] .named _).2 ⟨separated_singleton _, ?_⟩
  cases s.join? with
  | none => exact separated_singleton _
  | some j =>
    refine separated_cons_of_head? j.separated_pieces fun b hb ↦ ?_
    cases hb
    rfl

theorem Expr.separated_pieces (e : Expr) : Separated e.pieces := by
  induction e with
  | truth value => exact separated_singleton _
  | compare column op value =>
    exact (separated_spaced_iff _ _ _).2 ⟨column.separated_pieces, separated_singleton _⟩
  | member column values =>
    cases values with
    | nil => exact (separated_spaced_iff [_] _ _).2 ⟨separated_singleton _, separated_singleton _⟩
    | cons v vs =>
      exact (separated_spaced_iff _ _ _).2
        ⟨column.separated_pieces, separated_enclosed_iff.2 (separated_valueList _)⟩
  | same left right =>
    exact (separated_spaced_iff _ _ _).2 ⟨left.separated_pieces, right.separated_pieces⟩
  | rowExists source condition ih =>
    have start : Separated [.symbol .select, .gap, .symbol .one] := by
      simp [Separated, Piece.isBreak]
    have rows := (separated_spaced_iff _ .source _).2 ⟨start, source.separated_pieces⟩
    have inside := (separated_spaced_iff _ .condition _).2 ⟨rows, ih⟩
    refine separated_cons_of_head? (separated_enclosed_iff.2 inside) fun b hb ↦ ?_
    cases hb
    rfl
  | binary op left right ihl ihr =>
    refine (separated_spaced_iff _ _ _).2 ⟨?_, ?_⟩
    · split
      · exact separated_enclosed_iff.2 ihl
      · exact ihl
    · split
      · exact separated_enclosed_iff.2 ihr
      · exact ihr

theorem Select.separated_pieces (s : Select) : Separated s.pieces := by
  have start : Separated [.symbol .select, .gap, .name s.table, .symbol .dot, .symbol .star] := by
    simp [Separated, Piece.isBreak, Symbol.isBreak]
  refine (separated_spaced_iff _ .source _).2 ⟨start, ?_⟩
  cases s.condition? with
  | none => exact separated_singleton _
  | some e => exact (separated_spaced_iff [_] .condition _).2 ⟨separated_singleton _, e.separated_pieces⟩

end Sql

end ListingFilter
