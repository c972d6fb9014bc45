import ListingFilter.Sql.Dialect

namespace ListingFilter

namespace Sql

variable {piece : Piece}

theorem parameters_append (xs ys : List Piece) :
    parameters (xs ++ ys) = parameters xs ++ parameters ys :=
  List.filterMap_append

theorem parameters_cons_of_ne_value (h : ∀ v, piece ≠ .value v) (rest : List Piece) :
    parameters (piece :: rest) = parameters rest := by
  cases piece with
  | value v => exact absurd rfl (h v)
  | _ => rfl

theorem pieces_induction {P : List Piece → Prop} (nil : P [])
    (value : ∀ v rest, P rest → P (.value v :: rest))
    (other : ∀ piece rest, (∀ v, piece ≠ .value v) → P rest → P (piece :: rest))
    (pieces : List Piece) : P pieces := by
  induction pieces with
  | nil => exact nil
  | cons piece rest ih =>
    cases piece with
    | value v => exact value v rest ih
    | symbol s => exact other _ rest (by simp) ih
    | gap => exact other _ rest (by simp) ih
    | name t => exact other _ rest (by simp) ih

theorem Select.pieces_some (table : Text) (e : Expr) :
    Select.pieces ⟨table, some e⟩ =
      Select.pieces ⟨table, none⟩ ++ (Piece.spaced .condition ++ e.pieces) := by
  simp [Select.pieces]

end Sql

namespace Dialect

open Sql

/-- A statement with a mark for each value. `before` counts the values in front of it. -/
def render (d : Dialect) (mark : Nat → Value → Text) (before : Nat) : List Piece → Text
  | [] => []
  | .value v :: rest => mark before v ++ render d mark (before + 1) rest
  | piece :: rest => d.fixedText piece ++ render d mark before rest

variable (d : Dialect) {mark : Nat → Value → Text} {before : Nat} {piece : Piece}

theorem render_cons_of_ne_value (h : ∀ v, piece ≠ .value v) (rest : List Piece) :
    d.render mark before (piece :: rest) = d.fixedText piece ++ d.render mark before rest := by
  cases piece with
  | value v => exact absurd rfl (h v)
  | _ => rfl

theorem render_append (xs ys : List Piece) :
    d.render mark before (xs ++ ys) =
      d.render mark before xs ++ d.render mark (before + (parameters xs).length) ys := by
  induction xs using pieces_induction generalizing before with
  | nil => rfl
  | value v rest ih =>
    have count : before + (parameters (.value v :: rest)).length =
        before + 1 + (parameters rest).length := by
      change before + ((parameters rest).length + 1) = _
      omega
    rw [count]
    simp only [List.cons_append, render, ih, List.append_assoc]
  | other piece rest h ih =>
    rw [List.cons_append, d.render_cons_of_ne_value h, d.render_cons_of_ne_value h,
      parameters_cons_of_ne_value h, ih, List.append_assoc]

theorem inlineText_eq_render (before : Nat) (pieces : List Piece) :
    d.inlineText pieces = d.render (fun _ ↦ d.literal) before pieces := by
  induction pieces using pieces_induction generalizing before with
  | nil => rfl
  | value v rest ih => exact congrArg (d.literal v ++ ·) (ih (before + 1))
  | other piece rest h ih =>
    rw [d.render_cons_of_ne_value h, ← ih]
    cases piece with
    | value v => exact absurd rfl (h v)
    | _ => rfl

theorem boundText_eq_render (before : Nat) (pieces : List Piece) :
    d.boundText before pieces = d.render (fun i _ ↦ d.placeholder i) before pieces := by
  induction pieces using pieces_induction generalizing before with
  | nil => rfl
  | value v rest ih => exact congrArg (d.placeholder before ++ ·) (ih (before + 1))
  | other piece rest h ih =>
    rw [d.render_cons_of_ne_value h, ← ih]
    cases piece with
    | value v => exact absurd rfl (h v)
    | _ => rfl

theorem inlineText_append (xs ys : List Piece) :
    d.inlineText (xs ++ ys) = d.inlineText xs ++ d.inlineText ys :=
  List.flatMap_append

theorem boundText_append (before : Nat) (xs ys : List Piece) :
    d.boundText before (xs ++ ys) =
      d.boundText before xs ++ d.boundText (before + (parameters xs).length) ys := by
  simp only [boundText_eq_render, render_append]

def everyRow (table : Text) : Text :=
  .ofString "SELECT " ++ d.quoteName table ++ .ofString ".* FROM " ++ d.quoteName table

theorem inlineText_everyRow (table : Text) :
    d.inlineText (Select.pieces ⟨table, none⟩) = d.everyRow table := by
  simp [inlineText, Select.pieces, Piece.spaced, fixedText, everyRow, Symbol.text, Text.ofString]

theorem boundText_everyRow (table : Text) :
    d.boundText 0 (Select.pieces ⟨table, none⟩) = d.everyRow table := by
  simp [boundText, Select.pieces, Piece.spaced, fixedText, everyRow, Symbol.text, Text.ofString]

theorem inlineText_select (table : Text) (e : Expr) :
    d.inlineText (Select.pieces ⟨table, some e⟩) =
      d.inlineText (Select.pieces ⟨table, none⟩) ++ .ofString " WHERE " ++
        d.inlineText e.pieces := by
  rw [Select.pieces_some, inlineText_append, inlineText_append, List.append_assoc]
  rfl

theorem boundText_select (table : Text) (e : Expr) :
    d.boundText 0 (Select.pieces ⟨table, some e⟩) =
      d.boundText 0 (Select.pieces ⟨table, none⟩) ++ .ofString " WHERE " ++
        d.boundText 0 e.pieces := by
  rw [Select.pieces_some, boundText_append, boundText_append, List.append_assoc]
  rfl

end Dialect

end ListingFilter
