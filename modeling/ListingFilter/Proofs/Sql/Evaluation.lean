import ListingFilter.Proofs.Predicate.Meaning
import ListingFilter.Sql.Expr

namespace ListingFilter.Sql

variable {δ : Type}

abbrev Row (δ : Type) := Text → δ

/-- Tables, as lists of rows without missing values, and how their values compare with one another
and with the values of a statement. Nothing is assumed of the comparison. -/
structure Database (δ : Type) where
  rows : Text → List (Row δ)
  literal : Value → δ
  compares : Operator → δ → δ → Bool

/-- The rows in sight, under their names, the innermost first. -/
abbrev Scope (δ : Type) := List (Text × Row δ)

namespace Scope

def value? (scope : Scope δ) (c : ColumnRef) : Option δ :=
  (scope.lookup c.table).map fun row ↦ row c.column

theorem value?_cons_self (scope : Scope δ) (table column : Text) (row : Row δ) :
    value? ((table, row) :: scope) ⟨table, column⟩ = some (row column) := by
  simp [value?]

theorem value?_cons_of_ne {scope : Scope δ} {table : Text} {c : ColumnRef} {row : Row δ}
    (h : c.table ≠ table) : value? ((table, row) :: scope) c = scope.value? c := by
  have other : (c.table == table) = false := beq_eq_false_iff_ne.2 h
  rw [value?, List.lookup_cons, other, value?]

end Scope

variable (db : Database δ)

/-- A comparison of a column that is not in sight is false. -/
def Scope.same (scope : Scope δ) (left right : ColumnRef) : Bool :=
  (scope.value? left).any fun a ↦ (scope.value? right).any fun b ↦ db.compares .eq a b

variable {db} in
theorem Scope.same_eq {scope : Scope δ} {left right : ColumnRef} {a b : δ}
    (ha : scope.value? left = some a) (hb : scope.value? right = some b) :
    scope.same db left right = db.compares .eq a b := by
  rw [same, ha, hb, Option.any_some, Option.any_some]

def Source.scopes (s : Source) (outer : Scope δ) : List (Scope δ) :=
  (db.rows s.table).flatMap fun row ↦
    match s.join? with
    | none => [(s.name, row) :: outer]
    | some j =>
      ((db.rows j.table).map fun joined ↦ (s.name, row) :: (j.table, joined) :: outer).filter
        fun scope ↦ scope.same db j.left j.right

namespace Source

variable {db}

theorem mem_scopes_of_join?_eq_none {s : Source} (h : s.join? = none) {outer scope : Scope δ} :
    scope ∈ s.scopes db outer ↔ ∃ row ∈ db.rows s.table, scope = (s.name, row) :: outer := by
  simp [scopes, h]

theorem mem_scopes_of_join?_eq_some {s : Source} {j : Join} (h : s.join? = some j)
    {outer scope : Scope δ} :
    scope ∈ s.scopes db outer ↔ ∃ row ∈ db.rows s.table, ∃ joined ∈ db.rows j.table,
      scope = (s.name, row) :: (j.table, joined) :: outer ∧
        scope.same db j.left j.right = true := by
  simp only [scopes, h, List.mem_flatMap, List.mem_filter, List.mem_map]
  constructor
  · rintro ⟨row, hrow, ⟨joined, hjoined, rfl⟩, hs⟩
    exact ⟨row, hrow, joined, hjoined, rfl, hs⟩
  · rintro ⟨row, hrow, joined, hjoined, rfl, hs⟩
    exact ⟨row, hrow, ⟨joined, hjoined, rfl⟩, hs⟩

end Source

namespace Expr

def holds : Expr → Scope δ → Bool
  | truth value, _ => value
  | compare column op value, scope =>
    (scope.value? column).any fun a ↦ db.compares op a (db.literal value)
  | member column values, scope =>
    (scope.value? column).any fun a ↦ values.any fun v ↦ db.compares .eq a (db.literal v)
  | same left right, scope => scope.same db left right
  | rowExists source condition, scope => (source.scopes db scope).any condition.holds
  | binary .and left right, scope => left.holds scope && right.holds scope
  | binary .or left right, scope => left.holds scope || right.holds scope

variable {db}

theorem holds_foldl_binary_iff (op : Connective) (rest : List Expr) (first : Expr)
    (scope : Scope δ) :
    (rest.foldl (.binary op) first).holds db scope = true ↔
      op.Combines (·.holds db scope = true) (first :: rest) := by
  induction rest generalizing first with
  | nil => cases op <;> simp [Connective.Combines]
  | cons second rest ih =>
    rw [List.foldl_cons, ih]
    cases op <;> simp [Connective.Combines, holds, and_assoc, or_assoc]

theorem holds_group_iff (op : Connective) (parts : List Expr) (scope : Scope δ) :
    (group op parts).holds db scope = true ↔ op.Combines (·.holds db scope = true) parts := by
  cases parts with
  | nil => cases op <;> simp [group, holds, Connective.Combines]
  | cons first rest => exact holds_foldl_binary_iff op rest first scope

theorem holds_rowExists_iff {source : Source} {condition : Expr} {scope : Scope δ} :
    (rowExists source condition).holds db scope = true ↔
      ∃ inner ∈ source.scopes db scope, condition.holds db inner = true := by
  rw [holds, List.any_eq_true]

end Expr

def Select.accepts (s : Select) (row : Row δ) : Bool :=
  s.condition?.all fun e ↦ e.holds db [(s.table, row)]

end ListingFilter.Sql
