import ListingFilter.Proofs.Predicate.Agreement
import ListingFilter.Proofs.Sql.Evaluation
import ListingFilter.Query

namespace ListingFilter

open Sql

variable {δ : Type}

def Comparison.operator : Comparison → Operator
  | equal | oneOf => .eq
  | notEqual | differs => .ne
  | greater => .gt
  | less => .lt
  | atLeast => .ge
  | atMost => .le
  | like => .like

namespace Schema

variable (s : Schema) (db : Database δ) (primary : Row δ)

def cell? (related? : Option (Row δ)) : Column → Option δ
  | .field name => some (primary name)
  | .remote => some (primary s.remoteColumn)
  | .relatedName relation => related?.map fun row ↦ row (s.nameColumn relation)
  | .related _ name => related?.map fun row ↦ row name

def ties (m : Mapping) (related : Row δ) : Bool :=
  match m.pivot? with
  | none => db.compares .eq (related m.foreignKey) (primary s.primaryKey)
  | some p => (db.rows p.table).any fun tie ↦
      db.compares .eq (tie p.relatedKey) (related m.key) &&
        db.compares .eq (tie m.foreignKey) (primary s.primaryKey)

def listing : Listing (Row δ) where
  rows relation :=
    (s.relation? relation).elim [] fun m ↦ (db.rows m.table).filter (s.ties db primary m)
  compare related? column op value :=
    ∃ a ∈ s.cell? primary related? column, db.compares op.operator a (db.literal (.text value))
  isIn related? column values :=
    ∃ a ∈ s.cell? primary related? column,
      ∃ value ∈ values, db.compares .eq a (db.literal (.text value))
  flag related? column value :=
    ∃ a ∈ s.cell? primary related? column, db.compares .eq a (db.literal (.bool value))
  idEquals related? column id :=
    ∃ a ∈ s.cell? primary related? column, db.compares .eq a (db.literal (.id id))

/-- A relation whose rows cannot be taken for those of another table in sight. -/
structure Separates (relation : Text) : Prop where
  ne_primaryTable : relation ≠ s.primaryTable
  pivot_ne {m : Mapping} {p : Pivot} (hm : s.relation? relation = some m) (hp : m.pivot? = some p) :
    p.table ≠ relation ∧ p.table ≠ s.primaryTable

variable {s primary}

/-- The scope of a test on the listing, or on a row of a relation. What lies further out does not
count for a row. -/
inductive Sees (s : Schema) (primary : Row δ) :
    Option Text → Option (Row δ) → Scope δ → Prop
  | listing : Sees s primary none none [(s.primaryTable, primary)]
  | row (relation : Text) (row : Row δ) (outer : Scope δ) :
    Sees s primary (some relation) (some row) ((relation, row) :: outer)

theorem value?_column {column : Column} {related? : Option (Row δ)} {scope : Scope δ}
    (h : s.Sees primary column.relation? related? scope) :
    scope.value? (s.column column) = s.cell? primary related? column := by
  cases column with
  | field name => cases h; exact Scope.value?_cons_self _ _ _ _
  | remote => cases h; exact Scope.value?_cons_self _ _ _ _
  | relatedName relation => cases h; exact Scope.value?_cons_self _ _ _ _
  | related relation name => cases h; exact Scope.value?_cons_self _ _ _ _

variable {db}

theorem holds_compare_iff {column : Column} {related? : Option (Row δ)} {scope : Scope δ}
    (h : s.Sees primary column.relation? related? scope) (op : Comparison) (value : Text) :
    (s.compare column op value).holds db scope = true ↔
      (s.listing db primary).compare related? column op value := by
  have hv := value?_column h
  cases op <;>
    simp [Schema.compare, Expr.holds, hv, listing, Comparison.operator, Option.any_eq_true]

theorem mem_rows_iff {relation : Text} {m : Mapping} (hm : s.relation? relation = some m)
    {row : Row δ} : row ∈ (s.listing db primary).rows relation ↔
      row ∈ db.rows m.table ∧ s.ties db primary m row = true := by
  simp only [listing, hm, Option.elim_some, List.mem_filter]

theorem exists_scope_iff_of_direct {relation : Text} (separate : s.Separates relation)
    {m : Mapping} (hm : s.relation? relation = some m) (hp : m.pivot? = none)
    {f : Scope δ → Prop} {P : Row δ → Prop}
    (hf : ∀ row outer, f ((relation, row) :: outer) ↔ P row) :
    (∃ scope ∈ (m.source relation).scopes db [(s.primaryTable, primary)],
        (s.link relation m).holds db scope = true ∧ f scope) ↔
      ∃ row ∈ (s.listing db primary).rows relation, P row := by
  have hj : (m.source relation).join? = none := by rw [Mapping.source, hp]; rfl
  have tied : ∀ row : Row δ, (s.link relation m).holds db
      [(relation, row), (s.primaryTable, primary)] = s.ties db primary m row := by
    intro row
    rw [link, ties, hp]
    refine Scope.same_eq (Scope.value?_cons_self ..) ?_
    rw [Scope.value?_cons_of_ne separate.ne_primaryTable.symm]
    exact Scope.value?_cons_self ..
  constructor
  · rintro ⟨scope, hs, hl, h⟩
    obtain ⟨row, hrow, rfl⟩ := (Source.mem_scopes_of_join?_eq_none hj).1 hs
    exact ⟨row, (mem_rows_iff hm).2 ⟨hrow, tied row ▸ hl⟩, (hf row _).1 h⟩
  · rintro ⟨row, hrow, h⟩
    obtain ⟨hrow, ht⟩ := (mem_rows_iff hm).1 hrow
    exact ⟨_, (Source.mem_scopes_of_join?_eq_none hj).2 ⟨row, hrow, rfl⟩, (tied row).trans ht,
      (hf row _).2 h⟩

theorem exists_scope_iff_of_pivot {relation : Text} (separate : s.Separates relation)
    {m : Mapping} (hm : s.relation? relation = some m) {p : Pivot} (hp : m.pivot? = some p)
    {f : Scope δ → Prop} {P : Row δ → Prop}
    (hf : ∀ row outer, f ((relation, row) :: outer) ↔ P row) :
    (∃ scope ∈ (m.source relation).scopes db [(s.primaryTable, primary)],
        (s.link relation m).holds db scope = true ∧ f scope) ↔
      ∃ row ∈ (s.listing db primary).rows relation, P row := by
  obtain ⟨pivot_ne, pivot_ne_primary⟩ := separate.pivot_ne hm hp
  have hj : (m.source relation).join? =
      some ⟨p.table, ⟨p.table, p.relatedKey⟩, ⟨relation, m.key⟩⟩ := by
    rw [Mapping.source, hp]; rfl
  -- the three tables in sight have three names, so that each column is found in its own row
  let inner (row tie : Row δ) : Scope δ :=
    [(relation, row), (p.table, tie), (s.primaryTable, primary)]
  have value?_tie (row tie : Row δ) (column : Text) :
      Scope.value? (inner row tie) ⟨p.table, column⟩ = some (tie column) := by
    rw [Scope.value?_cons_of_ne pivot_ne]
    exact Scope.value?_cons_self ..
  have joins (row tie : Row δ) : (inner row tie).same db ⟨p.table, p.relatedKey⟩ ⟨relation, m.key⟩ =
      db.compares .eq (tie p.relatedKey) (row m.key) :=
    Scope.same_eq (value?_tie row tie _) (Scope.value?_cons_self ..)
  have links (row tie : Row δ) : (s.link relation m).holds db (inner row tie) =
      db.compares .eq (tie m.foreignKey) (primary s.primaryKey) := by
    rw [link, hp]
    refine Scope.same_eq (value?_tie row tie _) ?_
    rw [Scope.value?_cons_of_ne separate.ne_primaryTable.symm,
      Scope.value?_cons_of_ne pivot_ne_primary.symm]
    exact Scope.value?_cons_self ..
  have ties_iff (row : Row δ) : s.ties db primary m row = true ↔ ∃ tie ∈ db.rows p.table,
      db.compares .eq (tie p.relatedKey) (row m.key) = true ∧
        db.compares .eq (tie m.foreignKey) (primary s.primaryKey) = true := by
    simp only [ties, hp, List.any_eq_true, Bool.and_eq_true]
  constructor
  · rintro ⟨scope, hs, hl, h⟩
    obtain ⟨row, hrow, tie, htie, rfl, hjoin⟩ := (Source.mem_scopes_of_join?_eq_some hj).1 hs
    have tied := (ties_iff row).2 ⟨tie, htie, (joins row tie).symm.trans hjoin,
      (links row tie).symm.trans hl⟩
    exact ⟨row, (mem_rows_iff hm).2 ⟨hrow, tied⟩, (hf row _).1 h⟩
  · rintro ⟨row, hrow, h⟩
    obtain ⟨hrow, tied⟩ := (mem_rows_iff hm).1 hrow
    obtain ⟨tie, htie, hjoin, hl⟩ := (ties_iff row).1 tied
    have hs := (Source.mem_scopes_of_join?_eq_some hj).2
      ⟨row, hrow, tie, htie, rfl, (joins row tie).trans hjoin⟩
    exact ⟨_, hs, (links row tie).trans hl, (hf row _).2 h⟩

theorem exists_scope_iff {relation : Text} (separate : s.Separates relation) {m : Mapping}
    (hm : s.relation? relation = some m) {f : Scope δ → Prop} {P : Row δ → Prop}
    (hf : ∀ row outer, f ((relation, row) :: outer) ↔ P row) :
    (∃ scope ∈ (m.source relation).scopes db [(s.primaryTable, primary)],
        (s.link relation m).holds db scope = true ∧ f scope) ↔
      ∃ row ∈ (s.listing db primary).rows relation, P row := by
  cases hp : m.pivot? with
  | none => exact exists_scope_iff_of_direct separate hm hp hf
  | some p => exact exists_scope_iff_of_pivot separate hm hp hf

variable (s db primary)

def agreement : s.store.Agreement (s.listing db primary) s.Separates where
  Agrees relation? e P := ∀ related? scope, s.Sees primary relation? related? scope →
    (e.holds db scope = true ↔ P related?)
  onListing h related? scope sees := by
    cases sees
    exact h none _ .listing
  group op h related? scope sees := by
    refine (Expr.holds_group_iff op _ scope).trans (op.combines_iff ?_)
    exact h.imp fun e a he ↦ he related? scope sees
  compare column op value related? scope sees := holds_compare_iff sees op value
  isIn column values related? scope sees := by
    simp [store, Expr.holds, value?_column sees, listing, Option.any_eq_true]
  flag column value related? scope sees := by
    simp [store, Expr.holds, value?_column sees, listing, Option.any_eq_true]
  idEquals column id related? scope sees := by
    simp [store, Expr.holds, value?_column sees, listing, Option.any_eq_true]
  has {relation filter? P? e} separate h he related? scope sees := by
    cases sees
    simp only [store, has] at he
    cases hm : s.relation? relation with
    | none => rw [hm] at he; cases he
    | some m =>
      rw [hm] at he
      cases he
      rw [Expr.holds_rowExists_iff, ← exists_scope_iff separate hm
        (f := fun scope ↦ ∀ e ∈ filter?, e.holds db scope = true)]
      · simp only [Expr.holds_group_iff, Connective.Combines, List.forall_mem_cons,
          Option.mem_toList, Option.mem_def]
      · intro row outer
        cases h with
        | none => simp
        | some h => simpa using h _ _ (.row relation row outer)

end Schema

/-- A query keeps the listings that its filter holds of, and all listings where the filter says
nothing. -/
theorem Target.accepts_of_compile (t : Target) (db : Database δ)
    (known : Text → Option Attribute) (n : Filter)
    (separate : ∀ relation, n.Asks known relation → t.schema.Separates relation) {q : Query}
    (h : t.compile (fun name ↦ .ok (known name)) (some n) = .ok q) :
    q.select.table = t.schema.primaryTable ∧ ∀ row : Row δ, q.select.accepts db row = true ↔
      n.isAbsent known = true ∨ n.Holds known (t.schema.listing db row) := by
  obtain ⟨condition?, hc, h⟩ := exists_of_bind_eq_ok h
  cases h
  refine ⟨rfl, fun row ↦ ?_⟩
  obtain ⟨absent, agrees⟩ := (t.schema.agreement db row).outcome_filter separate hc
  cases condition? with
  | none => simp [Select.accepts, ← absent]
  | some e => simpa [Select.accepts, ← absent] using agrees e rfl none _ .listing

def Schema.writtenIn (language : Text) : Database Value where
  rows table :=
    if table = .ofString "languages" then
      [fun column ↦ if column = .ofString "id" then .id 1 else .text language]
    else if table = .ofString "job_language" then
      [fun column ↦ if column = .ofString "language_id" then .id 1 else .id 7]
    else []
  literal v := v
  compares op a b := op = .eq ∧ a = b

theorem Schema.separates_languages : Schema.default.Separates (.ofString "languages") where
  ne_primaryTable := by decide
  pivot_ne hm hp := by
    cases hm
    cases hp
    exact ⟨by decide, by decide⟩

theorem Target.accepts_of_compile_writtenIn :
    let n : Filter := .leaf (.onRelation (.ofString "languages") .hasAny [.ofString "Go"])
    ∃ q, Target.default.compile (fun _ ↦ .ok none) (some n) = .ok q ∧
      q.select.accepts (Schema.writtenIn (.ofString "Go")) (fun _ ↦ .id 7) = true ∧
      n.Holds (fun _ ↦ none) (Schema.default.listing (Schema.writtenIn (.ofString "Go"))
        fun _ ↦ .id 7) := by
  intro n
  have separate : ∀ relation, n.Asks (fun _ ↦ none) relation →
      Schema.default.Separates relation := by
    intro relation asks
    obtain rfl : .ofString "languages" = relation := Option.some.inj (Filter.asks_leaf_iff.1 asks)
    exact Schema.separates_languages
  obtain ⟨-, accepts⟩ := Target.accepts_of_compile .default
    (Schema.writtenIn (.ofString "Go")) (fun _ ↦ none) n separate rfl
  refine ⟨_, rfl, (and_iff_left_of_imp fun kept ↦ ?_).2 ?_⟩
  · exact ((accepts _).1 kept).resolve_left (by decide)
  · decide

end ListingFilter
