import ListingFilter.Schema
import ListingFilter.Sql.Expr

namespace ListingFilter

def Mapping.source (m : Mapping) (relation : Text) : Sql.Source :=
  ⟨m.table, relation,
    m.pivot?.map fun p ↦ ⟨p.table, ⟨p.table, p.relatedKey⟩, ⟨relation, m.key⟩⟩⟩

namespace Schema

variable (s : Schema)

/-- Where a column is found. The rows related by a relation go by the relation's name. -/
def column : Column → Sql.ColumnRef
  | .field name => ⟨s.primaryTable, name⟩
  | .remote => ⟨s.primaryTable, s.remoteColumn⟩
  | .relatedName relation => ⟨relation, s.nameColumn relation⟩
  | .related relation name => ⟨relation, name⟩

/-- A comparison with one value. Membership is in the list of that value alone. -/
def compare (column : Column) (op : Comparison) (value : Text) : Sql.Expr :=
  let compared := fun o ↦ Sql.Expr.compare (s.column column) o (.text value)
  match op with
  | .equal => compared .eq
  | .notEqual | .differs => compared .ne
  | .greater => compared .gt
  | .less => compared .lt
  | .atLeast => compared .ge
  | .atMost => compared .le
  | .like => compared .like
  | .oneOf => .member (s.column column) [.text value]

def owner : Sql.ColumnRef := ⟨s.primaryTable, s.primaryKey⟩

def link (relation : Text) (m : Mapping) : Sql.Expr :=
  match m.pivot? with
  | some p => .same ⟨p.table, m.foreignKey⟩ s.owner
  | none => .same ⟨relation, m.foreignKey⟩ s.owner

def has (relation : Text) (filter? : Option Sql.Expr) : Except FilterError Sql.Expr :=
  match s.relation? relation with
  | none => .error (.unknownRelation relation)
  | some m =>
    .ok (.rowExists (m.source relation) (.group .and (s.link relation m :: filter?.toList)))

variable {s} in
theorem exists_of_has_eq_ok {relation : Text} {filter? : Option Sql.Expr} {e : Sql.Expr}
    (h : s.has relation filter? = .ok e) : ∃ m, s.relation? relation = some m ∧
      e = .rowExists (m.source relation) (.group .and (s.link relation m :: filter?.toList)) := by
  unfold has at h
  split at h
  · cases h
  · next m hm =>
    cases h
    exact ⟨m, hm, rfl⟩

def store : Store Sql.Expr where
  group := .group
  compare := s.compare
  isIn column values := .member (s.column column) (values.map .text)
  flag column value := .compare (s.column column) .eq (.bool value)
  idEquals column id := .compare (s.column column) .eq (.id id)
  has := s.has

end Schema

end ListingFilter
