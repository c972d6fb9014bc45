import ListingFilter.Proofs.Json.Decoding
import ListingFilter.Settings.Decoding

namespace ListingFilter

open Json Table

namespace Json

/-- A field with a default among the members of an object. `form` relates its value, where it is
written, to what the field then is. -/
inductive IsField {α : Type} (members : List (Text × Value)) (name : Text) (default : α)
    (form : Value → α → Prop) : α → Prop
  | written {v : Value} {a : α} (under_eq : under name members = [v]) (value : form v a) :
    IsField members name default form a
  | leftOut (under_eq : under name members = []) : IsField members name default form default

def Only {α : Type} (v : Value) (a : α) : Value → α → Prop := fun v' a' ↦ v' = v ∧ a' = a

end Json

namespace Attribute

def value (a : Attribute) : Value :=
  .object [(.ofString "id", .number (.ofInt a.id.toInt)), (.ofString "name", .string a.name),
    (.ofString "type", .string a.type.name)]

inductive IsForm (a : Attribute) : Value → Prop
  | object {members : List (Text × Value)}
    (id : under (.ofString "id") members = [.number (.ofInt a.id.toInt)])
    (name : under (.ofString "name") members = [.string a.name])
    (type : under (.ofString "type") members = [.string a.type.name]) :
    IsForm a (.object members)

theorem isForm_value (a : Attribute) : a.IsForm a.value := ⟨rfl, rfl, rfl⟩

end Attribute

namespace Pivot

def value (p : Pivot) : Value :=
  .object [(.ofString "table", .string p.table), (.ofString "related_key", .string p.relatedKey)]

inductive IsForm (p : Pivot) : Value → Prop
  | object {members : List (Text × Value)}
    (table : under (.ofString "table") members = [.string p.table])
    (relatedKey : under (.ofString "related_key") members = [.string p.relatedKey]) :
    IsForm p (.object members)

theorem isForm_value (p : Pivot) : p.IsForm p.value := ⟨rfl, rfl⟩

end Pivot

namespace Mapping

def pivotValue (m : Mapping) : Value := m.pivot?.elim .null Pivot.value

def value (m : Mapping) : Value :=
  .object [(.ofString "table", .string m.table), (.ofString "foreign_key", .string m.foreignKey),
    (.ofString "pivot", m.pivotValue), (.ofString "key", .string m.key),
    (.ofString "name_column", .string m.nameColumn)]

def IsPivotForm (m : Mapping) (v : Value) (pivot? : Option Pivot) : Prop :=
  pivot? = m.pivot? ∧ match m.pivot? with
    | none => v = .null
    | some p => p.IsForm v

inductive IsForm (m : Mapping) : Value → Mapping → Prop
  | object {members : List (Text × Value)} {pivot? : Option Pivot} {key' nameColumn' : Text}
    (table : under (.ofString "table") members = [.string m.table])
    (foreignKey : under (.ofString "foreign_key") members = [.string m.foreignKey])
    (pivot : IsField members (.ofString "pivot") none m.IsPivotForm pivot?)
    (key : IsField members (.ofString "key") defaultKey (Only (.string m.key) m.key) key')
    (nameColumn : IsField members (.ofString "name_column") defaultNameColumn
      (Only (.string m.nameColumn) m.nameColumn) nameColumn') :
    IsForm m (.object members) ⟨m.table, m.foreignKey, pivot?, key', nameColumn'⟩

theorem isPivotForm_pivotValue (m : Mapping) : m.IsPivotForm m.pivotValue m.pivot? := by
  refine ⟨rfl, ?_⟩
  rw [pivotValue]
  cases m.pivot? with
  | none => rfl
  | some p => exact p.isForm_value

theorem isForm_value (m : Mapping) : m.IsForm m.value m :=
  .object rfl rfl (.written rfl m.isPivotForm_pivotValue) (.written rfl ⟨rfl, rfl⟩)
    (.written rfl ⟨rfl, rfl⟩)

end Mapping

namespace Schema

def value (s : Schema) : Value :=
  .object [(.ofString "primary_table", .string s.primaryTable),
    (.ofString "primary_key", .string s.primaryKey),
    (.ofString "remote_column", .string s.remoteColumn),
    (.ofString "relations", .object (s.relations.entries.map fun e ↦ (e.1, e.2.value)))]

/-- The forms of relations: objects with a mapping's form under each name there is, and no more. -/
inductive IsRelationsForm (relations : Table Mapping) : Value → Table Mapping → Prop
  | object {members : List (Text × Value)} {relations' : Table Mapping}
    (each : ∀ name m, relations.get? name = some m →
      ∃ v m', under name members = [v] ∧ m.IsForm v m' ∧ relations'.get? name = some m')
    (others : ∀ name, relations.get? name = none →
      under name members = [] ∧ relations'.get? name = none) :
    IsRelationsForm relations (.object members) relations'

inductive IsForm (s : Schema) : Value → Schema → Prop
  | object {members : List (Text × Value)} {s' : Schema}
    (primaryTable : IsField members (.ofString "primary_table") default.primaryTable
      (Only (.string s.primaryTable) s.primaryTable) s'.primaryTable)
    (primaryKey : IsField members (.ofString "primary_key") default.primaryKey
      (Only (.string s.primaryKey) s.primaryKey) s'.primaryKey)
    (remoteColumn : IsField members (.ofString "remote_column") default.remoteColumn
      (Only (.string s.remoteColumn) s.remoteColumn) s'.remoteColumn)
    (relations : IsField members (.ofString "relations") default.relations
      (IsRelationsForm s.relations) s'.relations) :
    IsForm s (.object members) s'

theorem isRelationsForm_entries (relations : Table Mapping) :
    IsRelationsForm relations (.object (relations.entries.map fun e ↦ (e.1, e.2.value)))
      relations := by
  refine .object (fun name m h ↦ ⟨m.value, m, ?_, m.isForm_value, h⟩) fun name h ↦ ⟨?_, h⟩
  · rw [under_map, under_entries, h]
    rfl
  · rw [under_map, under_entries, h]
    rfl

theorem isForm_value (s : Schema) : s.IsForm s.value s :=
  .object (.written rfl ⟨rfl, rfl⟩) (.written rfl ⟨rfl, rfl⟩) (.written rfl ⟨rfl, rfl⟩)
    (.written rfl (isRelationsForm_entries s.relations))

end Schema

namespace Settings

def value (s : Settings) : Value :=
  .object [(.ofString "dialect", .string s.dialect.name), (.ofString "schema", s.schema.value),
    (.ofString "attributes", .list (s.attributes.map Attribute.value))]

def IsAttributesForm (s : Settings) (v : Value) (attributes : List Attribute) : Prop :=
  attributes = s.attributes ∧ ∃ items, v = .list items ∧
    List.Forall₂ Attribute.IsForm s.attributes items

/-- The forms of settings, each with the settings that it stands for: a field that is left out has
its default, the order does not count, and fields that are not known are allowed. -/
inductive IsForm (s : Settings) : Value → Settings → Prop
  | object {members : List (Text × Value)} {s' : Settings}
    (dialect : IsField members (.ofString "dialect") default.dialect
      (Only (.string s.dialect.name) s.dialect) s'.dialect)
    (schema : IsField members (.ofString "schema") default.schema s.schema.IsForm s'.schema)
    (attributes : IsField members (.ofString "attributes") default.attributes s.IsAttributesForm
      s'.attributes) :
    IsForm s (.object members) s'

theorem isForm_value (s : Settings) : s.IsForm s.value s := by
  refine .object (.written rfl ⟨rfl, rfl⟩) (.written rfl s.schema.isForm_value)
    (.written rfl ⟨rfl, _, rfl, ?_⟩)
  exact List.forall₂_map_right_iff.2 (List.forall₂_same.2 fun a _ ↦ a.isForm_value)

end Settings

end ListingFilter
