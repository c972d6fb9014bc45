import ListingFilter.Json.Decoder
import ListingFilter.Settings.Basic

namespace ListingFilter

open Json

def Dialect.decode : Decoder Dialect := Decoder.variant (Dialect.all.map fun d ↦ (d.name, d))

namespace AttributeType

def name : AttributeType → Text
  | text => .ofString "text"
  | number => .ofString "number"
  | boolean => .ofString "boolean"
  | date => .ofString "date"
  | select => .ofString "select"

def all : List AttributeType := [text, number, boolean, date, select]

def decode : Decoder AttributeType := Decoder.variant (all.map fun t ↦ (t.name, t))

end AttributeType

def Attribute.record : Record Attribute where
  name := .ofString "struct AttributeDef"
  fields := [⟨.ofString "id", Decoder.int64, none⟩, ⟨.ofString "name", Decoder.text, none⟩,
    ⟨.ofString "type", AttributeType.decode, none⟩]
  make := fun (id, name, type, _) ↦ ⟨id, name, type⟩

def Pivot.record : Record Pivot where
  name := .ofString "struct PivotTable"
  fields := [⟨.ofString "table", Decoder.text, none⟩,
    ⟨.ofString "related_key", Decoder.text, none⟩]
  make := fun (table, relatedKey, _) ↦ ⟨table, relatedKey⟩

def Mapping.record : Record Mapping where
  name := .ofString "struct RelationMapping"
  fields := [⟨.ofString "table", Decoder.text, none⟩,
    ⟨.ofString "foreign_key", Decoder.text, none⟩,
    ⟨.ofString "pivot", Decoder.optional Pivot.record.decode, some none⟩,
    ⟨.ofString "key", Decoder.text, some defaultKey⟩,
    ⟨.ofString "name_column", Decoder.text, some defaultNameColumn⟩]
  make := fun (table, foreignKey, pivot?, key, nameColumn, _) ↦
    ⟨table, foreignKey, pivot?, key, nameColumn⟩

def Schema.record : Record Schema where
  name := .ofString "struct SchemaConfig"
  fields := [⟨.ofString "primary_table", Decoder.text, some default.primaryTable⟩,
    ⟨.ofString "primary_key", Decoder.text, some default.primaryKey⟩,
    ⟨.ofString "remote_column", Decoder.text, some default.remoteColumn⟩,
    ⟨.ofString "relations", Decoder.table Mapping.record.decode, some default.relations⟩]
  make := fun (primaryTable, primaryKey, remoteColumn, relations, _) ↦
    ⟨primaryTable, primaryKey, remoteColumn, relations⟩

namespace Settings

def record : Record Settings where
  name := .ofString "struct EngineConfig"
  fields := [⟨.ofString "dialect", Dialect.decode, some default.dialect⟩,
    ⟨.ofString "schema", Schema.record.decode, some default.schema⟩,
    ⟨.ofString "attributes", Decoder.list Attribute.record.decode, some default.attributes⟩]
  make := fun (dialect, schema, attributes, _) ↦ ⟨dialect, schema, attributes⟩

/-- The settings that the items of a text are: one value and nothing behind it. -/
def ofItems : List Outline → Except Json.Fault Settings
  | [] => .error .endInValue
  | o :: rest => do
    let settings ← record.decode o
    if rest.isEmpty then .ok settings else .error .trailingCharacters

def ofText (t : Text) : Except Json.Fault Settings := ofItems (Outline.ofText t)

end Settings

end ListingFilter
