import ListingFilter.Predicate.Compilation

namespace ListingFilter

structure Pivot where
  table : Text
  relatedKey : Text
  deriving DecidableEq, Repr

/-- The rows that a relation stands for. `foreignKey` names the listing; it is a column of the pivot
where there is one and of the related table where there is none. -/
structure Mapping where
  table : Text
  foreignKey : Text
  pivot? : Option Pivot
  key : Text
  nameColumn : Text
  deriving DecidableEq, Repr

namespace Mapping

def defaultKey : Text := .ofString "id"

def defaultNameColumn : Text := .ofString "name"

def direct (table foreignKey nameColumn : Text) : Mapping :=
  ⟨table, foreignKey, none, defaultKey, nameColumn⟩

def through (table pivot foreignKey relatedKey nameColumn : Text) : Mapping :=
  ⟨table, foreignKey, some ⟨pivot, relatedKey⟩, defaultKey, nameColumn⟩

end Mapping

structure Schema where
  primaryTable : Text
  primaryKey : Text
  remoteColumn : Text
  relations : Table Mapping

namespace Schema

def relation? (s : Schema) (name : Text) : Option Mapping := s.relations.get? name

/-- The column with the display name of a relation's rows, also of a relation that is not there. -/
def nameColumn (s : Schema) (relation : Text) : Text :=
  (s.relation? relation).elim Mapping.defaultNameColumn Mapping.nameColumn

def defaultRelations : Table Mapping :=
  .ofList [
    (.ofString "languages", .through (.ofString "languages") (.ofString "job_language")
      (.ofString "job_listing_id") (.ofString "language_id") (.ofString "name")),
    (.ofString "categories", .through (.ofString "categories") (.ofString "job_category")
      (.ofString "job_listing_id") (.ofString "category_id") (.ofString "name")),
    (locations, .through (.ofString "locations") (.ofString "job_location")
      (.ofString "job_listing_id") (.ofString "location_id") (.ofString "city")),
    (attributeValues, .direct (.ofString "job_attribute_values") (.ofString "job_listing_id")
      (.ofString "value"))]

def default : Schema where
  primaryTable := .ofString "job_listings"
  primaryKey := .ofString "id"
  remoteColumn := .ofString "is_remote"
  relations := defaultRelations

end Schema

end ListingFilter
