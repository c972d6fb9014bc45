import ListingFilter.Error
import ListingFilter.Table

namespace ListingFilter

inductive AttributeType
  | text
  | number
  | boolean
  | date
  | select
  deriving DecidableEq, Repr

structure Attribute where
  id : Int64
  name : Text
  type : AttributeType
  deriving DecidableEq, Repr

/-- Attributes by name. Of two with one name the later counts. -/
abbrev Catalog := Table Attribute

/-- The answer to an attribute's name. That there is none of the name is an answer too. -/
abbrev Resolver := Text → Except FilterError (Option Attribute)

namespace Catalog

def insert (c : Catalog) (a : Attribute) : Catalog := Table.insert c a.name a

def ofList (attributes : List Attribute) : Catalog := attributes.foldl insert Table.empty

def resolver (c : Catalog) : Resolver := fun name ↦ .ok (c.get? name)

end Catalog

end ListingFilter
