import ListingFilter.Query

namespace ListingFilter

structure Settings where
  dialect : Dialect
  schema : Schema
  attributes : List Attribute

namespace Settings

def default : Settings := ⟨.postgres, .default, []⟩

def catalog (s : Settings) : Catalog := .ofList s.attributes

def target (s : Settings) : Target := ⟨s.schema, s.dialect⟩

end Settings

end ListingFilter
