import ListingFilter.Error

namespace ListingFilter

inductive Column
  | field (name : Text)
  | remote
  | relatedName (relation : Text)
  | related (relation column : Text)
  deriving DecidableEq, Repr

/-- The operations of a store whose predicates are of type `π`. Only the existence of related rows
can fail, for a relation that the store does not know. -/
structure Store (π : Type) where
  group : Connective → List π → π
  compare : Column → Comparison → Text → π
  isIn : Column → List Text → π
  flag : Column → Bool → π
  idEquals : Column → Int64 → π
  has : Text → Option π → Except FilterError π

end ListingFilter
