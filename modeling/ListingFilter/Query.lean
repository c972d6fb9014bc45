import ListingFilter.Filter.Reading
import ListingFilter.Sql.Dialect
import ListingFilter.Sql.Store

namespace ListingFilter

structure Query where
  select : Sql.Select
  dialect : Dialect

namespace Query

def isFiltered (q : Query) : Bool := q.select.condition?.isSome

def inlineText (q : Query) : Text := q.dialect.inlineText q.select.pieces

def boundText (q : Query) : Text := q.dialect.boundText 0 q.select.pieces

def parameters (q : Query) : List Sql.Value := Sql.parameters q.select.pieces

end Query

structure Target where
  schema : Schema
  dialect : Dialect

namespace Target

def default : Target := ⟨.default, .postgres⟩

/-- The query that a filter stands for. A filter that constrains nothing selects every listing, as a
missing one does. -/
def compile (t : Target) (resolve : Resolver) (filter? : Option Filter) : Except FilterError Query := do
  let condition? ← match filter? with
    | none => .ok none
    | some filter => (filter.compile resolve t.schema.store).result
  return ⟨⟨t.schema.primaryTable, condition?⟩, t.dialect⟩

def apply (t : Target) (resolve : Resolver) (text? : Option Text) : Except FilterError Query := do
  let filter? ← match text? with
    | none => .ok none
    | some text => Filter.read? text
  t.compile resolve filter?

end Target

end ListingFilter
