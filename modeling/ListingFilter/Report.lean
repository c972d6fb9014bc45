import ListingFilter.Json.Quoted
import ListingFilter.Query
import ListingFilter.Text.Shown

namespace ListingFilter.Report

def line (t : Text) : Text := t ++ ['\n']

def parameter : Sql.Value → Text
  | .text t => .ofString "String(Some(" ++ t.shown ++ .ofString "))"
  | .bool b => .ofString "Bool(Some(" ++ .ofString (if b then "true" else "false") ++ .ofString "))"
  | .id n => .ofString "BigInt(Some(" ++ .ofInt n.toInt ++ .ofString "))"
  | .number n => .ofString "Int(Some(" ++ .ofInt n.toInt ++ .ofString "))"

def parameters (values : List Sql.Value) : Text :=
  '[' :: (Text.joined [',', ' '] (values.map parameter) ++ [']'])

def tree (filter? : Option Filter) : Text := filter?.elim (.ofString "<empty>") Filter.text

def success (filter? : Option Filter) (q : Query) : Text :=
  line (.ofString "[AST]: " ++ tree filter?) ++
    line (.ofString "[SQL]: " ++ q.inlineText) ++
    line (.ofString "[SQL 参数化]: " ++ q.boundText) ++
    line (.ofString "[参数]: " ++ parameters q.parameters)

def failure (e : FilterError) : Text :=
  line ['{'] ++
    line (.ofString "  \"error\": " ++ Json.quoted FilterError.heading ++ [',']) ++
    line (.ofString "  \"message\": " ++ Json.quoted e.message) ++
    line ['}']

/-- The report on a filter, and whether it has a query. -/
def ofFilter (target : Target) (resolve : Resolver) (text : Text) : Bool × Text :=
  let outcome := do
    let filter? ← Filter.read? text
    let query ← target.compile resolve filter?
    return (filter?, query)
  match outcome with
  | .ok (filter?, query) => (true, success filter? query)
  | .error e => (false, failure e)

end ListingFilter.Report
