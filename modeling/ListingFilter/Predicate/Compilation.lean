import ListingFilter.Predicate.Store
import ListingFilter.Predicate.Traced

namespace ListingFilter

def attributeValues : Text := .ofString "attribute_values"

def attributeIdColumn : Column := .related attributeValues (.ofString "attribute_id")

def attributeValueColumn : Column := .related attributeValues (.ofString "value")

def locations : Text := .ofString "locations"

def placeColumns : List Column :=
  [.related locations (.ofString "city"), .related locations (.ofString "state"),
    .related locations (.ofString "country")]

def isRemote (value : Text) : Bool := value.map Char.toLower = Text.ofString "remote"

/-- The pattern that a value means: a part of the whole, unless it has a wildcard at an end. -/
def likePattern (value : Text) : Text :=
  if value.head? = some '%' ∨ value.getLast? = some '%' then value else '%' :: (value ++ ['%'])

namespace Store

variable {π : Type} (store : Store π)

def comparison (column : Column) : Comparison → Operand → Except FilterError π
  | .oneOf, .set values => .ok (store.isIn column values)
  | .oneOf, .scalar value => .error (.malformed .scalarForSet value)
  | op, .set values => .error (.malformed (.setForScalar op) (Operand.set values).text)
  | .like, .scalar value => .ok (store.compare column .like (likePattern value))
  | op, .scalar value => .ok (store.compare column op value)

/-- A location: remote work, or a place with the value in one of its columns. -/
def location (value : Text) : Except FilterError π :=
  if isRemote value then .ok (store.flag .remote true)
  else store.has locations
    (some (store.group .or (placeColumns.map fun column ↦ store.compare column .equal value)))

def relation (name : Text) (test : RelationTest) (values : List Text) : Except FilterError π :=
  match test with
  | .present => store.has name none
  | .hasAny => store.has name (some (store.isIn (.relatedName name) values))
  | .isAny =>
    if name = locations then (values.mapM store.location).map (store.group .or)
    else store.has name (some (store.isIn (.relatedName name) values))

def attributeValue (a : Attribute) (op : Comparison) (operand : Operand) : Except FilterError π := do
  let value ← store.comparison attributeValueColumn op operand
  store.has attributeValues (some (store.group .and [store.idEquals attributeIdColumn a.id, value]))

end Store

namespace Condition

variable {π : Type}

def compile (resolve : Resolver) (store : Store π) : Condition → Traced (Option π)
  | onField name op operand =>
    Traced.ofResult ((store.comparison (.field name) op operand).map some)
  | onRelation name test values => Traced.ofResult ((store.relation name test values).map some)
  | onAttribute name op operand => do
    match ← Traced.lookUp resolve name with
    | none => return none
    | some a => Traced.ofResult ((store.attributeValue a op operand).map some)

end Condition

namespace Filter

variable {π : Type}

mutual

def compile (resolve : Resolver) (store : Store π) : Filter → Traced (Option π)
  | leaf condition => condition.compile resolve store
  | join op parts => do
    match ← compileAll resolve store parts with
    | [] => return none
    | predicates => return some (store.group op predicates)

/-- The predicates of filters, less the ones that vanish: the conditions on attributes that nobody
knows, and the joins all of whose parts vanish. -/
def compileAll (resolve : Resolver) (store : Store π) : List Filter → Traced (List π)
  | [] => return []
  | part :: parts => do
    let predicate? ← compile resolve store part
    let predicates ← compileAll resolve store parts
    return predicate?.toList ++ predicates

end

end Filter

end ListingFilter
