import ListingFilter.Proofs.Sql.Contents

namespace ListingFilter

/-- The values of a list. One without values takes the two numbers of an equation that fails. -/
def listParameters : List Text → List Sql.Value
  | [] => [.number 1, .number 2]
  | values => values.map .text

def Operand.parameters (op : Comparison) : Operand → List Sql.Value
  | scalar value => [.text (if op = .like then likePattern value else value)]
  | set values => listParameters values

/-- A place takes its value three times: for its city, its state and its country. -/
def locationParameters (value : Text) : List Sql.Value :=
  if IsRemoteWord value then [.bool true] else List.replicate 3 (.text value)

def RelationTest.parameters (name : Text) (values : List Text) : RelationTest → List Sql.Value
  | present => []
  | hasAny => listParameters values
  | isAny => if name = locations then values.flatMap locationParameters else listParameters values

def Condition.parameters (resolve : Resolver) : Condition → List Sql.Value
  | onField _ op operand => operand.parameters op
  | onRelation name test values => test.parameters name values
  | onAttribute name op operand =>
    match resolve name with
    | .ok (some a) => .id a.id :: operand.parameters op
    | _ => []

namespace Filter

mutual

def parameters (resolve : Resolver) : Filter → List Sql.Value
  | leaf c => c.parameters resolve
  | join _ parts => allParameters resolve parts

def allParameters (resolve : Resolver) : List Filter → List Sql.Value
  | [] => []
  | part :: parts => parameters resolve part ++ allParameters resolve parts

end

end Filter

theorem Filter.parameters_eq_flatMap_leaves (resolve : Resolver) (n : Filter) :
    n.parameters resolve = n.leaves.flatMap (Condition.parameters resolve) := by
  induction n with
  | leaf c => rw [parameters, leaves, List.flatMap_singleton]
  | join op parts ih =>
    rw [parameters, leaves]
    induction parts with
    | nil => rfl
    | cons part parts ihs =>
      obtain ⟨first, others⟩ := List.forall_mem_cons.1 ih
      rw [allParameters, allLeaves, List.flatMap_append, first, ihs others]

namespace Sql

theorem parameters_eq_contents (pieces : List Piece) :
    parameters pieces = (contents pieces).filterMap Content.value? := by
  rw [parameters, contents, List.filterMap_filterMap]
  congr 1
  funext piece
  cases piece <;> rfl

theorem ColumnRef.values_listContents (c : ColumnRef) (values : List Text) :
    (c.listContents values).filterMap Content.value? = listParameters values := by
  cases values with
  | nil => rfl
  | cons value values =>
    have each : ((value :: values).map fun value ↦ Content.value (.text value)).filterMap
        Content.value? = (value :: values).map .text := by
      rw [List.filterMap_map]
      exact congrFun List.filterMap_eq_map _
    exact each

end Sql

open Sql (Content)

theorem Operand.values_contents (c : Sql.ColumnRef) (op : Comparison) (operand : Operand) :
    (operand.contents c op).filterMap Content.value? = operand.parameters op := by
  cases operand with
  | scalar value => rfl
  | set values => exact c.values_listContents values

namespace Schema

variable (s : Schema)

theorem values_rowContents (relation : Text) :
    (s.rowContents relation).filterMap Content.value? = [] := by
  unfold rowContents
  cases s.relation? relation with
  | none => rfl
  | some m =>
    obtain ⟨table, foreignKey, pivot?, key, nameColumn⟩ := m
    cases pivot? <;> rfl

theorem values_locationContents (value : Text) :
    (s.locationContents value).filterMap Content.value? = locationParameters value := by
  unfold locationContents locationParameters
  split
  · rfl
  · rw [List.filterMap_append, values_rowContents]
    rfl

theorem values_relationContents (name : Text) (test : RelationTest) (values : List Text) :
    (s.relationContents name values test).filterMap Content.value? = test.parameters name values := by
  have named : (s.rowContents name ++ (s.column (.relatedName name)).listContents values).filterMap
      Content.value? = listParameters values := by
    rw [List.filterMap_append, values_rowContents, Sql.ColumnRef.values_listContents]
    rfl
  cases test with
  | present => exact s.values_rowContents name
  | hasAny => exact named
  | isAny =>
    rw [relationContents, RelationTest.parameters]
    split
    · rw [List.filterMap_flatMap]
      simp only [values_locationContents]
    · exact named

end Schema

theorem Condition.values_contents (resolve : Resolver) (s : Schema) (c : Condition) :
    (c.contents resolve s).filterMap Content.value? = c.parameters resolve := by
  cases c with
  | onField name op operand => exact operand.values_contents _ op
  | onRelation name test values => exact s.values_relationContents name test values
  | onAttribute name op operand =>
    rw [contents, parameters]
    obtain e | _ | a := resolve name
    · rfl
    · rfl
    · dsimp only
      rw [List.filterMap_append, List.filterMap_append, Schema.values_rowContents,
        Operand.values_contents]
      rfl

theorem Target.parameters_of_compile {t : Target} {resolve : Resolver} {n : Filter} {q : Query}
    (h : t.compile resolve (some n) = .ok q) : q.parameters = n.parameters resolve := by
  have contents : (t.contents resolve (some n)).filterMap Content.value? =
      (n.contents resolve t.schema).filterMap Content.value? := by
    rw [Target.contents, Option.toList_some, List.flatMap_singleton]
    rfl
  rw [Query.parameters, Sql.parameters_eq_contents, ← Sql.Select.contents, contents_of_compile h,
    contents, Filter.contents, List.filterMap_flatMap, Filter.parameters_eq_flatMap_leaves]
  simp only [Condition.values_contents]

end ListingFilter
