import ListingFilter.Proofs.Predicate.Leaves
import ListingFilter.Proofs.Predicate.Meaning
import ListingFilter.Sql.Store

namespace ListingFilter

variable {π : Type}

def Operand.refusal? (op : Comparison) : Operand → Option FilterError
  | scalar value => if op = .oneOf then some (.malformed .scalarForSet value) else none
  | set values =>
    if op = .oneOf then none else some (.malformed (.setForScalar op) (set values).text)

theorem Store.error?_comparison (store : Store π) (column : Column) (op : Comparison)
    (operand : Operand) : error? (store.comparison column op operand) = operand.refusal? op := by
  cases operand <;> cases op <;> rfl

namespace Schema

variable (s : Schema)

def refusal? (relation : Text) : Option FilterError :=
  if (s.relation? relation).isSome then none else some (.unknownRelation relation)

theorem error?_has (relation : Text) (filter? : Option Sql.Expr) :
    error? (s.store.has relation filter?) = s.refusal? relation := by
  simp only [store, has, refusal?]
  cases s.relation? relation <;> rfl

theorem error?_location (value : Text) :
    error? (s.store.location value) =
      if IsRemoteWord value then none else s.refusal? locations := by
  rw [Store.location_eq]
  split
  · rfl
  · exact s.error?_has locations _

theorem error?_mapM_location (values : List Text) :
    error? (values.mapM s.store.location) =
      if ∀ value ∈ values, IsRemoteWord value then none else s.refusal? locations := by
  rw [error?_mapM]
  induction values with
  | nil => rfl
  | cons value values ih =>
    rw [List.findSome?_cons, ih, error?_location]
    by_cases hv : IsRemoteWord value
    · simp [hv]
    · cases s.refusal? locations <;> simp [hv]

theorem error?_relation (name : Text) (test : RelationTest) (values : List Text) :
    error? (s.store.relation name test values) =
      if name = locations ∧ test = .isAny ∧ ∀ value ∈ values, IsRemoteWord value then none
      else s.refusal? name := by
  cases test with
  | present => simpa [Store.relation] using s.error?_has name none
  | hasAny => simpa [Store.relation] using s.error?_has name _
  | isAny =>
    by_cases hn : name = locations
    · simp only [Store.relation, hn, if_true, error?_map, error?_mapM_location, true_and]
    · simpa [Store.relation, hn] using s.error?_has name _

theorem error?_attributeValue (a : Attribute) (op : Comparison) (operand : Operand) :
    error? (s.store.attributeValue a op operand) =
      (operand.refusal? op).or (s.refusal? attributeValues) := by
  rw [Store.attributeValue, error?_bind fun _ _ ↦ s.error?_has attributeValues _,
    Store.error?_comparison]

end Schema

namespace Condition

variable (resolve : Resolver)

/-- Why a condition cannot be compiled. The places of a listing do without their relation where all
of them are remote work. -/
def refusal? (s : Schema) : Condition → Option FilterError
  | onField _ op operand => operand.refusal? op
  | onRelation name test values =>
    if name = locations ∧ test = .isAny ∧ ∀ value ∈ values, IsRemoteWord value then none
    else s.refusal? name
  | onAttribute name op operand =>
    match resolve name with
    | .error e => some e
    | .ok none => none
    | .ok (some _) => (operand.refusal? op).or (s.refusal? attributeValues)

def lookUp? : Condition → Option Text
  | onAttribute name _ _ => some name
  | onField .. | onRelation .. => none

theorem error?_compile (s : Schema) (c : Condition) :
    error? (c.compile resolve s.store).result = c.refusal? resolve s := by
  cases c with
  | onField name op operand => exact (error?_map _ _).trans (s.store.error?_comparison _ op operand)
  | onRelation name test values => exact (error?_map _ _).trans (s.error?_relation name test values)
  | onAttribute name op operand =>
    rw [compile, Traced.result_bind, refusal?, Traced.lookUp]
    cases resolve name with
    | error e => rfl
    | ok a? =>
      cases a? with
      | none => rfl
      | some a => exact (error?_map _ _).trans (s.error?_attributeValue a op operand)

theorem lookups_compile (store : Store π) (c : Condition) :
    (c.compile resolve store).lookups = c.lookUp?.toList := by
  cases c with
  | onField name op operand => rfl
  | onRelation name test values => rfl
  | onAttribute name op operand =>
    cases h : resolve name with
    | error e =>
      have hl : (Traced.lookUp resolve name).result = .error e := h
      exact Traced.lookups_bind_of_eq_error hl _
    | ok a? =>
      have hl : (Traced.lookUp resolve name).result = .ok a? := h
      rw [compile, Traced.lookups_bind_of_eq_ok hl]
      cases a? <;> rfl

end Condition

/-- A filter is refused exactly where one of its conditions is, and with the error of the first such
condition from the left, whatever the joins. The resolver is asked for the attributes of the
conditions up to it, in their order and as often as they come. -/
theorem Filter.compile_eq_error_iff (n : Filter) (resolve : Resolver) (s : Schema) :
    ((∃ e, (n.compile resolve s.store).result = .error e) ↔
      ∃ c ∈ n.leaves, (c.refusal? resolve s).isSome) ∧
    (∀ e, (n.compile resolve s.store).result = .error e ↔ ∃ before c after,
      n.leaves = before ++ c :: after ∧ (∀ c' ∈ before, c'.refusal? resolve s = none) ∧
        c.refusal? resolve s = some e) ∧
    (n.compile resolve s.store).lookups =
      (upTo (fun c ↦ (c.refusal? resolve s).isSome) n.leaves).filterMap Condition.lookUp? := by
  have follows := n.follows_leaves resolve s.store
  have refused : error? (n.compile resolve s.store).result =
      n.leaves.findSome? fun c ↦ c.refusal? resolve s := by
    rw [follows.error?_eq, List.findSome?_map]
    exact congrArg (List.findSome? · n.leaves) (funext fun c ↦ c.error?_compile resolve s)
  refine ⟨?_, fun e ↦ ?_, ?_⟩
  · rw [← List.findSome?_isSome_iff, ← refused, Option.isSome_iff_exists]
    exact exists_congr fun e ↦ error?_eq_some_iff.symm
  · rw [← error?_eq_some_iff, refused, List.findSome?_eq_some_iff]
    exact exists_congr fun before ↦ exists_congr fun c ↦ exists_congr fun after ↦
      and_congr_right' and_comm
  · rw [follows.lookups_eq, upTo_map, List.flatMap_map]
    simp only [Condition.error?_compile, Condition.lookups_compile]
    exact (List.filterMap_eq_flatMap_toList _ _).symm

end ListingFilter
