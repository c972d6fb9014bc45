import ListingFilter.Connective

namespace ListingFilter

/-- The comparisons between a name and its value. `notEqual` and `differs` are two spellings of
one comparison. -/
inductive Comparison
  | equal
  | notEqual
  | differs
  | greater
  | less
  | atLeast
  | atMost
  | like
  | oneOf
  deriving DecidableEq, Repr

def Comparison.keyword : Comparison → Text
  | equal => ['=']
  | notEqual => ['!', '=']
  | differs => ['<', '>']
  | greater => ['>']
  | less => ['<']
  | atLeast => ['>', '=']
  | atMost => ['<', '=']
  | like => ['L', 'I', 'K', 'E']
  | oneOf => ['I', 'N']

inductive RelationTest
  | hasAny
  | isAny
  | present
  deriving DecidableEq, Repr

def RelationTest.keyword : RelationTest → Text
  | hasAny => ['H', 'A', 'S', '_', 'A', 'N', 'Y']
  | isAny => ['I', 'S', '_', 'A', 'N', 'Y']
  | present => ['E', 'X', 'I', 'S', 'T', 'S']

inductive Operand
  | scalar (value : Text)
  | set (values : List Text)
  deriving DecidableEq, Repr

/-- A single condition: on a column of the listing, on an attribute that a catalog names, or on a
relation. -/
inductive Condition
  | onField (name : Text) (op : Comparison) (operand : Operand)
  | onAttribute (name : Text) (op : Comparison) (operand : Operand)
  | onRelation (name : Text) (test : RelationTest) (values : List Text)
  deriving DecidableEq, Repr

inductive Filter
  | leaf (condition : Condition)
  | join (op : Connective) (parts : List Filter)
  deriving Repr

@[induction_eliminator]
theorem Filter.induction {P : Filter → Prop} (leaf : ∀ condition, P (leaf condition))
    (join : ∀ op parts, (∀ part ∈ parts, P part) → P (join op parts)) (filter : Filter) :
    P filter :=
  Filter.rec (motive_1 := P) (motive_2 := fun parts ↦ ∀ part ∈ parts, P part) leaf join
    (by simp) (fun _ _ head tail ↦ List.forall_mem_cons.2 ⟨head, tail⟩) filter

end ListingFilter
