import ListingFilter.Filter.Printer

namespace ListingFilter

inductive Fault
  | unbalancedClosing
  | unbalancedOpening
  | mixedConnectives
  | missingBefore (op : Connective)
  | missingAfter (op : Connective)
  | emptyGroup
  | tooDeep
  | missingTest (test : RelationTest)
  | missingRelation
  | missingList (test : RelationTest)
  | textAfterPresent
  | missingName
  | openedAfterClosed
  | emptyValue
  | noComparison
  | scalarForSet
  | setForScalar (op : Comparison)
  | worded (message : Text)
  deriving DecidableEq, Repr

def Fault.message : Fault → Text
  | unbalancedClosing => .ofString "Unbalanced ')'"
  | unbalancedOpening => .ofString "Unbalanced '('"
  | mixedConnectives =>
    .ofString "Mixed AND/OR operators at the same level are not supported"
  | missingBefore op => .ofString "Missing condition before " ++ op.keyword
  | missingAfter op => .ofString "Missing condition after " ++ op.keyword
  | emptyGroup => .ofString "Empty group"
  | tooDeep => .ofString "Filter is nested too deeply"
  | missingTest test => .ofString "Invalid " ++ test.keyword ++ .ofString " condition"
  | missingRelation => .ofString "Missing relation name"
  | missingList test =>
    .ofString "Invalid format for " ++ test.keyword ++
      .ofString " condition, expected a parenthesized list"
  | textAfterPresent => .ofString "Unexpected text after EXISTS"
  | missingName => .ofString "Missing name before operator"
  | openedAfterClosed => .ofString "Invalid format for IN condition"
  | emptyValue => .ofString "Empty value in list"
  | noComparison => .ofString "Invalid condition format"
  | scalarForSet => .ofString "IN requires a parenthesized value list"
  | setForScalar op => .ofString "Operator " ++ op.keyword ++ .ofString " does not take a value list"
  | worded message => message

/-- Why a filter is refused. A fault of form names the piece of text at fault. -/
inductive FilterError
  | malformed (fault : Fault) (fragment : Text)
  | unknownRelation (name : Text)
  | catalog (reason : Text)
  deriving DecidableEq, Repr

namespace FilterError

def message : FilterError → Text
  | malformed fault fragment => fault.message ++ .ofString ": " ++ fragment
  | unknownRelation name => .ofString "Unknown relation: " ++ name
  | catalog reason => .ofString "Attribute catalog error: " ++ reason

def isMalformed : FilterError → Bool
  | malformed .. => true
  | _ => false

def heading : Text := .ofString "Filter Error"

end FilterError

theorem exists_of_bind_eq_ok {ε α β : Type} {x : Except ε α} {f : α → Except ε β} {b : β}
    (h : x >>= f = .ok b) : ∃ a, x = .ok a ∧ f a = .ok b := by
  cases x with
  | error e => cases h
  | ok a => exact ⟨a, rfl, h⟩

theorem exists_of_map_eq_ok {α β : Type} {x : Except FilterError α} {f : α → β} {b : β}
    (h : x.map f = .ok b) : ∃ a, x = .ok a ∧ f a = b := by
  cases x with
  | error e => cases h
  | ok a => cases h; exact ⟨a, rfl, rfl⟩

end ListingFilter
