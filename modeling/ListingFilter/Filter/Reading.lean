import ListingFilter.Filter.Condition
import ListingFilter.Filter.Group
import ListingFilter.Filter.Level

namespace ListingFilter.Filter

def maxNesting : Nat := 64

def ofLevel (segment : Text → Except FilterError Filter) (level : Level) :
    Except FilterError (Option Filter) :=
  match level.op?, level.segments with
  | _, [] => .ok none
  | none, first :: _ => (segment first).map some
  | some op, segments => (segments.mapM segment).map fun parts ↦ some (.join op parts)

def ofSegment (nesting : Nat) (segment : Text) : Except FilterError Filter :=
  match Group.inner? segment with
  | none => (Condition.read segment).map .leaf
  | some inner =>
    match nesting with
    | 0 => .error (.malformed .tooDeep segment)
    | nesting + 1 => do
      match ← ofLevel (ofSegment nesting) (← Level.ofText inner) with
      | some filter => .ok filter
      | none => .error (.malformed .emptyGroup segment)

/-- Reads a filter. The parentheses around all of it do not count as a group, and a text without
conditions is no filter. -/
def read? (t : Text) : Except FilterError (Option Filter) := do
  ofLevel (ofSegment maxNesting) (← Level.ofText ((Group.inner? t).getD t))

end ListingFilter.Filter
