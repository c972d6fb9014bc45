import ListingFilter.Predicate.Store

namespace ListingFilter

inductive Predicate
  | group (op : Connective) (parts : List Predicate)
  | compare (column : Column) (op : Comparison) (value : Text)
  | isIn (column : Column) (values : List Text)
  | flag (column : Column) (value : Bool)
  | idEquals (column : Column) (id : Int64)
  | has (relation : Text)
  | hasWith (relation : Text) (filter : Predicate)
  deriving Repr

namespace Predicate

/-- The store that writes its operations down. It knows every relation but the ones in `unknown`. -/
def recorder (unknown : List Text) : Store Predicate where
  group := group
  compare := compare
  isIn := isIn
  flag := flag
  idEquals := idEquals
  has relation filter? :=
    if relation ∈ unknown then .error (.unknownRelation relation)
    else match filter? with
      | none => .ok (.has relation)
      | some filter => .ok (.hasWith relation filter)

variable {π : Type}

mutual

def replay (store : Store π) : Predicate → Except FilterError π
  | group op parts => do return store.group op (← replayAll store parts)
  | compare column op value => .ok (store.compare column op value)
  | isIn column values => .ok (store.isIn column values)
  | flag column value => .ok (store.flag column value)
  | idEquals column id => .ok (store.idEquals column id)
  | has relation => store.has relation none
  | hasWith relation filter => do store.has relation (some (← replay store filter))

def replayAll (store : Store π) : List Predicate → Except FilterError (List π)
  | [] => .ok []
  | part :: parts => do return (← replay store part) :: (← replayAll store parts)

end

end Predicate

end ListingFilter
