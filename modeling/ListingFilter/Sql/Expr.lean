import ListingFilter.Connective

namespace ListingFilter.Sql

inductive Value
  | text (value : Text)
  | bool (value : Bool)
  | id (value : Int64)
  | number (value : Int64)
  deriving DecidableEq, Repr

inductive Operator
  | eq
  | ne
  | gt
  | lt
  | ge
  | le
  | like
  deriving DecidableEq, Repr

/-- A column of a table, which goes by its own name or by an alias. -/
structure ColumnRef where
  table : Text
  column : Text
  deriving DecidableEq, Repr

structure Join where
  table : Text
  left : ColumnRef
  right : ColumnRef
  deriving DecidableEq, Repr

structure Source where
  table : Text
  name : Text
  join? : Option Join
  deriving DecidableEq, Repr

inductive Expr
  | truth (value : Bool)
  | compare (column : ColumnRef) (op : Operator) (value : Value)
  | member (column : ColumnRef) (values : List Value)
  | same (left right : ColumnRef)
  | rowExists (source : Source) (condition : Expr)
  | binary (op : Connective) (left right : Expr)
  deriving Repr

/-- The condition that all parts hold, or that some part holds, grouped from the left. -/
def Expr.group (op : Connective) : List Expr → Expr
  | [] => .truth (op = .and)
  | first :: rest => rest.foldl (.binary op) first

structure Select where
  table : Text
  condition? : Option Expr
  deriving Repr

end ListingFilter.Sql
