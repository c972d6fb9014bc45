import ListingFilter.Sql.Expr

namespace ListingFilter.Sql

inductive Symbol
  | select
  | one
  | star
  | source
  | named
  | inner
  | join
  | link
  | condition
  | connective (op : Connective)
  | operator (op : Operator)
  | among
  | rowExists
  | truth (value : Bool)
  | dot
  | comma
  | opening
  | closing
  deriving DecidableEq, Repr

def Operator.text : Operator → Text
  | eq => ['=']
  | ne => ['<', '>']
  | gt => ['>']
  | lt => ['<']
  | ge => ['>', '=']
  | le => ['<', '=']
  | like => ['L', 'I', 'K', 'E']

def truthText (value : Bool) : Text := .ofString (if value then "TRUE" else "FALSE")

def Symbol.text : Symbol → Text
  | select => .ofString "SELECT"
  | one => ['1']
  | star => ['*']
  | source => .ofString "FROM"
  | named => .ofString "AS"
  | inner => .ofString "INNER"
  | join => .ofString "JOIN"
  | link => .ofString "ON"
  | condition => .ofString "WHERE"
  | connective op => op.keyword
  | operator op => op.text
  | among => .ofString "IN"
  | rowExists => .ofString "EXISTS"
  | truth value => truthText value
  | dot => ['.']
  | comma => [',']
  | opening => ['(']
  | closing => [')']

inductive Piece
  | symbol (s : Symbol)
  | gap
  | name (text : Text)
  | value (v : Value)
  deriving DecidableEq, Repr

def Piece.spaced (s : Symbol) : List Piece := [gap, symbol s, gap]

def Piece.enclosed (pieces : List Piece) : List Piece :=
  symbol .opening :: (pieces ++ [symbol .closing])

def ColumnRef.pieces (c : ColumnRef) : List Piece := [.name c.table, .symbol .dot, .name c.column]

def valueList : List Value → List Piece
  | [] => []
  | [v] => [.value v]
  | v :: vs => .value v :: .symbol .comma :: .gap :: valueList vs

def Join.pieces (j : Join) : List Piece :=
  [.gap, .symbol .inner, .gap, .symbol .join, .gap, .name j.table] ++ Piece.spaced .link ++
    j.left.pieces ++ Piece.spaced (.operator .eq) ++ j.right.pieces

def Source.pieces (s : Source) : List Piece :=
  .name s.table :: (Piece.spaced .named ++ .name s.name :: s.join?.elim [] Join.pieces)

namespace Expr

/-- Whether an expression needs parentheses on the left of `op`, so that it is not read in another
grouping. -/
def needsParensLeft (op : Connective) : Expr → Bool
  | binary inner _ _ => inner ≠ op
  | _ => false

def needsParensRight : Expr → Bool
  | binary .. => true
  | _ => false

/-- The pieces of a condition. Membership in a list without values is the equation of two different
numbers. -/
def pieces : Expr → List Piece
  | truth value => [.symbol (.truth value)]
  | compare column op value => column.pieces ++ Piece.spaced (.operator op) ++ [.value value]
  | member _ [] =>
    .value (.number 1) :: (Piece.spaced (.operator .eq) ++ [.value (.number 2)])
  | member column values =>
    column.pieces ++ Piece.spaced .among ++ Piece.enclosed (valueList values)
  | same left right => left.pieces ++ Piece.spaced (.operator .eq) ++ right.pieces
  | rowExists source condition =>
    .symbol .rowExists :: Piece.enclosed
      ([.symbol .select, .gap, .symbol .one] ++ Piece.spaced .source ++ source.pieces ++
        Piece.spaced .condition ++ condition.pieces)
  | binary op left right =>
    (if left.needsParensLeft op then Piece.enclosed left.pieces else left.pieces) ++
      Piece.spaced (.connective op) ++
      (if right.needsParensRight then Piece.enclosed right.pieces else right.pieces)

end Expr

def Select.pieces (s : Select) : List Piece :=
  [.symbol .select, .gap, .name s.table, .symbol .dot, .symbol .star] ++ Piece.spaced .source ++
    .name s.table :: s.condition?.elim [] fun e ↦ Piece.spaced .condition ++ e.pieces

end ListingFilter.Sql
