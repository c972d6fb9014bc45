import ListingFilter.Sql.Piece

namespace ListingFilter

inductive Dialect
  | postgres
  | mysql
  | sqlite
  deriving DecidableEq, Repr

namespace Dialect

def name : Dialect → Text
  | postgres => .ofString "postgres"
  | mysql => .ofString "mysql"
  | sqlite => .ofString "sqlite"

def all : List Dialect := [postgres, mysql, sqlite]

def nameQuote : Dialect → Char
  | mysql => '\x60'
  | _ => '"'

def doubled (quote : Char) (t : Text) : Text :=
  t.flatMap fun c ↦ if c = quote then [c, c] else [c]

def quoteName (d : Dialect) (t : Text) : Text :=
  d.nameQuote :: (doubled d.nameQuote t ++ [d.nameQuote])

def escape? (c : Char) : Option Char :=
  if c = '\\' ∨ c = '"' ∨ c = '\'' then some c
  else if c = '\x00' then some '0'
  else if c = '\x08' then some 'b'
  else if c = '\t' then some 't'
  else if c = '\x1a' then some 'z'
  else if c = '\n' then some 'n'
  else if c = '\r' then some 'r'
  else none

def escaped (t : Text) : Text :=
  t.flatMap fun c ↦ match escape? c with
    | some letter => ['\\', letter]
    | none => [c]

def quoted (t : Text) : Text := '\'' :: (t ++ ['\''])

/-- A text literal. Postgres marks one with a backslash in it as escaped. -/
def textLiteral (d : Dialect) (t : Text) : Text :=
  match d with
  | sqlite => quoted (doubled '\'' t)
  | mysql => quoted (escaped t)
  | postgres => if '\\' ∈ escaped t then 'E' :: quoted (escaped t) else quoted (escaped t)

def literal (d : Dialect) : Sql.Value → Text
  | .text t => d.textLiteral t
  | .bool b => Sql.truthText b
  | .id n => .ofInt n.toInt
  | .number n => .ofInt n.toInt

def placeholder (d : Dialect) (before : Nat) : Text :=
  match d with
  | postgres => '$' :: Text.ofNat (before + 1)
  | _ => ['?']

def fixedText (d : Dialect) : Sql.Piece → Text
  | .symbol s => s.text
  | .gap => [' ']
  | .name t => d.quoteName t
  | .value _ => []

def inlineText (d : Dialect) (pieces : List Sql.Piece) : Text :=
  pieces.flatMap fun
    | .value v => d.literal v
    | piece => d.fixedText piece

/-- A statement with a placeholder for each value. `before` counts the ones in front of it. -/
def boundText (d : Dialect) (before : Nat) : List Sql.Piece → Text
  | [] => []
  | .value _ :: rest => d.placeholder before ++ boundText d (before + 1) rest
  | piece :: rest => d.fixedText piece ++ boundText d before rest

end Dialect

def Sql.parameters (pieces : List Sql.Piece) : List Sql.Value :=
  pieces.filterMap fun
    | .value v => some v
    | _ => none

end ListingFilter
