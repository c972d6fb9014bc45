import ListingFilter.Json.Numeral

namespace ListingFilter.Json

inductive Bracket
  | square
  | curly
  deriving DecidableEq, Repr

/-- A value that may be faulty, with the fault that skipping it meets: skipping a number does not
mind its size, nor skipping a string its surrogates. -/
structure Scanned (α : Type) where
  value : Except Fault α
  skipped : Except Fault Unit

inductive Scalar
  | null
  | bool (value : Bool)
  | number (value : Number)

inductive Leaf
  | comma
  | colon
  | closing (b : Bracket)
  | string (s : Scanned Text)
  | scalar (s : Scanned Scalar)

inductive Lexeme
  | opening (b : Bracket)
  | leaf (l : Leaf)

def Lexeme.faulty (f : Fault) : Lexeme := .leaf (.scalar ⟨.error f, .error f⟩)

end ListingFilter.Json
