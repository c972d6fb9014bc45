import ListingFilter.Connective

namespace ListingFilter

structure Token where
  gap : Text
  text : Text
  deriving DecidableEq, Repr

structure Span where
  start : Nat
  stop : Nat
  deriving DecidableEq, Repr

def Span.cover (a b : Span) : Span := ⟨min a.start b.start, max a.stop b.stop⟩

namespace Token

inductive Kind
  | opening
  | closing
  | connective (c : Connective)
  | word
  deriving DecidableEq, Repr

def kindOf (text : Text) : Kind :=
  if text = ['('] then .opening
  else if text = [')'] then .closing
  else match Connective.ofKeyword? text with
    | some c => .connective c
    | none => .word

def kind (t : Token) : Kind := kindOf t.text

/-- The text of tokens, the blanks in front of the first one included. -/
def layout (ts : List Token) : Text := ts.flatMap fun t ↦ t.gap ++ t.text

def source : List Token → Text
  | [] => []
  | t :: ts => t.text ++ layout ts

/-- The spans of tokens in a text whose first token's blanks begin at `offset`. -/
def spansFrom (offset : Nat) : List Token → List Span
  | [] => []
  | t :: ts =>
    let start := offset + t.gap.byteCount
    let stop := start + t.text.byteCount
    ⟨start, stop⟩ :: spansFrom stop ts

def spans (ts : List Token) : List Span := spansFrom 0 ts

def coverAll? : List Span → Option Span
  | [] => none
  | s :: ss => some (ss.foldl Span.cover s)

theorem layout_append (ts us : List Token) : layout (ts ++ us) = layout ts ++ layout us :=
  List.flatMap_append

theorem layout_cons (t : Token) (ts : List Token) :
    layout (t :: ts) = t.gap ++ source (t :: ts) := by
  simp [layout, source]

theorem length_spansFrom (offset : Nat) (ts : List Token) :
    (spansFrom offset ts).length = ts.length := by
  induction ts generalizing offset with
  | nil => rfl
  | cons t ts ih => simp [spansFrom, ih]

end Token

end ListingFilter
