import ListingFilter.Token.Reading

namespace ListingFilter.Group

/-- The tokens in front of the parenthesis that closes the innermost of `depth + 1` open ones and
all around it, that parenthesis, and the tokens behind it. -/
def splitAtClosing? (depth : Nat) : List Token → Option (List Token × Token × List Token)
  | [] => none
  | t :: rest =>
    match t.kind, depth with
    | .closing, 0 => some ([], t, rest)
    | .closing, depth + 1 => (splitAtClosing? depth rest).map fun (inside, found) ↦ (t :: inside, found)
    | .opening, depth => (splitAtClosing? (depth + 1) rest).map fun (inside, found) ↦ (t :: inside, found)
    | _, depth => (splitAtClosing? depth rest).map fun (inside, found) ↦ (t :: inside, found)

def inner? (t : Text) : Option Text :=
  match Token.read t with
  | [] => none
  | first :: rest =>
    match first.kind, splitAtClosing? 0 rest with
    | .opening, some (inside, close, []) => some (Token.layout inside ++ close.gap)
    | _, _ => none

end ListingFilter.Group
