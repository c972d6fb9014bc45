import ListingFilter.Error
import ListingFilter.Token.Reading

namespace ListingFilter

structure Level where
  op? : Option Connective
  segments : List Text
  deriving DecidableEq, Repr

namespace Level

/-- What is known of a level while its tokens are read: the open parentheses, the connective, the
complete segments and the tokens of the segment at hand. -/
structure Draft where
  depth : Nat
  op? : Option Connective
  segments : List Text
  current : List Token
  deriving DecidableEq, Repr

namespace Draft

def start : Draft := ⟨0, none, [], []⟩

def push (d : Draft) (t : Token) : Draft := { d with current := d.current ++ [t] }

def cut (d : Draft) (op : Connective) : Except Fault Draft :=
  if d.op?.any (· ≠ op) then .error .mixedConnectives
  else if d.current.isEmpty then .error (.missingBefore op)
  else .ok ⟨d.depth, some op, d.segments ++ [Token.source d.current], []⟩

/-- Reads tokens. `whole` holds all tokens of the level, for the fragment of an error. -/
def read (whole : List Token) (d : Draft) : List Token → Except FilterError Draft
  | [] => .ok d
  | t :: rest =>
    match t.kind, d.depth with
    | .opening, depth => read whole { d.push t with depth := depth + 1 } rest
    | .closing, depth + 1 => read whole { d.push t with depth := depth } rest
    | .closing, 0 =>
      .error (.malformed .unbalancedClosing
        (Token.source (whole.take (whole.length - rest.length))))
    | .connective op, 0 =>
      match d.cut op with
      | .ok d => read whole d rest
      | .error fault => .error (.malformed fault (Token.source whole))
    | _, _ => read whole (d.push t) rest

def finish (d : Draft) : Except Fault Level :=
  if d.depth ≠ 0 then .error .unbalancedOpening
  else if d.current.isEmpty then
    match d.op? with
    | some op => .error (.missingAfter op)
    | none => .ok ⟨none, []⟩
  else .ok ⟨d.op?, d.segments ++ [Token.source d.current]⟩

end Draft

def ofTokens (ts : List Token) : Except FilterError Level := do
  let draft ← Draft.start.read ts ts
  match draft.finish with
  | .ok level => .ok level
  | .error fault => .error (.malformed fault (Token.source ts))

def ofText (t : Text) : Except FilterError Level := ofTokens (Token.read t)

end Level

end ListingFilter
