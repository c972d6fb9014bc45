import ListingFilter.Text.Cluster

namespace ListingFilter

/-- A line while it is typed: what stands, and the bytes of each cluster in it, both from the end
back. The bytes are kept in eight bits, so that of a cluster of 256 bytes or more a backspace takes
back fewer. -/
structure Typing where
  kept : Text
  sizes : List UInt8
  deriving DecidableEq, Repr

namespace Typing

def backspace : Char := '\x08'

def start : Typing := ⟨[], []⟩

def dropBytes? (count : Nat) : Text → Option Text
  | [] => some []
  | c :: rest =>
    if count = 0 then some (c :: rest)
    else if c.utf8Size ≤ count then dropBytes? (count - c.utf8Size) rest
    else none

def enter (s : Typing) (cluster : Text) : Option Typing :=
  if cluster = [backspace] then
    match s.sizes with
    | [] => some s
    | size :: sizes => (dropBytes? size.toNat s.kept).map fun kept ↦ ⟨kept, sizes⟩
  else some ⟨cluster.reverse ++ s.kept, UInt8.ofNat cluster.byteCount :: s.sizes⟩

end Typing

namespace Text

/-- A line as it was meant. There is none where a backspace would take back a part of a character. -/
def typed? (line : Text) : Option Text :=
  (line.clusters.foldlM Typing.enter .start).map fun s ↦ s.kept.reverse

end Text

end ListingFilter
