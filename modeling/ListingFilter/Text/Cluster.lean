import ListingFilter.Text.Basic
import ListingFilter.Text.Character.Attached
import ListingFilter.Text.Character.Conjunct
import ListingFilter.Text.Character.Control
import ListingFilter.Text.Character.Extender
import ListingFilter.Text.Character.Pictograph

namespace ListingFilter

inductive ClusterRole
  | carriageReturn
  | lineFeed
  | control
  | extender
  | joiner
  | spacing
  | leading
  | indicator
  | hangulLead
  | hangulVowel
  | hangulTail
  | hangulOpen
  | hangulClosed
  | consonant
  | pictograph
  | plain
  deriving DecidableEq, Repr

namespace ClusterRole

def leadRanges : CodeRanges where
  ranges := [(0x1100, 0x115f), (0xa960, 0xa97c)]

/-- The vowels of Kirat Rai count as vowels of Hangul. -/
def vowelRanges : CodeRanges where
  ranges := [(0x1160, 0x11a7), (0xd7b0, 0xd7c6), (0x16d63, 0x16d63), (0x16d67, 0x16d6a)]

def tailRanges : CodeRanges where
  ranges := [(0x11a8, 0x11ff), (0xd7cb, 0xd7fb)]

/-- The part of a Hangul syllable that a character is. Of the whole syllables, every 28th is open. -/
def ofHangul? (c : Char) : Option ClusterRole :=
  let n := c.toNat
  if 0xac00 ≤ n ∧ n ≤ 0xd7a3 then some (if (n - 0xac00) % 28 = 0 then hangulOpen else hangulClosed)
  else if n ∈ leadRanges then some hangulLead
  else if n ∈ vowelRanges then some hangulVowel
  else if n ∈ tailRanges then some hangulTail
  else none

def isShade (c : Char) : Bool := 0x1f3fb ≤ c.toNat ∧ c.toNat ≤ 0x1f3ff

def isIndicator (c : Char) : Bool := 0x1f1e6 ≤ c.toNat ∧ c.toNat ≤ 0x1f1ff

def ofChar (c : Char) : ClusterRole :=
  if c = '\r' then carriageReturn
  else if c = '\n' then lineFeed
  else if c = '\u200d' then joiner
  else if isControl c then control
  else if isExtender c ∨ isShade c then extender
  else if isSpacing c then spacing
  else if isLeading c then leading
  else if isIndicator c then indicator
  else if isConsonant c then consonant
  else if isPictograph c then pictograph
  else (ofHangul? c).getD plain

def inSyllable : ClusterRole → ClusterRole → Bool
  | hangulLead, hangulLead | hangulLead, hangulVowel | hangulLead, hangulOpen
  | hangulLead, hangulClosed => true
  | hangulOpen, hangulVowel | hangulVowel, hangulVowel => true
  | hangulOpen, hangulTail | hangulVowel, hangulTail => true
  | hangulClosed, hangulTail | hangulTail, hangulTail => true
  | _, _ => false

def isBreak (r : ClusterRole) : Bool := r = carriageReturn ∨ r = lineFeed ∨ r = control

end ClusterRole

namespace Cluster

open ClusterRole

def endsInHalfFlag (cluster : Text) : Bool :=
  (cluster.takeWhile fun c ↦ ofChar c = .indicator).length % 2 = 1

def endsInJoinedPictograph : Text → Bool
  | [] => false
  | c :: rest =>
    ofChar c = .joiner ∧
      (rest.dropWhile fun c ↦ ofChar c = .extender).head?.any fun c ↦ ofChar c = .pictograph

def isConjunctMark (c : Char) : Bool :=
  ofChar c = .joiner ∨ ofChar c = .extender ∧ c ≠ '\u200c'

def endsInLinkedConsonant (cluster : Text) : Bool :=
  (cluster.takeWhile isConjunctMark).any isLinker ∧
    (cluster.dropWhile isConjunctMark).head?.any fun c ↦ ofChar c = .consonant

/-- Whether a character continues a cluster, by the rules of extended grapheme clusters. -/
def continues (cluster : Text) (c : Char) : Bool :=
  match cluster with
  | [] => true
  | last :: _ =>
    let before := ofChar last
    let role := ofChar c
    if before = .carriageReturn ∧ role = .lineFeed then true
    else if before.isBreak ∨ role.isBreak then false
    else if role = .extender ∨ role = .joiner ∨ role = .spacing ∨ before = .leading then true
    else match role with
      | .consonant => endsInLinkedConsonant cluster
      | .pictograph => endsInJoinedPictograph cluster
      | .indicator => endsInHalfFlag cluster
      | _ => before.inSyllable role

/-- The clusters of a text that stands behind a cluster. -/
def more (cluster : Text) : Text → List Text
  | [] => [cluster.reverse]
  | c :: rest =>
    if continues cluster c then more (c :: cluster) rest else cluster.reverse :: more [c] rest

end Cluster

namespace Text

def clusters : Text → List Text
  | [] => []
  | c :: rest => Cluster.more [c] rest

end Text

end ListingFilter
