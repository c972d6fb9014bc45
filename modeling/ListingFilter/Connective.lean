import ListingFilter.Text.Basic

namespace ListingFilter

inductive Connective
  | and
  | or
  deriving DecidableEq, Repr

namespace Connective

def keyword : Connective → Text
  | and => ['A', 'N', 'D']
  | or => ['O', 'R']

/-- The connective that a word spells. Lower case letters do not count. -/
def ofKeyword? (word : Text) : Option Connective :=
  if word = and.keyword then some and else if word = or.keyword then some or else none

theorem ofKeyword?_eq_some_iff {word : Text} {c : Connective} :
    ofKeyword? word = some c ↔ word = c.keyword := by
  constructor
  · intro h
    simp only [ofKeyword?] at h
    split at h
    · cases h; assumption
    · split at h
      · cases h; assumption
      · cases h
  · rintro rfl
    cases c <;> rfl

end Connective

end ListingFilter
