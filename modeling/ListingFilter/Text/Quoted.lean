import ListingFilter.Text.Basic

namespace ListingFilter.Text

def isQuote (c : Char) : Bool := c = '\'' ∨ c = '"'

def unquote? (t : Text) : Option Text :=
  (between? '\'' '\'' t).or (between? '"' '"' t)

/-- A value free of the blanks around it and of one pair of quotes. -/
def clean (t : Text) : Text := (unquote? t.trim).getD t.trim

theorem clean_of_unquote?_eq_none {t : Text} (h : unquote? t.trim = none) : clean t = t.trim := by
  rw [clean, h, Option.getD_none]

theorem clean_of_unquote?_eq_some {t s : Text} (h : unquote? t.trim = some s) : clean t = s := by
  rw [clean, h, Option.getD_some]

end ListingFilter.Text
