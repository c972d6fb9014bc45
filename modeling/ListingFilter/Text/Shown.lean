import ListingFilter.Text.Basic
import ListingFilter.Text.Character.Extender
import ListingFilter.Text.Character.Unseen

namespace ListingFilter.Text

/-- The halfwidth sound marks. They extend a letter, but have a place of their own behind it. -/
def isSoundMark (c : Char) : Bool := c = '\uff9e' ∨ c = '\uff9f'

def isHidden (c : Char) : Bool := isUnseen c ∨ isExtender c ∧ !isSoundMark c

def shownChar (c : Char) : Text :=
  if c = '"' ∨ c = '\\' then ['\\', c]
  else if c = '\t' then ['\\', 't']
  else if c = '\n' then ['\\', 'n']
  else if c = '\r' then ['\\', 'r']
  else if c = '\x00' then ['\\', '0']
  else if isHidden c then ofString "\\u\x7b" ++ Nat.toDigits 16 c.toNat ++ ['}']
  else [c]

def shown (t : Text) : Text := '"' :: (t.flatMap shownChar ++ ['"'])

end ListingFilter.Text
