import ListingFilter.Text.Shown

namespace ListingFilter.Json

inductive Fault
  | endInValue
  | endInObject
  | endInList
  | endInString
  | expectedValue
  | expectedWord
  | expectedColon
  | expectedCommaOrBrace
  | expectedCommaOrBracket
  | keyNotString
  | trailingComma
  | trailingCharacters
  | invalidNumber
  | numberOutOfRange
  | invalidEscape
  | loneSurrogate
  | unpairedSurrogate
  | controlCharacter
  | invalidType (found expected : Text)
  | invalidValue (found expected : Text)
  | invalidLength (count : Nat) (expected : Text)
  | missingField (name : Text)
  | duplicateField (name : Text)
  | unknownVariant (name : Text) (known : List Text)
  deriving DecidableEq, Repr

def backquoted (name : Text) : Text := '\x60' :: (name ++ ['\x60'])

def Fault.message : Fault → Text
  | endInValue => .ofString "EOF while parsing a value"
  | endInObject => .ofString "EOF while parsing an object"
  | endInList => .ofString "EOF while parsing a list"
  | endInString => .ofString "EOF while parsing a string"
  | expectedValue => .ofString "expected value"
  | expectedWord => .ofString "expected ident"
  | expectedColon => .ofString "expected " ++ backquoted [':']
  | expectedCommaOrBrace =>
    .ofString "expected " ++ backquoted [','] ++ .ofString " or " ++ backquoted ['}']
  | expectedCommaOrBracket =>
    .ofString "expected " ++ backquoted [','] ++ .ofString " or " ++ backquoted [']']
  | keyNotString => .ofString "key must be a string"
  | trailingComma => .ofString "trailing comma"
  | trailingCharacters => .ofString "trailing characters"
  | invalidNumber => .ofString "invalid number"
  | numberOutOfRange => .ofString "number out of range"
  | invalidEscape => .ofString "invalid escape"
  | loneSurrogate => .ofString "lone leading surrogate in hex escape"
  | unpairedSurrogate => .ofString "unexpected end of hex escape"
  | controlCharacter =>
    .ofString "control character (\\u0000-\\u001F) found while parsing a string"
  | invalidType found expected =>
    .ofString "invalid type: " ++ found ++ .ofString ", expected " ++ expected
  | invalidValue found expected =>
    .ofString "invalid value: " ++ found ++ .ofString ", expected " ++ expected
  | invalidLength count expected =>
    .ofString "invalid length " ++ .ofNat count ++ .ofString ", expected " ++ expected
  | missingField name => .ofString "missing field " ++ backquoted name
  | duplicateField name => .ofString "duplicate field " ++ backquoted name
  | unknownVariant name known =>
    .ofString "unknown variant " ++ backquoted name ++ .ofString ", expected one of " ++
      Text.joined [',', ' '] (known.map backquoted)

end ListingFilter.Json
