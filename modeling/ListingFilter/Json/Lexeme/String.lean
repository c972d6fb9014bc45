import ListingFilter.Json.Fault

namespace ListingFilter.Json

/-- What stands in a string: characters, and the UTF-16 units that hexadecimal escapes give. That
the units make characters is asked only where the text of the string is. -/
inductive StringPart
  | char (c : Char)
  | unit (n : Nat)
  deriving DecidableEq, Repr

inductive StringEnd
  | quote
  | endOfText
  | badHex
  | badEscape
  | control
  deriving DecidableEq, Repr

namespace StringEnd

def skipped : StringEnd → Except Fault Unit
  | quote => .ok ()
  | endOfText => .error .endInString
  | badHex | badEscape => .error .invalidEscape
  | control => .error .controlCharacter

def afterHalf : StringEnd → Fault
  | endOfText => .endInString
  | badHex => .invalidEscape
  | _ => .unpairedSurrogate

end StringEnd

def hexValue? (c : Char) : Option Nat :=
  if '0' ≤ c ∧ c ≤ '9' then some (c.toNat - '0'.toNat)
  else if 'a' ≤ c ∧ c ≤ 'f' then some (c.toNat - 'a'.toNat + 10)
  else if 'A' ≤ c ∧ c ≤ 'F' then some (c.toNat - 'A'.toNat + 10)
  else none

def hexUnit? (digits : Text) : Option Nat := do
  return (← digits.mapM hexValue?).foldl (fun n d ↦ 16 * n + d) 0

def unescape? : Char → Option Char
  | '"' => some '"'
  | '\\' => some '\\'
  | '/' => some '/'
  | 'b' => some '\x08'
  | 'f' => some '\x0c'
  | 'n' => some '\n'
  | 'r' => some '\r'
  | 't' => some '\t'
  | _ => none

def scanString : Text → List StringPart × StringEnd × Text
  | [] => ([], .endOfText, [])
  | '"' :: rest => ([], .quote, rest)
  | ['\\'] => ([], .endOfText, [])
  | '\\' :: 'u' :: a :: b :: c :: d :: rest =>
    match hexUnit? [a, b, c, d] with
    | some n =>
      let (parts, stop, after) := scanString rest
      (.unit n :: parts, stop, after)
    | none => ([], .badHex, [])
  | '\\' :: 'u' :: rest => ([], if Text.byteCount rest < 4 then .endOfText else .badHex, [])
  | '\\' :: c :: rest =>
    match unescape? c with
    | some c =>
      let (parts, stop, after) := scanString rest
      (.char c :: parts, stop, after)
    | none => ([], .badEscape, [])
  | c :: rest =>
    if c < ' ' then ([], .control, [])
    else
      let (parts, stop, after) := scanString rest
      (.char c :: parts, stop, after)

def isHighSurrogate (n : Nat) : Bool := 0xd800 ≤ n ∧ n < 0xdc00

def isLowSurrogate (n : Nat) : Bool := 0xdc00 ≤ n ∧ n < 0xe000

/-- The text of a string's parts, in which two units make one character where they are a pair of
surrogates. -/
def joinParts (stop : StringEnd) : List StringPart → Except Fault Text
  | [] => stop.skipped.map fun _ ↦ []
  | .char c :: rest => (joinParts stop rest).map (c :: ·)
  | .unit n :: rest =>
    if isLowSurrogate n then .error .loneSurrogate
    else if isHighSurrogate n then
      match rest with
      | [] => .error stop.afterHalf
      | .char _ :: _ => .error .unpairedSurrogate
      | .unit m :: rest =>
        if isLowSurrogate m then
          (joinParts stop rest).map
            (Char.ofNat ((n - 0xd800) * 0x400 + (m - 0xdc00) + 0x10000) :: ·)
        else .error .loneSurrogate
    else (joinParts stop rest).map (Char.ofNat n :: ·)

theorem length_scanString_le (t : Text) : (scanString t).2.2.length ≤ t.length := by
  fun_induction scanString t <;> simp_all <;> omega

end ListingFilter.Json
