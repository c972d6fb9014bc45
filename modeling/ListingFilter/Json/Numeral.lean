import ListingFilter.Decimal.Shortest
import ListingFilter.Json.Fault

namespace ListingFilter.Json

structure Numeral where
  negative : Bool
  whole : List Nat
  fraction : List Nat
  exponent? : Option (Bool × List Nat)
  deriving DecidableEq, Repr

inductive Number
  | integer (value : Int)
  | float (value : Float)

namespace Numeral

def ofDigits (digits : List Nat) : Nat := digits.foldl (fun n d ↦ 10 * n + d) 0

/-- Appends digits to a number as long as it fits 64 bits, and counts the digits that are left. -/
def extend (n : Nat) : List Nat → Nat × Nat
  | [] => (n, 0)
  | d :: ds => if 10 * n + d < UInt64.size then extend (10 * n + d) ds else (n, ds.length + 1)

/-- `f / 10 ^ n`, in steps that the powers of ten allow. -/
def divide (f : Float) (n : Nat) : Float :=
  if n ≤ 308 then f / Float.ofScientific 1 false n
  else if f == 0 then f
  else divide (f / Float.ofScientific 1 false 308) (n - 308)
termination_by n

def scale (significand : Nat) (exponent : Int) : Except Fault Float :=
  let f := significand.toUInt64.toFloat
  if exponent < 0 then .ok (divide f exponent.natAbs)
  else if significand = 0 then .ok f
  else if 308 < exponent then .error .numberOutOfRange
  else
    let scaled := f * Float.ofScientific 1 false exponent.natAbs
    if scaled.isInf then .error .numberOutOfRange else .ok scaled

def exponent (n : Numeral) : Int :=
  match n.exponent? with
  | none => 0
  | some (true, digits) => -(ofDigits digits)
  | some (false, digits) => ofDigits digits

def float (n : Numeral) : Except Fault Float :=
  let (whole, dropped) := extend 0 n.whole
  let (significand, left) := extend whole n.fraction
  let shift : Int := dropped - (n.fraction.length - left : Nat)
  (scale significand (shift + n.exponent)).map fun f ↦ if n.negative then -f else f

def isWhole (n : Numeral) : Bool := n.fraction.isEmpty ∧ n.exponent?.isNone

def value (n : Numeral) : Except Fault Number :=
  let whole := ofDigits n.whole
  if n.isWhole ∧ !n.negative ∧ whole < UInt64.size then .ok (.integer whole)
  else if n.isWhole ∧ n.negative ∧ 0 < whole ∧ Int64.minValue.toInt ≤ -whole then .ok (.integer (-whole))
  else n.float.map .float

end Numeral

/-- The text of a float: positional from 0.00001 up to below 10 ^ 16, and beyond with an exponent
that has its sign. -/
def floatText (f : Float) : Text :=
  let (digits, exponent) := Decimal.shortest f
  let ds := Text.ofNat digits
  let point : Int := ds.length + exponent
  let sign := if f.toBits = f.abs.toBits then [] else ['-']
  sign ++
    if digits = 0 then .ofString "0.0"
    else if 0 ≤ exponent ∧ point ≤ 16 then
      ds ++ List.replicate exponent.toNat '0' ++ .ofString ".0"
    else if 0 < point ∧ point ≤ 16 then ds.take point.toNat ++ '.' :: ds.drop point.toNat
    else if -5 < point ∧ point ≤ 0 then
      .ofString "0." ++ List.replicate (-point).toNat '0' ++ ds
    else
      ds.take 1 ++ (if ds.length = 1 then [] else '.' :: ds.drop 1) ++
        'e' :: ((if 0 < point then ['+'] else []) ++ Text.ofInt (point - 1))

def Number.found : Number → Text
  | integer n => .ofString "integer " ++ backquoted (.ofInt n)
  | float f => .ofString "floating point " ++ backquoted (floatText f)

end ListingFilter.Json
