namespace ListingFilter.Decimal

structure Interval where
  low : Nat
  mid : Nat
  high : Nat
  denominator : Nat
  closed : Bool
  deriving Repr

/-- The decimals that read back as the finite float of these bits, its sign left out. Numbers are
rounded to the nearest float, a half to the even one, so the ends count for an even mantissa. -/
def Interval.ofBits (bits : Nat) : Interval :=
  let fraction := bits % Nat.pow 2 52
  let exponent := bits / Nat.pow 2 52 % Nat.pow 2 11
  let mantissa := if exponent = 0 then fraction else fraction + Nat.pow 2 52
  let scale := max exponent 1
  -- the number is `mantissa * 2 ^ (scale - 1075)`
  let up := Nat.pow 2 (scale - 1075)
  let down := Nat.pow 2 (1075 - scale)
  let lowGap := if fraction = 0 ∧ 1 < exponent then 1 else 2
  ⟨(4 * mantissa - lowGap) * up, 4 * mantissa * up, (4 * mantissa + 2) * up, 4 * down,
    mantissa % 2 = 0⟩

namespace Interval

def admits (i : Interval) (n : Nat) : Bool :=
  if i.closed then i.low ≤ n ∧ n ≤ i.high else i.low < n ∧ n < i.high

def rescale (i : Interval) (exponent : Int) : Interval :=
  let up := Nat.pow 10 (-exponent).toNat
  ⟨i.low * up, i.mid * up, i.high * up, i.denominator * Nat.pow 10 exponent.toNat, i.closed⟩

def nearest? (i : Interval) : Option Nat :=
  let below := i.mid / i.denominator
  let above := below + 1
  match i.admits (below * i.denominator), i.admits (above * i.denominator) with
  | true, true =>
    let twice := 2 * i.mid
    let middle := (below + above) * i.denominator
    if twice < middle ∨ (twice = middle ∧ below % 2 = 0) then some below else some above
  | true, false => some below
  | false, true => some above
  | false, false => none

def search (i : Interval) (exponent : Int) : (steps : Nat) → Option (Nat × Int)
  | 0 => none
  | steps + 1 =>
    match (i.rescale exponent).nearest? with
    | some digits => some (digits, exponent)
    | none => search i (exponent - 1) steps

end Interval

/-- Digits `d` and an exponent `e`, so that `d * 10 ^ e` is the shortest decimal of a finite float,
its sign left out. -/
def shortest (f : Float) : Nat × Int :=
  let bits := f.abs.toBits.toNat
  if bits = 0 then (0, 0) else ((Interval.ofBits bits).search 309 640).getD (0, 0)

end ListingFilter.Decimal
