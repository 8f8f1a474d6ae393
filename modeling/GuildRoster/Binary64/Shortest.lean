import GuildRoster.Binary64

/-!
# Shortest decimals

The decimal with the fewest digits that reads back as a given double, and of those with equally
many digits the nearest one. A grid of decimals with `n` digits has a point inside the interval of
numbers that round to the double exactly when one of the double's two neighbours on that grid is
inside, so only those two are tried.
-/

set_option autoImplicit false

namespace GuildRoster

structure Decimal where
  digits : Nat
  exponent : Int
  deriving DecidableEq, Repr

/-- The numbers that round to one double, as quotients over a common denominator. The ends belong
to the interval when `closed`. -/
structure RoundingInterval where
  lower : Nat
  middle : Nat
  upper : Nat
  denominator : Nat
  closed : Bool

/-- The interval of a positive double. Below a power of two the next double is nearer. -/
def BinaryFraction.interval (number : BinaryFraction) : RoundingInterval :=
  let atPower := number.mantissa = Binary64.leadingBit ∧ -1074 < number.exponent
  let scale : Nat × Nat := match number.exponent - 2 with
    | .ofNat power => (powerOfTwo power, 1)
    | .negSucc power => (1, powerOfTwo (power + 1))
  { lower := (4 * number.mantissa - if atPower then 1 else 2) * scale.1
    middle := 4 * number.mantissa * scale.1
    upper := (4 * number.mantissa + 2) * scale.1
    denominator := scale.2
    closed := number.mantissa % 2 == 0 }

def RoundingInterval.holds (interval : RoundingInterval) (numerator denominator : Nat) : Bool :=
  let left := interval.lower * denominator
  let point := numerator * interval.denominator
  let right := interval.upper * denominator
  if interval.closed then left ≤ point && point ≤ right else left < point && point < right

/-- The place of the first digit of the interval's middle: the `p` for which
`10 ^ p ≤ middle < 10 ^ (p + 1)`. -/
def RoundingInterval.leadingPlace (interval : RoundingInterval) : Int :=
  let whole := interval.middle / interval.denominator
  if 0 < whole then ((Nat.toDigits 10 whole).length : Int) - 1
  else -((Nat.toDigits 10 ((interval.denominator - 1) / interval.middle)).length : Int)

/-- The nearer of the middle's two neighbours among the multiples of `10 ^ place` that lie in the
interval, if any does. -/
def RoundingInterval.onGrid? (interval : RoundingInterval) (place : Int) : Option Decimal :=
  let (unit, share) : Nat × Nat := match place with
    | .ofNat power => (powerOfTen power, 1)
    | .negSucc power => (1, powerOfTen (power + 1))
  let numerator := interval.middle * share
  let denominator := interval.denominator * unit
  let below := numerator / denominator
  let rest := numerator % denominator
  let inside (multiple : Nat) : Bool := interval.holds (multiple * unit) share
  let nearer := if 2 * rest < denominator ∨ (2 * rest = denominator ∧ below % 2 = 0)
    then below else below + 1
  let farther := if nearer = below then below + 1 else below
  if inside nearer then some ⟨nearer, place⟩
  else if inside farther then some ⟨farther, place⟩
  else none

/-- The shortest decimal of a positive double. The first grid is one place above the leading digit,
where the next power of ten lies; seventeen digits always suffice. -/
def BinaryFraction.shortest (number : BinaryFraction) : Decimal :=
  let interval := number.interval
  let lead := interval.leadingPlace
  let grids := (List.range 18).filterMap fun count : Nat =>
    interval.onGrid? (lead + 1 - (count : Int))
  grids.head?.getD ⟨0, 0⟩

/-- Where a number is written with its point in place, and how its power of ten is written
elsewhere. -/
structure ScientificLayout where
  /-- The smallest and the largest power of ten written with the point in place. -/
  smallest : Int
  largest : Int
  exponentDigits : Nat

/-- The text of a positive decimal. A number with its point in place has a digit on both sides. -/
def ScientificLayout.write (layout : ScientificLayout) (decimal : Decimal) : List Char :=
  let digits := Nat.toDigits 10 decimal.digits
  let power : Int := decimal.exponent + (digits.length : Int) - 1
  if layout.smallest ≤ power ∧ power ≤ layout.largest then
    if 0 ≤ decimal.exponent then
      digits ++ List.replicate decimal.exponent.toNat '0' ++ ['.', '0']
    else if 0 ≤ power then
      digits.take (power.toNat + 1) ++ ['.'] ++ digits.drop (power.toNat + 1)
    else
      ['0', '.'] ++ List.replicate ((-power).toNat - 1) '0' ++ digits
  else
    let point := if digits.length = 1 then [] else ['.']
    let sign := if power < 0 then '-' else '+'
    let exponent := Nat.toDigits 10 power.natAbs
    digits.take 1 ++ point ++ digits.drop 1 ++ ['e', sign]
      ++ List.replicate (layout.exponentDigits - exponent.length) '0' ++ exponent

def Binary64.shortest (layout : ScientificLayout) (number : Float) : String :=
  match Binary64.value? number with
  | some exact =>
    let text := if exact.mantissa = 0 then ['0', '.', '0'] else layout.write exact.shortest
    String.ofList ((if exact.negative then ['-'] else []) ++ text)
  | none => if number == number then (if number < 0 then "-inf" else "inf") else "NaN"

end GuildRoster
