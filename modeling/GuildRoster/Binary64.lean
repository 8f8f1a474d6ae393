/-!
# Double-precision numbers as exact fractions

Every finite double is a whole number times a power of two. Rounding, truncating and printing are
done on that exact value with whole-number arithmetic; only the basic operations of the format
itself are used on doubles.
-/

set_option autoImplicit false

namespace GuildRoster

/-- The number `mantissa * 2 ^ exponent`, negated when `negative`. A zero keeps its sign. -/
structure BinaryFraction where
  negative : Bool
  mantissa : Nat
  exponent : Int
  deriving DecidableEq, Repr

def powerOfTwo (exponent : Nat) : Nat := Nat.pow 2 exponent

def powerOfTen (exponent : Nat) : Nat := Nat.pow 10 exponent

namespace Binary64

/-- The bit of a mantissa that stands for the one in front of the point. It is not stored. -/
def leadingBit : Nat := 4503599627370496

/-- The exact value of a double; none for infinities and for what is not a number. -/
def value? (number : Float) : Option BinaryFraction :=
  let bits : Nat := number.toBits.toNat
  let negative := decide (9223372036854775808 ≤ bits)
  let field : Nat := bits / leadingBit % 2048
  let fraction : Nat := bits % leadingBit
  if field = 2047 then none
  else if field = 0 then some ⟨negative, fraction, -1074⟩
  else some ⟨negative, fraction + leadingBit, (field : Int) - 1075⟩

/-- The double nearest to a signed 64-bit number, of two equally near ones the even one. -/
def ofInt64 (number : Int64) : Float :=
  let magnitude := (UInt64.ofNat number.toInt.natAbs).toFloat
  if number.toInt < 0 then -magnitude else magnitude

end Binary64

namespace BinaryFraction

/-- The magnitude as a quotient of whole numbers: numerator and denominator. -/
def quotient (number : BinaryFraction) : Nat × Nat :=
  match number.exponent with
  | .ofNat power => (number.mantissa * powerOfTwo power, 1)
  | .negSucc power => (number.mantissa, powerOfTwo (power + 1))

def wholePart (number : BinaryFraction) : Nat := number.quotient.1 / number.quotient.2

def roundHalfUp (number : BinaryFraction) : Nat :=
  (2 * number.quotient.1 + number.quotient.2) / (2 * number.quotient.2)

end BinaryFraction

namespace Binary64

/-- The signed 64-bit number nearest to zero's side of a double: the fraction is dropped, what is
too large becomes the largest or smallest number and what is not a number becomes zero. -/
def truncate (number : Float) : Int64 :=
  match value? number with
  | some exact =>
    let whole : Int := exact.wholePart
    let signed := if exact.negative then -whole else whole
    Int64.ofInt (max (-9223372036854775808) (min 9223372036854775807 signed))
  | none =>
    if number.toBits == 0x7FF0000000000000 then Int64.maxValue
    else if number.toBits == 0xFFF0000000000000 then Int64.minValue
    else 0

end Binary64

end GuildRoster
