import GuildRoster.Binary64

/-!
# Numbers with fixed places

The decimal text of a double with a given number of places after the point. The exact value is
rounded once; of two equally near texts the one with the even last digit is taken. A negative
number keeps its sign even when every digit shown is zero.
-/

set_option autoImplicit false

namespace GuildRoster

/-- The whole number nearest to `numerator / denominator`; of two equally near ones the even one. -/
def roundHalfEven (numerator denominator : Nat) : Nat :=
  let below := numerator / denominator
  let rest := 2 * (numerator % denominator)
  if rest < denominator ∨ (rest = denominator ∧ below % 2 = 0) then below else below + 1

/-- The digits of a whole number with a point before the last `places` of them. At least one digit
stands before the point, and there is no point when there are no places. -/
def pointed (places scaled : Nat) : List Char :=
  if places = 0 then Nat.toDigits 10 scaled
  else
    let fraction := Nat.toDigits 10 (scaled % powerOfTen places)
    Nat.toDigits 10 (scaled / powerOfTen places)
      ++ ['.'] ++ List.replicate (places - fraction.length) '0' ++ fraction

def Binary64.fixed (places : Nat) (number : Float) : String :=
  match Binary64.value? number with
  | some exact =>
    let scaled := roundHalfEven (exact.quotient.1 * powerOfTen places) exact.quotient.2
    String.ofList ((if exact.negative then ['-'] else []) ++ pointed places scaled)
  | none => if number == number then (if number < 0 then "-inf" else "inf") else "NaN"

end GuildRoster
