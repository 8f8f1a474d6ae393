/-!
# Faults and bounded arithmetic

A computation on bounded numbers stops with a fault when a result leaves its range, and a look-up
stops with one when it points outside its table, text or picture. The operations below are the only
sources of arithmetic faults: each gives the exact result when that fits and a fault otherwise, so
no number ever wraps around.
-/

set_option autoImplicit false

namespace GuildRoster

inductive ArithmeticOperation where
  | addition
  | subtraction
  | multiplication
  deriving DecidableEq, Repr

inductive Fault where
  | overflow (operation : ArithmeticOperation)
  | outOfBounds
  deriving DecidableEq, Repr

/-- The text reported for an arithmetic fault; a position out of bounds has no fixed text. -/
def Fault.message : Fault → Option String
  | .overflow .addition => some "attempt to add with overflow"
  | .overflow .subtraction => some "attempt to subtract with overflow"
  | .overflow .multiplication => some "attempt to multiply with overflow"
  | .outOfBounds => none

/-- What is done in two steps has an answer just when both steps have one. -/
theorem except_bind_eq_ok_iff {ε α β : Type} {first : Except ε α} {next : α → Except ε β}
    {result : β} : (first >>= next) = .ok result ↔
      ∃ value, first = .ok value ∧ next value = .ok result := by
  cases first with
  | error fault => simp [bind, Except.bind]
  | ok value => simp [bind, Except.bind]

/-! ## Signed 64-bit numbers -/

/-- The signed 64-bit number equal to `value`, or a fault of `operation` when there is none. -/
def exactly (operation : ArithmeticOperation) (value : Int) : Except Fault Int64 :=
  if -9223372036854775808 ≤ value ∧ value ≤ 9223372036854775807 then .ok (Int64.ofInt value)
  else .error (.overflow operation)

def exactSum (left right : Int64) : Except Fault Int64 :=
  exactly .addition (left.toInt + right.toInt)

def exactDifference (left right : Int64) : Except Fault Int64 :=
  exactly .subtraction (left.toInt - right.toInt)

def exactProduct (left right : Int64) : Except Fault Int64 :=
  exactly .multiplication (left.toInt * right.toInt)

/-- Every signed 64-bit number lies in the range that `exactly` accepts. -/
theorem toInt_inRange (number : Int64) :
    -9223372036854775808 ≤ number.toInt ∧ number.toInt ≤ 9223372036854775807 := by
  have least := number.le_toInt
  have most := number.toInt_lt
  omega

/-! ## Unsigned numbers

Pixels and screen cells are counted with natural numbers of a fixed width in bits. -/

def rangeSize (bits : Nat) : Nat := Nat.pow 2 bits

def sumWithin (bits left right : Nat) : Except Fault Nat :=
  if left + right < rangeSize bits then .ok (left + right) else .error (.overflow .addition)

def differenceWithin (left right : Nat) : Except Fault Nat :=
  if right ≤ left then .ok (left - right) else .error (.overflow .subtraction)

theorem rangeSize_32 : rangeSize 32 = 4294967296 := rfl

theorem sumWithin_of_lt {bits left right : Nat} (fits : left + right < rangeSize bits) :
    sumWithin bits left right = .ok (left + right) := if_pos fits

theorem differenceWithin_of_le {left right : Nat} (fits : right ≤ left) :
    differenceWithin left right = .ok (left - right) := if_pos fits

theorem sumWithin_eq_ok_iff {bits left right sum : Nat} :
    sumWithin bits left right = .ok sum ↔ left + right < rangeSize bits ∧ left + right = sum := by
  unfold sumWithin
  split
  · simp_all
  · simp only [reduceCtorEq, false_iff]
    omega

end GuildRoster
