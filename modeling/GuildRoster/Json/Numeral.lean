import GuildRoster.Datum

/-!
# Numbers of JSON

A number as it is written, and the value it stands for. Whole numbers that fit 64 bits stay exact.
Everything else becomes a double: the digits are gathered into a significand of 64 bits, digits
beyond it only count towards the power of ten, and one multiplication or division by that power
gives the value.
-/

set_option autoImplicit false

namespace GuildRoster.Json

def digit? (character : Char) : Option Nat :=
  if '0' ≤ character ∧ character ≤ '9' then some (character.toNat - '0'.toNat) else none

def takeDigits : List Char → List Nat × List Char
  | [] => ([], [])
  | character :: rest =>
    match digit? character with
    | some digit => let (digits, left) := takeDigits rest; (digit :: digits, left)
    | none => ([], character :: rest)

structure Numeral where
  negative : Bool
  whole : List Nat
  fraction : Option (List Nat) := none
  power : Option (Bool × List Nat) := none

def unfinished (rest : List Char) : Flaw :=
  if rest.isEmpty then ⟨.endInValue, some .invalidNumber⟩ else .plain .invalidNumber

namespace Numeral

def takePower (numeral : Numeral) : List Char → Except Flaw (Numeral × List Char)
  | [] => .ok (numeral, [])
  | mark :: rest =>
    if mark = 'e' ∨ mark = 'E' then
      let (negative, rest) := match rest with
        | '-' :: rest => (true, rest)
        | '+' :: rest => (false, rest)
        | _ => (false, rest)
      match takeDigits rest with
      | ([], rest) => .error (unfinished rest)
      | (digits, rest) => .ok ({ numeral with power := some (negative, digits) }, rest)
    else .ok (numeral, mark :: rest)

def takeFraction (numeral : Numeral) : List Char → Except Flaw (Numeral × List Char)
  | '.' :: rest =>
    match takeDigits rest with
    | ([], rest) => .error (unfinished rest)
    | (digits, rest) => takePower { numeral with fraction := some digits } rest
  | rest => takePower numeral rest

/-- Takes a number from the start of a text. Only the number zero may start with a zero. -/
def take (text : List Char) : Except Flaw (Numeral × List Char) :=
  let (negative, text) := match text with
    | '-' :: rest => (true, rest)
    | _ => (false, text)
  match takeDigits text with
  | ([], rest) => .error (unfinished rest)
  | (0 :: _ :: _, _) => .error (.plain .invalidNumber)
  | (whole, rest) => takeFraction { negative, whole } rest

end Numeral

/-- The number that digits denote, continuing after a number already read. -/
def ofDigits (before : Nat) (digits : List Nat) : Nat :=
  digits.foldl (fun value digit => value * 10 + digit) before

/-- Appends digits to a significand as long as it fits 64 bits. The digits left over are returned
with it. -/
def gather (significand : Nat) : List Nat → Nat × List Nat
  | [] => (significand, [])
  | digit :: digits =>
    if significand * 10 + digit < 18446744073709551616 then
      gather (significand * 10 + digit) digits
    else (significand, digit :: digits)

def scale (power : Nat) : Float := Float.ofScientific 1 false power

/-- A double divided by a power of ten. Powers beyond the range of doubles are divided out in steps,
which `fuel` bounds. -/
def dividedByPower (fuel : Nat) (number : Float) (power : Nat) : Float :=
  match fuel with
  | 0 => number
  | fuel + 1 =>
    if power ≤ 308 then number / scale power
    else if number == 0 then number
    else dividedByPower fuel (number / scale 308) (power - 308)

def scaled? (significand : Nat) (power : Int) : Option Float :=
  let number := (UInt64.ofNat significand).toFloat
  match power with
  | .ofNat power =>
    if power ≤ 308 then
      let product := number * scale power
      if product.isInf then none else some product
    else if significand = 0 then some number
    else none
  | .negSucc power => some (dividedByPower 8 number (power + 1))

namespace Numeral

/-- The double of a number, if it is finite. A power of ten beyond 31 bits leaves nothing of a
number or takes it out of range. -/
def double? (numeral : Numeral) : Option Float :=
  let (whole, surplus) := gather 0 numeral.whole
  let (significand, appended) := match numeral.fraction with
    | none => (whole, 0)
    | some digits =>
      let (significand, dropped) := gather whole digits
      (significand, digits.length - dropped.length)
  let start : Int := (surplus.length : Int) - (appended : Int)
  let magnitude := match numeral.power with
    | none => scaled? significand start
    | some (negative, digits) =>
      let power := ofDigits 0 digits
      if power < 2147483648 then
        scaled? significand (if negative then start - power else start + power)
      else if significand = 0 ∨ negative then some 0
      else none
  magnitude.map fun value => if numeral.negative then -value else value

/-- What a number stands for: a whole number if it is written as one that fits 64 bits. Zero with a
minus sign has a sign that whole numbers cannot keep. -/
def datum (numeral : Numeral) : Datum :=
  let whole := ofDigits 0 numeral.whole
  let value : Int := if numeral.negative then -whole else whole
  if numeral.fraction.isNone ∧ numeral.power.isNone ∧ ¬ (numeral.negative ∧ whole = 0)
      ∧ -9223372036854775808 ≤ value ∧ value < 18446744073709551616 then
    .integer value
  else
    match numeral.double? with
    | some number => .decimal number
    | none => .unreadable ⟨.numberOutOfRange, none⟩

end Numeral

end GuildRoster.Json
