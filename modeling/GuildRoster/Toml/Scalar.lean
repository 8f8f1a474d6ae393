import GuildRoster.Datum
import GuildRoster.Toml.Text

/-!
# Numbers and dates of TOML

Whole numbers of 64 bits in four number systems, decimal numbers, and points in time. Each reader
takes its datum from the start of a document and returns it with the rest. A point in time is data
of no other kind, so it reads as a record with one member that no reader asks for.
-/

set_option autoImplicit false

namespace GuildRoster.Toml

/-! ## Numbers -/

def moreDigits (base : Nat) : List Char → List Char × List Char
  | [] => ([], [])
  | '_' :: character :: rest =>
    if (Text.digit? base character).isSome then
      let (digits, left) := moreDigits base rest
      (character :: digits, left)
    else ([], '_' :: character :: rest)
  | character :: rest =>
    if (Text.digit? base character).isSome then
      let (digits, left) := moreDigits base rest
      (character :: digits, left)
    else ([], character :: rest)

def digits? (base : Nat) : List Char → Option (List Char × List Char)
  | [] => none
  | character :: rest =>
    if (Text.digit? base character).isSome then
      let (digits, left) := moreDigits base rest
      some (character :: digits, left)
    else none

def whole? (value : Int) : Option Datum :=
  if -9223372036854775808 ≤ value ∧ value ≤ 9223372036854775807 then some (.integer value) else none

/-- The double `significand * 10 ^ power`. Powers far beyond the range of doubles decide alone. -/
def scaled (significand : Nat) (power : Int) : Float :=
  let digits : Int := ((Nat.toDigits 10 significand).length : Nat)
  if significand = 0 ∨ digits + power < -400 then 0
  else if 400 < digits + power then Float.ofBits 0x7FF0000000000000
  else if power < 0 then Float.ofScientific significand true power.natAbs
  else Float.ofScientific significand false power.natAbs

def sign : List Char → Bool × List Char
  | '-' :: rest => (true, rest)
  | '+' :: rest => (false, rest)
  | rest => (false, rest)

def power? : List Char → Option (Option Int × List Char)
  | [] => some (none, [])
  | mark :: rest =>
    if mark = 'e' ∨ mark = 'E' then do
      let (negative, rest) := sign rest
      let (digits, rest) ← digits? 10 rest
      let value : Int := (← Text.numberOf? 10 0 digits : Nat)
      some (some (if negative then -value else value), rest)
    else some (none, mark :: rest)

/-- Reads a number in decimal digits. Only the number zero may start with a zero, and a decimal
number must not be too large. -/
def decimal? (document : List Char) : Option (Datum × List Char) := do
  let (negative, start) := sign document
  let (whole, rest) ← match start with
    | '0' :: rest => some (['0'], rest)
    | _ => digits? 10 start
  let (fraction, rest) ← match rest with
    | '.' :: rest => (digits? 10 rest).map fun found => (some found.1, found.2)
    | _ => some (none, rest)
  let (power, rest) ← power? rest
  match fraction, power with
  | none, none =>
    let value : Int := (← Text.numberOf? 10 0 whole : Nat)
    return (← whole? (if negative then -value else value), rest)
  | _, _ =>
    let places := fraction.getD []
    let significand ← Text.numberOf? 10 0 (whole ++ places)
    let magnitude := scaled significand (power.getD 0 - places.length)
    if magnitude.isInf ∧ ¬ negative then none
    else return (.decimal (if negative then -magnitude else magnitude), rest)

def inBase? (base : Nat) (document : List Char) : Option (Datum × List Char) := do
  let (digits, rest) ← digits? base document
  let value : Int := (← Text.numberOf? base 0 digits : Nat)
  return (← whole? value, rest)

def number? (document : List Char) : Option (Datum × List Char) :=
  match document with
  | '0' :: 'x' :: rest => inBase? 16 rest
  | '0' :: 'o' :: rest => inBase? 8 rest
  | '0' :: 'b' :: rest => inBase? 2 rest
  | _ =>
    let (negative, start) := sign document
    match start with
    | 'i' :: 'n' :: 'f' :: rest =>
      some (.decimal (Float.ofBits (if negative then 0xFFF0000000000000 else 0x7FF0000000000000)),
        rest)
    | 'n' :: 'a' :: 'n' :: rest => some (.decimal (Float.ofBits 0x7FF8000000000000), rest)
    | _ => decimal? document

/-! ## Points in time -/

/-- Takes a number of exactly `count` digits between two bounds. -/
def fixedNumber? (count least greatest : Nat) (document : List Char) :
    Option (Nat × List Char) := do
  let digits := document.take count
  if digits.length = count then
    let value ← Text.numberOf? 10 0 digits
    if least ≤ value ∧ value ≤ greatest then some (value, document.drop count) else none
  else none

def mark? (expected : Char) : List Char → Option (List Char)
  | [] => none
  | character :: rest => if character = expected then some rest else none

def daysOf (year month : Nat) : Nat :=
  if month = 2 then
    if year % 4 = 0 ∧ (year % 100 ≠ 0 ∨ year % 400 = 0) then 29 else 28
  else if month = 4 ∨ month = 6 ∨ month = 9 ∨ month = 11 then 30
  else 31

def passDate? (document : List Char) : Option (List Char) := do
  let (year, rest) ← fixedNumber? 4 0 9999 document
  let (month, rest) ← fixedNumber? 2 1 12 (← mark? '-' rest)
  let (_, rest) ← fixedNumber? 2 1 (daysOf year month) (← mark? '-' rest)
  return rest

def passTime? (document : List Char) : Option (List Char) := do
  let (_, rest) ← fixedNumber? 2 0 23 document
  let (_, rest) ← fixedNumber? 2 0 59 (← mark? ':' rest)
  let (_, rest) ← fixedNumber? 2 0 60 (← mark? ':' rest)
  match rest with
  | '.' :: rest =>
    let left := rest.dropWhile fun character => (Text.digit? 10 character).isSome
    if left.length < rest.length then return left else none
  | _ => return rest

def passOffset? (document : List Char) : Option (List Char) :=
  match document with
  | 'Z' :: rest => some rest
  | 'z' :: rest => some rest
  | mark :: rest =>
    if mark = '+' ∨ mark = '-' then do
      let (_, rest) ← fixedNumber? 2 0 23 rest
      let (_, rest) ← fixedNumber? 2 0 59 (← mark? ':' rest)
      return rest
    else some document
  | [] => some []

def passTimeOfDate? (document : List Char) : Option (List Char) :=
  match document with
  | mark :: rest =>
    if mark = 'T' ∨ mark = 't' then do passOffset? (← passTime? rest)
    else if mark = ' ' then
      match passTime? rest with
      | some left => passOffset? left
      | none => some document
    else some document
  | [] => some []

def pointInTime : Datum := .record [(.ok "", .null)] none

def numberOrTime? (document : List Char) : Option (Datum × List Char) :=
  match passDate? document with
  | some rest => (passTimeOfDate? rest).map fun left => (pointInTime, left)
  | none =>
    match passTime? document with
    | some rest => some (pointInTime, rest)
    | none => number? document

end GuildRoster.Toml
