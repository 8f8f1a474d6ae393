import GuildRoster.Datum.Mismatch

/-!
# Reading data

Readers for single data, and records described by their fields. A record may be written with named
members in any order or as a list of its fields in their own order; in both forms a field that is
left out keeps its default unless it is required. The first flaw or mismatch in document order is
the one reported.
-/

set_option autoImplicit false

namespace GuildRoster

namespace Datum

def refuse {α : Type} (datum : Datum) (expected : Expectation) : Except ReadError α :=
  match datum with
  | unreadable flaw => .error (.document flaw.reading)
  | readable => .error (.mismatch (.wrongType readable expected))

def readSigned64 : Datum → Except ReadError Int64
  | integer value =>
    if -9223372036854775808 ≤ value ∧ value ≤ 9223372036854775807 then .ok (Int64.ofInt value)
    else .error (.mismatch (.wrongValue (integer value) .signed64))
  | other => other.refuse .signed64

def readByte : Datum → Except ReadError UInt8
  | integer value =>
    if 0 ≤ value ∧ value ≤ 255 then .ok (UInt8.ofNat value.toNat)
    else .error (.mismatch (.wrongValue (integer value) .byte))
  | other => other.refuse .byte

def readText (expected : Expectation) : Datum → Except ReadError String
  | text value => .ok value
  | other => other.refuse expected

def readBoolean : Datum → Except ReadError Bool
  | boolean value => .ok value
  | other => other.refuse .boolean

def readOptional {α : Type} (read : Datum → Except ReadError α) :
    Datum → Except ReadError (Option α)
  | null => .ok none
  | other => some <$> read other

end Datum

/-- What a list of fields does about elements beyond its fields. -/
inductive Surplus where
  /-- They are text that does not belong to the document. -/
  | trailing
  /-- The whole list has the wrong length. -/
  | wrongLength
  /-- They are passed over. -/
  | ignored
  deriving DecidableEq, Repr

/-- Checks what follows the last element that a reader takes from a list of `length` elements. -/
def Surplus.check (surplus : Surplus) (length : Nat) (unread : List Datum)
    (ending : Option Flaw) : Except ReadError Unit :=
  match unread, ending with
  | [], none => .ok ()
  | [], some flaw =>
    if flaw.reading = .listSeparatorExpected then .error (.document .trailingText)
    else .error (.document flaw.reading)
  | _ :: _, _ =>
    match surplus with
    | .trailing => .error (.document .trailingText)
    | .wrongLength => .error (.mismatch (.wrongLength length .shortList))
    | .ignored => .ok ()

/-- One field of a record: its name, whether it may be left out, and how its datum enters the
record. -/
structure Field (α : Type) where
  name : String
  required : Bool
  read : Datum → α → Except ReadError α

/-- A field that may be left out, read with `read` and entered with `enter`. -/
def Field.optional {α β : Type} (name : String) (read : Datum → Except ReadError β)
    (enter : β → α → α) : Field α :=
  ⟨name, false, fun datum value => return enter (← read datum) value⟩

/-- A field that must be given, read with `read` and entered with `enter`. -/
def Field.mandatory {α β : Type} (name : String) (read : Datum → Except ReadError β)
    (enter : β → α → α) : Field α :=
  ⟨name, true, fun datum value => return enter (← read datum) value⟩

/-- A record with its name, its value before any field is read, and its fields in their order. -/
structure RecordFormat (α : Type) where
  name : String
  blank : α
  fields : List (Field α)

namespace RecordFormat

variable {α : Type}

/-- Enters named members into a record. Members that are no fields are passed over; a field may
occur once. The names of the fields read so far are kept in `seen`. -/
def readMembers (format : RecordFormat α) :
    List (Key × Datum) → α → List String → Except ReadError (α × List String)
  | [], value, seen => .ok (value, seen)
  | (.error flaw, _) :: _, _, _ => .error (.document flaw.reading)
  | (.ok name, datum) :: members, value, seen =>
    match format.fields.find? (·.name == name) with
    | none =>
      match datum.skipFault? with
      | some fault => .error (.document fault)
      | none => readMembers format members value seen
    | some field =>
      if seen.contains name then .error (.mismatch (.duplicateField name))
      else
        match field.read datum value with
        | .error error => .error error
        | .ok value => readMembers format members value (name :: seen)

def missing? (format : RecordFormat α) (seen : List String) : Option String :=
  (format.fields.find? fun field => field.required && !seen.contains field.name).map (·.name)

/-- Enters the elements of a list into the fields in their order, the first of which has the given
position in the record. The elements left over are returned with the record. -/
def readItems (format : RecordFormat α) (ending : Option Flaw) :
    List (Field α) → List Datum → Nat → α → Except ReadError (α × List Datum)
  | [], items, _, value => .ok (value, items)
  | field :: fields, [], position, value =>
    match ending with
    | some flaw => .error (.document flaw.reading)
    | none =>
      if field.required then
        .error (.mismatch (.wrongLength position
          (.structureOfLength format.name format.fields.length)))
      else readItems format ending fields [] (position + 1) value
  | field :: fields, item :: items, position, value =>
    match field.read item value with
    | .error error => .error error
    | .ok value => readItems format ending fields items (position + 1) value

def read (format : RecordFormat α) (surplus : Surplus) : Datum → Except ReadError α
  | .record members ending =>
    match readMembers format members format.blank [] with
    | .error error => .error error
    | .ok (value, seen) =>
      match ending with
      | some flaw => .error (.document flaw.reading)
      | none =>
        match format.missing? seen with
        | some name => .error (.mismatch (.missingField name))
        | none => .ok value
  | .list items ending =>
    match readItems format ending format.fields items 0 format.blank with
    | .error error => .error error
    | .ok (value, unread) =>
      match surplus.check items.length unread ending with
      | .error error => .error error
      | .ok () => .ok value
  | other => other.refuse (.structure format.name)

end RecordFormat

/-- Reads every item of a list, which must end where its document says. -/
def Datum.readItems {α : Type} (read : Datum → Except ReadError α) (ending : Option Flaw) :
    List Datum → Except ReadError (List α)
  | [] =>
    match ending with
    | some flaw => .error (.document flaw.reading)
    | none => .ok []
  | item :: items =>
    match read item with
    | .error error => .error error
    | .ok value =>
      match readItems read ending items with
      | .error error => .error error
      | .ok values => .ok (value :: values)

def Datum.readList {α : Type} (read : Datum → Except ReadError α) :
    Datum → Except ReadError (List α)
  | .list items ending => Datum.readItems read ending items
  | other => other.refuse .sequence

def Datum.readTriple {α : Type} (surplus : Surplus) (read : Datum → Except ReadError α) :
    Datum → Except ReadError (α × α × α)
  | .list items ending => do
    let tooShort (length : Nat) : ReadError :=
      match ending with
      | some flaw => .document flaw.reading
      | none => .mismatch (.wrongLength length (.listOfLength 3))
    match items with
    | [] => .error (tooShort 0)
    | [first] => do
      let _ ← read first
      .error (tooShort 1)
    | [first, second] => do
      let _ ← read first
      let _ ← read second
      .error (tooShort 2)
    | first :: second :: third :: unread => do
      let first ← read first
      let second ← read second
      let third ← read third
      surplus.check items.length unread ending
      return (first, second, third)
  | other => other.refuse (.listOfLength 3)

end GuildRoster
