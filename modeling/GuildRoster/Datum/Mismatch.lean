import GuildRoster.Binary64.Shortest
import GuildRoster.Datum
import GuildRoster.Fault
import GuildRoster.Text.Quoted

/-!
# Mismatches

A document may make sense and still not hold what a reader expects. Each way of missing the
expectation is one constructor, and its wording stands in one function.
-/

set_option autoImplicit false

namespace GuildRoster

inductive Expectation where
  | signed64
  | byte
  | boolean
  | string
  | path
  | sequence
  | listOfLength (length : Nat)
  | shortList
  | structure (name : String)
  | structureOfLength (name : String) (length : Nat)
  deriving DecidableEq, Repr

def Expectation.message : Expectation → String
  | .signed64 => "i64"
  | .byte => "u8"
  | .boolean => "a boolean"
  | .string => "a string"
  | .path => "path string"
  | .sequence => "a sequence"
  | .listOfLength length => s!"an array of length {length}"
  | .shortList => "fewer elements in array"
  | .structure name => s!"struct {name}"
  | .structureOfLength name length => s!"struct {name} with {length} elements"

inductive Mismatch where
  | wrongType (found : Datum) (expected : Expectation)
  | wrongValue (found : Datum) (expected : Expectation)
  | wrongLength (length : Nat) (expected : Expectation)
  | missingField (name : String)
  | duplicateField (name : String)
  | unknownRole (index : UInt8)
  | unknownColor (text : String)

/-- Fractions in messages have a digit on both sides of the point from `1e-5` up to `1e15`. -/
def Datum.fractionLayout : ScientificLayout := ⟨-5, 15, 2⟩

def Datum.message : Datum → String
  | .null => "null"
  | .boolean value => if value then "boolean `true`" else "boolean `false`"
  | .integer value => "integer `" ++ toString value ++ "`"
  | .decimal value => "floating point `" ++ Binary64.shortest Datum.fractionLayout value ++ "`"
  | .text value => "string " ++ String.ofList (Text.quoted value.toList)
  | .list _ _ => "sequence"
  | .record _ _ => "map"
  | .unreadable flaw => flaw.reading.message

def Mismatch.message : Mismatch → String
  | .wrongType found expected => s!"invalid type: {found.message}, expected {expected.message}"
  | .wrongValue found expected => s!"invalid value: {found.message}, expected {expected.message}"
  | .wrongLength length expected => s!"invalid length {length}, expected {expected.message}"
  | .missingField name => s!"missing field `{name}`"
  | .duplicateField name => s!"duplicate field `{name}`"
  | .unknownRole index => s!"invalid guild role index: {index}"
  | .unknownColor text => s!"Invalid color: {text}"

inductive ReadError where
  | document (flaw : DocumentFault)
  | mismatch (difference : Mismatch)
  | fault (reason : Fault)

def ReadError.message : ReadError → String
  | .document flaw => flaw.message
  | .mismatch difference => difference.message
  | .fault reason => reason.message.getD ""

end GuildRoster
