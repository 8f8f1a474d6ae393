/-!
# Data trees

The common shape of what a document holds, whatever its notation: numbers, texts, lists and records.
A tree may break off where its document stops making sense; what was read up to there stays, so a
reader that walks the tree in order meets the same flaw first that the document shows first.
-/

set_option autoImplicit false

namespace GuildRoster

/-- Why a document stops making sense at some place. -/
inductive DocumentFault where
  | endInList
  | endInRecord
  | endInText
  | endInValue
  | colonExpected
  | listSeparatorExpected
  | recordSeparatorExpected
  | keywordExpected
  | valueExpected
  | invalidEscape
  | invalidNumber
  | numberOutOfRange
  | controlCharacter
  | keyNotText
  | loneSurrogate
  | unfinishedSurrogate
  | trailingComma
  | trailingText
  deriving DecidableEq, Repr

def DocumentFault.isEarlyEnd : DocumentFault → Bool
  | .endInList | .endInRecord | .endInText | .endInValue => true
  | _ => false

def DocumentFault.message : DocumentFault → String
  | .endInList => "EOF while parsing a list"
  | .endInRecord => "EOF while parsing an object"
  | .endInText => "EOF while parsing a string"
  | .endInValue => "EOF while parsing a value"
  | .colonExpected => "expected `:`"
  | .listSeparatorExpected => "expected `,` or `]`"
  | .recordSeparatorExpected => "expected `,` or `\x7d`"
  | .keywordExpected => "expected ident"
  | .valueExpected => "expected value"
  | .invalidEscape => "invalid escape"
  | .invalidNumber => "invalid number"
  | .numberOutOfRange => "number out of range"
  | .controlCharacter => "control character (\\u0000-\\u001F) found while parsing a string"
  | .keyNotText => "key must be a string"
  | .loneSurrogate => "lone leading surrogate in hex escape"
  | .unfinishedSurrogate => "unexpected end of hex escape"
  | .trailingComma => "trailing comma"
  | .trailingText => "trailing characters"

/-- A place of a document that cannot be read as data. What is reported depends on whether the
place is read or passed over, and some places that cannot be read can be passed over. -/
structure Flaw where
  reading : DocumentFault
  skipping : Option DocumentFault
  deriving DecidableEq, Repr

/-- A flaw that is reported alike whether its place is read or passed over. -/
def Flaw.plain (fault : DocumentFault) : Flaw := ⟨fault, some fault⟩

abbrev Key := Except Flaw String

/-- The data of a document. A list or record carries the flaw that ends it early, if any. -/
inductive Datum where
  | null
  | boolean (value : Bool)
  | integer (value : Int)
  | decimal (value : Float)
  | text (value : String)
  | list (items : List Datum) (ending : Option Flaw)
  | record (members : List (Key × Datum)) (ending : Option Flaw)
  | unreadable (flaw : Flaw)
  deriving Inhabited

def endingFault? (ending : Option Flaw) : Option DocumentFault :=
  match ending with
  | some flaw => flaw.skipping
  | none => none

mutual

def Datum.skipFault? : Datum → Option DocumentFault
  | .list items ending => (skipItemsFault? items).or (endingFault? ending)
  | .record members ending => (skipMembersFault? members).or (endingFault? ending)
  | .unreadable flaw => flaw.skipping
  | _ => none

def skipItemsFault? : List Datum → Option DocumentFault
  | [] => none
  | item :: items => (item.skipFault?).or (skipItemsFault? items)

def skipMembersFault? : List (Key × Datum) → Option DocumentFault
  | [] => none
  | (key, value) :: members =>
    ((match key with
      | .error flaw => flaw.skipping
      | .ok _ => none).or (value.skipFault?)).or (skipMembersFault? members)

end

end GuildRoster
