import GuildRoster.Json.Numeral
import GuildRoster.Text.Digits
import GuildRoster.Text.Utf8

/-!
# Reading JSON

The data of a JSON document. Reading stops where the document stops making sense, and the tree
breaks off at the same place with the flaw found there. Nothing is decided here about which data a
reader wants.
-/

set_option autoImplicit false

namespace GuildRoster.Json

def isFiller (character : Char) : Bool :=
  character = ' ' || character = '\n' || character = '\t' || character = '\r'

def skipFiller (text : List Char) : List Char := text.dropWhile isFiller

/-! ## Texts -/

def hexUnit? (first second third fourth : Char) : Option Nat :=
  Text.numberOf? 16 0 [first, second, third, fourth]

/-- The fault of a text whose escape lacks its four digits. Digits are counted in bytes. -/
def missingDigits (rest : List Char) : DocumentFault :=
  if Text.byteLength rest < 4 then .endInText else .invalidEscape

def escaped? (character : Char) : Option Char :=
  [('"', '"'), ('\\', '\\'), ('/', '/'), ('b', '\x08'), ('f', '\x0c'), ('n', '\n'), ('r', '\r'),
    ('t', '\t')].lookup character

def isLeading (unit : Nat) : Bool := 0xD800 ≤ unit && unit < 0xDC00

def isTrailing (unit : Nat) : Bool := 0xDC00 ≤ unit && unit < 0xE000

/-- Reads a text up to its closing quote: its characters and the rest of the document. -/
def readText : List Char → Except DocumentFault (List Char × List Char)
  | [] => .error .endInText
  | '"' :: rest => .ok ([], rest)
  | '\\' :: 'u' :: rest =>
    match rest with
    | a :: b :: c :: d :: rest =>
      match hexUnit? a b c d with
      | none => .error .invalidEscape
      | some unit =>
        if isTrailing unit then .error .loneSurrogate
        else if isLeading unit then
          match rest with
          | '\\' :: 'u' :: e :: f :: g :: h :: rest =>
            match hexUnit? e f g h with
            | none => .error .invalidEscape
            | some second =>
              if isTrailing second then do
                let (characters, rest) ← readText rest
                let code := 0x10000 + (unit - 0xD800) * 0x400 + (second - 0xDC00)
                return (Char.ofNat code :: characters, rest)
              else .error .loneSurrogate
          | '\\' :: 'u' :: rest => .error (missingDigits rest)
          | '\\' :: _ :: _ => .error .unfinishedSurrogate
          | ['\\'] => .error .endInText
          | _ :: _ => .error .unfinishedSurrogate
          | [] => .error .endInText
        else do
          let (characters, rest) ← readText rest
          return (Char.ofNat unit :: characters, rest)
    | rest => .error (missingDigits rest)
  | '\\' :: character :: rest =>
    match escaped? character with
    | none => .error .invalidEscape
    | some meant => do
      let (characters, rest) ← readText rest
      return (meant :: characters, rest)
  | ['\\'] => .error .endInText
  | character :: rest =>
    if character.toNat < 0x20 then .error .controlCharacter
    else do
      let (characters, rest) ← readText rest
      return (character :: characters, rest)

/-- Passes over a text up to its closing quote. Escapes need not stand for characters. -/
def passText : List Char → Except DocumentFault (List Char)
  | [] => .error .endInText
  | '"' :: rest => .ok rest
  | '\\' :: 'u' :: rest =>
    match rest with
    | a :: b :: c :: d :: rest =>
      if (hexUnit? a b c d).isSome then passText rest else .error .invalidEscape
    | rest => .error (missingDigits rest)
  | '\\' :: character :: rest =>
    if (escaped? character).isSome then passText rest else .error .invalidEscape
  | ['\\'] => .error .endInText
  | character :: rest =>
    if character.toNat < 0x20 then .error .controlCharacter else passText rest

/-- A text, or the flaw in its place, and the rest of the document if it goes on. -/
def text (document : List Char) : Except Flaw String × Option (List Char) :=
  match readText document with
  | .ok (characters, rest) => (.ok (String.ofList characters), some rest)
  | .error reading =>
    match passText document with
    | .ok rest => (.error ⟨reading, none⟩, some rest)
    | .error skipping => (.error ⟨reading, some skipping⟩, none)

/-! ## Values -/

def keyword (datum : Datum) : List Char → List Char → Datum × Option (List Char)
  | [], rest => (datum, some rest)
  | _ :: _, [] => (.unreadable (.plain .endInValue), none)
  | expected :: word, character :: rest =>
    if character = expected then keyword datum word rest
    else (.unreadable (.plain .keywordExpected), none)

mutual

/-- Reads one value. The rest of the document is returned if it goes on after the value. -/
def value : Nat → List Char → Datum × Option (List Char)
  | 0, _ => (.unreadable (.plain .endInValue), none)
  | fuel + 1, document =>
    match skipFiller document with
    | [] => (.unreadable (.plain .endInValue), none)
    | 'n' :: rest => keyword .null ['u', 'l', 'l'] rest
    | 't' :: rest => keyword (.boolean true) ['r', 'u', 'e'] rest
    | 'f' :: rest => keyword (.boolean false) ['a', 'l', 's', 'e'] rest
    | '"' :: rest =>
      match text rest with
      | (.ok content, after) => (.text content, after)
      | (.error flaw, after) => (.unreadable flaw, after)
    | '[' :: rest =>
      match skipFiller rest with
      | [] => (.list [] (some (.plain .endInList)), none)
      | ']' :: after => (.list [] none, some after)
      | first =>
        let (found, ending, after) := items fuel first
        (.list found ending, after)
    | '\x7b' :: rest =>
      match skipFiller rest with
      | [] => (.record [] (some (.plain .endInRecord)), none)
      | '\x7d' :: after => (.record [] none, some after)
      | first =>
        let (found, ending, after) := members fuel first
        (.record found ending, after)
    | character :: rest =>
      if character = '-' ∨ (digit? character).isSome then
        match Numeral.take (character :: rest) with
        | .ok (numeral, after) => (numeral.datum, some after)
        | .error flaw => (.unreadable flaw, none)
      else (.unreadable (.plain .valueExpected), none)

/-- Reads the items of a list from its first item on: the items, the flaw that ends them early, and
the rest of the document if it goes on. -/
def items : Nat → List Char → List Datum × Option Flaw × Option (List Char)
  | 0, _ => ([], some (.plain .endInList), none)
  | fuel + 1, document =>
    match value fuel document with
    | (item, none) => ([item], none, none)
    | (item, some rest) =>
      match skipFiller rest with
      | [] => ([item], some (.plain .endInList), none)
      | ']' :: after => ([item], none, some after)
      | ',' :: rest =>
        match skipFiller rest with
        | ']' :: _ => ([item], some ⟨.trailingComma, some .valueExpected⟩, none)
        | next =>
          let (found, ending, after) := items fuel next
          (item :: found, ending, after)
      | _ => ([item], some (.plain .listSeparatorExpected), none)

/-- Reads the members of a record from its first member on: the members, the flaw that ends them
early, and the rest of the document if it goes on. -/
def members : Nat → List Char → List (Key × Datum) × Option Flaw × Option (List Char)
  | 0, _ => ([], some (.plain .endInRecord), none)
  | fuel + 1, '"' :: document =>
    match text document with
    | (key, none) => ([(key, .null)], none, none)
    | (key, some rest) =>
      match skipFiller rest with
      | [] => ([(key, .unreadable (.plain .endInRecord))], none, none)
      | ':' :: rest =>
        match value fuel rest with
        | (datum, none) => ([(key, datum)], none, none)
        | (datum, some rest) =>
          match skipFiller rest with
          | [] => ([(key, datum)], some (.plain .endInRecord), none)
          | '\x7d' :: after => ([(key, datum)], none, some after)
          | ',' :: rest =>
            match skipFiller rest with
            | [] => ([(key, datum)], some ⟨.endInValue, some .endInRecord⟩, none)
            | '\x7d' :: _ => ([(key, datum)], some ⟨.trailingComma, some .keyNotText⟩, none)
            | next =>
              let (found, ending, after) := members fuel next
              ((key, datum) :: found, ending, after)
          | _ => ([(key, datum)], some (.plain .recordSeparatorExpected), none)
      | _ => ([(key, .unreadable (.plain .colonExpected))], none, none)
  | _ + 1, _ => ([], some (.plain .keyNotText), none)

end

/-- The data of a document, and whether text follows them that does not belong to it. Every step
of reading but the one into a container takes at least one character, so twice the length of the
document bounds their number. -/
def read (document : String) : Datum × Bool :=
  let characters := document.toList
  match value (2 * characters.length + 2) characters with
  | (datum, some rest) => (datum, !(skipFiller rest).isEmpty)
  | (datum, none) => (datum, false)

end GuildRoster.Json
