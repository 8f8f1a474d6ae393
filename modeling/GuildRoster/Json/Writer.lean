import GuildRoster.Datum
import GuildRoster.Datum.Mismatch

/-!
# Writing JSON

The written form of data: one item or member a line, each level two blanks further in. Quotes,
backslashes and control characters of a text are escaped, everything else stands for itself.
-/

set_option autoImplicit false

namespace GuildRoster.Json

def escape (character : Char) : List Char :=
  if character = '"' then ['\\', '"']
  else if character = '\\' then ['\\', '\\']
  else if character = '\x08' then ['\\', 'b']
  else if character = '\x0c' then ['\\', 'f']
  else if character = '\n' then ['\\', 'n']
  else if character = '\r' then ['\\', 'r']
  else if character = '\t' then ['\\', 't']
  else if character.toNat < 0x20 then
    ['\\', 'u', '0', '0', Nat.digitChar (character.toNat / 16),
      Nat.digitChar (character.toNat % 16)]
  else [character]

def writeText (text : String) : List Char := ['"'] ++ text.toList.flatMap escape ++ ['"']

def newLine (depth : Nat) : List Char := '\n' :: List.replicate (2 * depth) ' '

def writeKey : Key → List Char
  | .ok name => writeText name
  | .error _ => []

mutual

def writeAt (depth : Nat) : Datum → List Char
  | .null => "null".toList
  | .boolean value => if value then "true".toList else "false".toList
  | .integer value => (toString value).toList
  | .decimal value => (Binary64.shortest Datum.fractionLayout value).toList
  | .text value => writeText value
  | .list [] _ => ['[', ']']
  | .list (item :: items) _ =>
    ['['] ++ newLine (depth + 1) ++ writeAt (depth + 1) item ++ writeItems (depth + 1) items
      ++ newLine depth ++ [']']
  | .record [] _ => ['\x7b', '\x7d']
  | .record ((key, datum) :: members) _ =>
    ['\x7b'] ++ newLine (depth + 1) ++ writeKey key ++ [':', ' '] ++ writeAt (depth + 1) datum
      ++ writeMembers (depth + 1) members ++ newLine depth ++ ['\x7d']
  | .unreadable _ => []

def writeItems (depth : Nat) : List Datum → List Char
  | [] => []
  | item :: items => [','] ++ newLine depth ++ writeAt depth item ++ writeItems depth items

def writeMembers (depth : Nat) : List (Key × Datum) → List Char
  | [] => []
  | (key, datum) :: members =>
    [','] ++ newLine depth ++ writeKey key ++ [':', ' '] ++ writeAt depth datum
      ++ writeMembers depth members

end

def write (datum : Datum) : String := String.ofList (writeAt 0 datum)

end GuildRoster.Json
