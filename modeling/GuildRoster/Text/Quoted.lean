import GuildRoster.Text.MarkTable

/-!
# Quoted text

A text between double quotes with everything that cannot be seen as such written as an escape: the
form in which messages cite a text.
-/

set_option autoImplicit false

namespace GuildRoster.Text

/-- Characters without a visible form of their own beside the marks: controls, blanks other than
the space, formatting instructions and code points for private use. -/
def unseenRanges : List CharacterRange := [
  (0x0, 0x1F), (0x7F, 0xA0), (0xAD, 0xAD), (0x600, 0x605), (0x61C, 0x61C), (0x6DD, 0x6DD),
  (0x70F, 0x70F), (0x890, 0x891), (0x8E2, 0x8E2), (0x1680, 0x1680), (0x180E, 0x180E),
  (0x2000, 0x200F), (0x2028, 0x202F), (0x205F, 0x206F), (0x3000, 0x3000), (0xE000, 0xF8FF),
  (0xFEFF, 0xFEFF), (0xFFF0, 0xFFFB), (0xFFFE, 0xFFFF), (0x110BD, 0x110BD), (0x110CD, 0x110CD),
  (0x13430, 0x1343F), (0x1BCA0, 0x1BCA3), (0x1D173, 0x1D17A), (0xE0000, 0xE00FF),
  (0xE01F0, 0x10FFFF)]

def quotedCharacter (character : Char) : List Char :=
  if character = '\x00' then ['\\', '0']
  else if character = '\t' then ['\\', 't']
  else if character = '\r' then ['\\', 'r']
  else if character = '\n' then ['\\', 'n']
  else if character = '"' then ['\\', '"']
  else if character = '\\' then ['\\', '\\']
  else if CharacterRange.anyHolds unseenRanges character
      || CharacterRange.anyHolds nonspacingMarkRanges character then
    ['\\', 'u', '\x7b'] ++ Nat.toDigits 16 character.toNat ++ ['\x7d']
  else [character]

def quoted (text : List Char) : List Char :=
  ['"'] ++ text.flatMap quotedCharacter ++ ['"']

end GuildRoster.Text
