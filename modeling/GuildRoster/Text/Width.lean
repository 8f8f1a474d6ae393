import GuildRoster.Text.MarkTable
import GuildRoster.Text.WideTable

/-!
# Display width

How many terminal columns a text takes, and the clusters it is drawn in: a base character together
with the marks that follow it. Widths are summed character by character.
-/

set_option autoImplicit false

namespace GuildRoster.Text

def isControl (character : Char) : Bool :=
  character.toNat < 0x20 || (0x7F ≤ character.toNat && character.toNat < 0xA0)

/-- Characters that are never shown: formatting instructions and fillers. -/
def invisibleRanges : List CharacterRange := [
  (0xAD, 0xAD), (0x34F, 0x34F), (0x61C, 0x61C), (0x1160, 0x11FF), (0x17B4, 0x17B5),
  (0x180B, 0x180F), (0x200B, 0x200F), (0x202A, 0x202E), (0x2060, 0x206F), (0x3164, 0x3164),
  (0xD7B0, 0xD7FB), (0xFE00, 0xFE0F), (0xFEFF, 0xFEFF), (0xFFA0, 0xFFA0), (0xFFF0, 0xFFF8),
  (0x1BCA0, 0x1BCA3), (0x1D173, 0x1D17A), (0xE0000, 0xE0FFF)]

/-- Characters that no mark attaches to and that attach to nothing, beside the control characters:
formatting instructions and the separators of lines and paragraphs. -/
def solitaryRanges : List CharacterRange := [
  (0xAD, 0xAD), (0x61C, 0x61C), (0x180E, 0x180E), (0x200B, 0x200B), (0x200E, 0x200F),
  (0x2028, 0x202E), (0x2060, 0x206F), (0xFEFF, 0xFEFF), (0xFFF0, 0xFFFB), (0x13430, 0x1343F),
  (0x1BCA0, 0x1BCA3), (0x1D173, 0x1D17A), (0xE0000, 0xE001F), (0xE0080, 0xE00FF),
  (0xE01F0, 0xE0FFF)]

/-- The columns that one character takes: none for marks and invisible characters, two for wide
characters and one for everything else, control characters included. -/
def characterWidth (character : Char) : Nat :=
  if character.toNat < 0xAD then 1
  else if CharacterRange.anyHolds invisibleRanges character then 0
  else if CharacterRange.anyHolds nonspacingMarkRanges character then 0
  else if CharacterRange.anyHolds wideRanges character then 2
  else 1

/-- The columns that a text takes on the screen. A carriage return with its line feed takes one. -/
def displayWidth : List Char → Nat
  | [] => 0
  | '\r' :: '\n' :: rest => 1 + displayWidth rest
  | character :: rest => characterWidth character + displayWidth rest

/-- The columns that a text takes in a heading, where the end of a line takes none. -/
def headingWidth : List Char → Nat
  | [] => 0
  | '\r' :: '\n' :: rest => headingWidth rest
  | '\n' :: rest => headingWidth rest
  | character :: rest => characterWidth character + headingWidth rest

/-- Whether a character stands in a cluster of its own whatever surrounds it. -/
def isSolitary (character : Char) : Bool :=
  isControl character || CharacterRange.anyHolds solitaryRanges character

def isAttached (character : Char) : Bool :=
  0x300 ≤ character.toNat
    && (character.toNat == 0x200D || CharacterRange.anyHolds nonspacingMarkRanges character
      || CharacterRange.anyHolds spacingMarkRanges character)

/-- The clusters of a text, in order. A carriage return with its line feed is one cluster. -/
def clusters : List Char → List (List Char)
  | [] => []
  | character :: rest =>
    if character = '\r' ∧ rest.head? = some '\n' then
      ['\r', '\n'] :: clusters rest.tail
    else if isSolitary character then
      [character] :: clusters rest
    else
      (character :: rest.takeWhile isAttached) :: clusters (rest.dropWhile isAttached)
termination_by text => text.length
decreasing_by
  all_goals simp only [List.length_cons, List.length_tail]
  · omega
  · omega
  · have shorter := (List.dropWhile_sublist isAttached (l := rest)).length_le
    omega

end GuildRoster.Text
