/-!
# Ranges of characters

A property of characters is given by the ranges of code points that have it, in ascending order.
-/

set_option autoImplicit false

namespace GuildRoster

/-- First and last code point of a stretch of characters with one property. -/
abbrev CharacterRange := Nat × Nat

def CharacterRange.anyHolds (ranges : List CharacterRange) (character : Char) : Bool :=
  ranges.any fun range => range.1 ≤ character.toNat && character.toNat ≤ range.2

end GuildRoster
