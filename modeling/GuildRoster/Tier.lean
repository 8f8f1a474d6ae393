/-!
# Tiers

A pair of thresholds divides numbers into three tiers. Pictures show the tier of a value as a fill,
the stat sheet as a standing; a standing is left out for players who are not highlighted.
-/

set_option autoImplicit false

namespace GuildRoster

structure Rgb where
  red : UInt8
  green : UInt8
  blue : UInt8
  deriving DecidableEq, Repr, Inhabited

/-- The bounds of the middle tier: `low` belongs to it, `high` to the tier above. -/
structure Thresholds where
  low : Int64
  high : Int64
  deriving DecidableEq, Repr

inductive Fill where
  | red
  | yellow
  | green
  deriving DecidableEq, Repr

def Fill.rgb : Fill → Rgb
  | .red => ⟨0xFB, 0x4A, 0x2D⟩
  | .yellow => ⟨0xFF, 0xE9, 0x43⟩
  | .green => ⟨0x70, 0xAD, 0x47⟩

def Fill.hex : Fill → String
  | .red => "#FB4A2D"
  | .yellow => "#FFE943"
  | .green => "#70AD47"

/-- The fill of a value: red below `low`, yellow from there up to `high`, green from `high` on. -/
def Thresholds.fill (thresholds : Thresholds) (value : Int64) : Fill :=
  if value < thresholds.low then .red
  else if value < thresholds.high then .yellow
  else .green

inductive Standing where
  | low
  | middle
  | high
  deriving DecidableEq, Repr

/-- The standing of a value, which only highlighted values have: low below `low`, middle from there
up to `high`, high from `high` on. -/
def Thresholds.standing (thresholds : Thresholds) (highlighted : Bool) (value : Int64) :
    Option Standing :=
  if highlighted then
    some (if value < thresholds.low then .low
      else if value < thresholds.high then .middle
      else .high)
  else none

end GuildRoster
