import GuildRoster.Binary64
import GuildRoster.Text.Width

/-!
# Drawn text

Bars and headings made of characters, in one of two sets of drawing characters.
-/

set_option autoImplicit false

namespace GuildRoster

structure DrawingSet where
  rule : Char
  doubleRule : Char
  filled : Char
  unfilled : Char
  deriving DecidableEq, Repr

namespace DrawingSet

def boxes : DrawingSet := ⟨'─', '═', '█', '░'⟩

def plain : DrawingSet := ⟨'-', '=', '#', '.'⟩

def heading (set : DrawingSet) (double : Bool) (text : String) : String :=
  let rule := if double then set.doubleRule else set.rule
  text ++ "\n" ++ String.ofList (List.replicate (Text.headingWidth text.toList) rule) ++ "\n"

/-- The number of filled characters of a bar: the part of its width nearest to the fraction. A
fraction outside zero to one counts as the nearer end, and one that is no finite number as zero. -/
def filledLength (fraction : Float) (width : Nat) : Nat :=
  let part := if fraction < 0 then 0 else if 1 < fraction then 1 else fraction
  if fraction.isFinite then
    match Binary64.value? (part * (UInt64.ofNat width).toFloat) with
    | some exact => min width exact.roundHalfUp
    | none => 0
  else 0

def bar (set : DrawingSet) (fraction : Float) (width : Nat) : String :=
  let filled := filledLength fraction width
  String.ofList (List.replicate filled set.filled ++ List.replicate (width - filled) set.unfilled)

end DrawingSet

end GuildRoster
