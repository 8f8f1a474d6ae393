import GuildRoster.Fault
import GuildRoster.Rect

/-!
# The grid of a picture

Columns and rows of a picture of players in pixels. Columns have fixed places; data rows come in
pairs with a line after each pair. Places are numbers of 32 bits, and a sum that leaves them is a
fault.
-/

set_option autoImplicit false

namespace GuildRoster

namespace Rect

def bottom (rect : Rect) : Except Fault Nat := sumWithin 32 rect.y rect.height

def right (rect : Rect) : Except Fault Nat := sumWithin 32 rect.x rect.width

/-- The upper and the lower half of a rectangle. The lower one has the odd row. -/
def split (rect : Rect) : Except Fault (Rect × Rect) := do
  let half := rect.height / 2
  let middle ← sumWithin 32 rect.y half
  return ({ rect with height := half }, { rect with y := middle, height := rect.height - half })

end Rect

namespace Grid

def pictureWidth : Nat := 840

def pictureHeight : Nat := 912

/-- The widths of the columns. Columns of one pixel are borders. -/
def columnWidths : List Nat := [176, 1, 64, 88, 72, 56, 1, 64, 1, 20, 20, 20, 1, 64, 64, 64, 64]

inductive Column where
  | name
  | level
  | gear
  | album
  | mount
  | awards
  | potion (slot : Fin 3)
  | treasure
  | instructor
  | pet
  | knights
  deriving DecidableEq, Repr

def Column.index : Column → Nat
  | .name => 0
  | .level => 2
  | .gear => 3
  | .album => 4
  | .mount => 5
  | .awards => 7
  | .potion slot => 9 + slot.val
  | .treasure => 13
  | .instructor => 14
  | .pet => 15
  | .knights => 16

def fullBorders : List Nat := [1, 8, 12]

def innerBorder : Nat := 6

def total : List Nat → Nat
  | [] => 0
  | size :: sizes => size + total sizes

/-- The left edge of a column. There is an edge behind the last column as well. -/
def columnX (column : Nat) : Except Fault Nat :=
  if column ≤ columnWidths.length then .ok (total (columnWidths.take column))
  else .error .outOfBounds

def spanWidth (column span : Nat) : Except Fault Nat := do
  if (← sumWithin 64 column span) ≤ columnWidths.length then
    return total ((columnWidths.drop column).take span)
  else .error .outOfBounds

def cellRect (column span y height : Nat) : Except Fault Rect := do
  let x ← columnX column
  let width ← spanWidth column span
  return { x, y, width, height }

def headingHeights : List Nat := [18, 17]

inductive RowKind where
  | heading (index : Nat)
  | rule
  | data (index : Nat)
  | separator
  deriving DecidableEq, Repr

def RowKind.height : RowKind → Nat
  | .heading index => (headingHeights[index]?).getD 0
  | .rule => 2
  | .data _ => 17
  | .separator => 1

structure RowSlot where
  kind : RowKind
  y : Nat
  deriving DecidableEq, Repr

def RowSlot.height (slot : RowSlot) : Nat := slot.kind.height

/-- The rows of the players from the given one on, with the lines after every second player. -/
def dataKinds (first : Nat) : Nat → List RowKind
  | 0 => []
  | count + 1 =>
    .data first :: (if first % 2 = 1 then .separator :: dataKinds (first + 1) count
      else dataKinds (first + 1) count)

def rowKinds (players : Nat) : List RowKind :=
  [.heading 0, .heading 1, .rule] ++ dataKinds 0 players

def place (y : Nat) : List RowKind → Except Fault (List RowSlot)
  | [] => .ok []
  | kind :: kinds => do
    let next ← sumWithin 32 y kind.height
    return ⟨kind, y⟩ :: (← place next kinds)

def rowPlan (players : Nat) : Except Fault (List RowSlot) := place 0 (rowKinds players)

end Grid

end GuildRoster
