import GuildRoster.Image.Canvas
import GuildRoster.Image.Row

/-!
# Pictures of rosters

A roster is divided into blocks, and each block becomes one picture of a fixed size: headings, a
row for each player and borders. Only the members among the players of the first block are shown
when members alone are wanted.
-/

set_option autoImplicit false

namespace GuildRoster.Block

def capacity : Nat := 50

/-- A list cut into pieces of `size` items, which is at least one; the last piece may be shorter. -/
def chunks {α : Type} (size : Nat) : List α → List (List α)
  | [] => []
  | item :: items => (item :: items.take (size - 1)) :: chunks size (items.drop (size - 1))
termination_by items => items.length

def plan (roster : Roster) (onlyMembers : Bool) : List Roster :=
  if onlyMembers then [(roster.take capacity).filter (·.isMember)]
  else chunks capacity roster

structure Heading where
  text : String
  column : Grid.Column
  row : Nat
  span : Nat := 1
  rows : Nat := 1

def headings : List Heading := [
  { text := "Name", column := .name, row := 0, rows := 2 },
  { text := "General", column := .level, row := 0, span := 6 },
  { text := "Level", column := .level, row := 1 },
  { text := "Gear", column := .gear, row := 1 },
  { text := "Album", column := .album, row := 1 },
  { text := "Mount", column := .mount, row := 1 },
  { text := "Awards", column := .awards, row := 1 },
  { text := "Potions", column := .potion ⟨0, by decide⟩, row := 0, span := 3, rows := 2 },
  { text := "Guild", column := .treasure, row := 0, span := 4 },
  { text := "Treasure", column := .treasure, row := 1 },
  { text := "Instructor", column := .instructor, row := 1 },
  { text := "Pet", column := .pet, row := 1 },
  { text := "Knights", column := .knights, row := 1 }]

def drawHeading (picture : Picture) (heading : Heading) : Except Fault Picture := do
  let y := Grid.total (Grid.headingHeights.take heading.row)
  let height := Grid.total ((Grid.headingHeights.drop heading.row).take heading.rows)
  let rect ← Grid.cellRect heading.column.index heading.span y height
  Canvas.drawText picture rect heading.text.toList Canvas.black .center true

/-- Draws a cell between two rows: its fill, its text, and the change below it at the right edge. A
cell without a change has its text in the middle. -/
def drawCell (y height : Nat) (picture : Picture) (cell : RowCell) : Except Fault Picture := do
  let rect ← Grid.cellRect cell.column.index 1 y height
  let filled ← match cell.fill with
    | some fill => Canvas.fill picture rect fill.rgb
    | none => .ok picture
  match cell.change with
  | some change => do
    let (upper, lower) ← rect.split
    let drawn ← Canvas.drawText filled upper cell.text.toList Canvas.black (.left 2) false
    Canvas.drawText drawn lower change.toList Canvas.grey (.right 2) false
  | none => Canvas.drawText filled rect cell.text.toList Canvas.black .center false

/-- Draws the row of a block that belongs in a place. The earlier snapshot of a player is the first
one of the same name in the roster to compare with. -/
def drawSlot (config : Config) (compare : Option Roster) (block : Roster) (picture : Picture)
    (slot : Grid.RowSlot) : Except Fault Picture :=
  match slot.kind with
  | .heading _ => .ok picture
  | .rule => do
    Canvas.fill picture (← Grid.cellRect 0 Grid.columnWidths.length slot.y slot.height) Canvas.black
  | .separator => do
    Canvas.fill picture (← Grid.cellRect 0 Grid.columnWidths.length slot.y slot.height) Canvas.black
  | .data index =>
    match block[index]? with
    | none => .error .outOfBounds
    | some player => do
      let previous := compare.bind fun roster => roster.findByName? player.name
      let cells ← Row.build config player previous
      cells.foldlM (drawCell slot.y slot.height) picture

def drawBorder (y height : Nat) (picture : Picture) (column : Nat) : Except Fault Picture := do
  Canvas.fill picture (← Grid.cellRect column 1 y height) Canvas.black

def bottom (slots : List Grid.RowSlot) : Except Fault Nat :=
  match slots.getLast? with
  | none => .ok 0
  | some slot => sumWithin 32 slot.y slot.height

def render (config : Config) (compare : Option Roster) (block : Roster) :
    Except Fault Picture := do
  let canvas := Picture.blank Grid.pictureWidth Grid.pictureHeight Canvas.white
  let slots ← Grid.rowPlan block.length
  let bottom ← bottom slots
  let headed ← headings.foldlM drawHeading canvas
  let drawn ← slots.foldlM (drawSlot config compare block) headed
  let bordered ← Grid.fullBorders.foldlM (drawBorder 0 bottom) drawn
  let top := Grid.total Grid.headingHeights
  drawBorder top (bottom - top) bordered Grid.innerBorder

end GuildRoster.Block
