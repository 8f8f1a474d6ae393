import GuildRoster.Screen
import GuildRoster.Text.Lines

/-!
# Widgets

What screens are made of: single lines, frames with a title, and lists that scroll just far enough
to show the selected item. Widgets are drawn into a rectangle of the screen; what does not fit into
it is not drawn.
-/

set_option autoImplicit false

namespace GuildRoster.Widget

/-- The clusters of a text that are drawn: all but the ends of lines. -/
def drawnClusters (text : String) : List (List Char) :=
  (Text.clusters text.toList).filter (· ≠ ['\n'])

/-! ## Labels

A label is drawn cluster by cluster, control characters included. Clusters without a width join the
one before them, and a cluster of two columns empties the cell that it hides.
-/

/-- Draws clusters into a row from a place on, up to the end of the row. -/
def drawClusters (row : Rect) (style : Style) :
    List (List Char) → Nat → Bool → Screen → Screen
  | [], _, _, screen => screen
  | cluster :: clusters, x, first, screen =>
    let width := Text.displayWidth cluster
    if row.x + row.width < x + width then screen
    else
      let drawn :=
        if first then screen.putSymbol x row.y cluster style
        else if x = row.x then screen.extendSymbol x row.y cluster style
        else if width = 0 then screen.extendSymbol (x - 1) row.y cluster style
        else screen.putSymbol x row.y cluster style
      drawClusters row style clusters (x + width) false
        (drawn.clearCells (x + 1) row.y (width - 1))

/-- Draws spans into a row one behind the other. Spans without a width are left out. -/
def drawSpans : StyledLine → Rect → Screen → Screen
  | [], _, screen => screen
  | span :: line, row, screen =>
    let width := Text.displayWidth span.text.toList
    if width = 0 then drawSpans line row screen
    else if row.isEmpty then screen
    else
      drawSpans line (row.dropColumns width)
        (drawClusters row span.style (drawnClusters span.text) row.x true screen)

def drawLabel (screen : Screen) (area : Rect) (line : StyledLine) : Screen :=
  drawSpans line ((area.row 0).intersection screen.toRect) screen

/-! ## Single lines -/

/-- The clusters of a line that fit a width, with their styles. Clusters wider than the whole width
are left out, and the first other one that does not fit ends the line. -/
def fitting (width : Nat) : List (List Char × Style) → Nat → List (List Char × Style)
  | [], _ => []
  | (cluster, style) :: clusters, used =>
    let wide := Text.displayWidth cluster
    if width < wide then fitting width clusters used
    else if width < used + wide then []
    else (cluster, style) :: fitting width clusters (used + wide)

/-- Draws clusters one behind the other. Those without a width are left out. -/
def drawFitting (y : Nat) : List (List Char × Style) → Nat → Screen → Screen
  | [], _, screen => screen
  | (cluster, style) :: clusters, x, screen =>
    let width := Text.displayWidth cluster
    if width = 0 then drawFitting y clusters x screen
    else drawFitting y clusters (x + width) (screen.putSymbol x y cluster style)

def drawLine (screen : Screen) (area : Rect) (line : StyledLine) : Screen :=
  let area := area.intersection screen.toRect
  if area.isEmpty then screen
  else
    let clusters := line.flatMap fun span =>
      (drawnClusters span.text).map fun cluster => (cluster, span.style)
    drawFitting area.y (fitting area.width clusters 0) area.x screen

/-! ## Frames -/

def fillWith (screen : Screen) (area : Rect) (symbol : Char) : Screen :=
  (Screen.places area).foldl
    (fun screen place => screen.putSymbol place.1 place.2 [symbol] {}) screen

def drawRuleBelow (screen : Screen) (area : Rect) : Screen :=
  let area := area.intersection screen.toRect
  if area.isEmpty then screen else fillWith screen (area.row (area.height - 1)) '─'

def drawFrame (screen : Screen) (area : Rect) (title : StyledLine) : Screen :=
  let area := area.intersection screen.toRect
  if area.isEmpty then screen
  else
    let right := area.x + area.width - 1
    let bottom := area.y + area.height - 1
    let sides := fillWith screen { area with width := 1 } '│'
    let sides := fillWith sides (area.row 0) '─'
    let sides := fillWith sides { area with x := right, width := 1 } '│'
    let sides := fillWith sides (area.row (area.height - 1)) '─'
    let corners := sides.putSymbol right bottom ['┘'] {}
    let corners := corners.putSymbol right area.y ['┐'] {}
    let corners := corners.putSymbol area.x bottom ['└'] {}
    let corners := corners.putSymbol area.x area.y ['┌'] {}
    drawLabel corners { x := area.x + 1, y := area.y, width := area.width - 2, height := 1 } title

/-! ## Lists -/

def fittingCount (room : Nat) : List Nat → Nat
  | [] => 0
  | height :: heights => if height ≤ room then 1 + fittingCount (room - height) heights else 0

/-- The first item shown and the number of items shown in a room: the items from the start, or when
the selected one is not among them, as many items up to the selected one as fit. -/
def shownItems (room : Nat) (heights : List Nat) (selected : Nat) : Nat × Nat :=
  let count := fittingCount room heights
  if selected < count then (0, count)
  else
    let count := fittingCount room (heights.take (selected + 1)).reverse
    (selected + 1 - count, count)

def selectionMark : List Char := ['▶', ' ']

structure ItemList where
  title : StyledLine
  items : List (List StyledLine)
  selected : Option Nat
  highlight : Style

def drawLabels (area : Rect) : List StyledLine → Nat → Screen → Screen
  | [], _, screen => screen
  | line :: lines, index, screen =>
    if index < area.height then
      drawLabels area lines (index + 1) (drawLabel screen (area.row index) line)
    else screen

/-- Puts the selection mark, or the space that it would take, in front of the rows of an item. -/
def drawMarks (area : Rect) (isSelected : Bool) (screen : Screen) : Screen :=
  (List.range area.height).foldl (fun screen index =>
    let mark := if isSelected ∧ index = 0 then selectionMark else selectionMark.map fun _ => ' '
    ((mark.take area.width).zipIdx).foldl (fun screen place =>
      screen.putSymbol (area.x + place.2) (area.y + index) [place.1] {}) screen)
    screen

def drawItems (list : ItemList) (area : Rect) : List (List StyledLine × Nat) → Nat → Screen → Screen
  | [], _, screen => screen
  | (lines, index) :: items, y, screen =>
    let row : Rect := { area with y, height := lines.length }
    let isSelected := list.selected == some index
    let content := if list.selected.isSome then row.dropColumns selectionMark.length else row
    let drawn := drawLabels content lines 0 screen
    let marked := if list.selected.isSome then drawMarks row isSelected drawn else drawn
    let highlighted := if isSelected then marked.setStyle row list.highlight else marked
    drawItems list area items (y + lines.length) highlighted

def drawList (screen : Screen) (area : Rect) (list : ItemList) : Screen :=
  let framed := drawFrame screen area list.title
  let inner := (area.intersection screen.toRect).inner
  if inner.isEmpty then framed
  else
    let heights := list.items.map List.length
    let (first, count) := shownItems inner.height heights (list.selected.getD 0)
    drawItems list inner ((list.items.zipIdx.drop first).take count) inner.y framed

def linesOf (text : String) : List StyledLine :=
  match Text.lines text.toList with
  | [] => [[{ text := "" }]]
  | lines => lines.map fun line => [{ text := String.ofList line }]

/-- The spans of a text on one line: its lines one behind the other. -/
def spansOf (text : String) : StyledLine :=
  (Text.lines text.toList).map fun line => { text := String.ofList line }

end GuildRoster.Widget
