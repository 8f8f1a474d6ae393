import GuildRoster.Color
import GuildRoster.Fault
import GuildRoster.Rect
import GuildRoster.Text.Width

/-!
# Screens

A screen is a rectangle of cells, each of which shows one cluster of characters in its colours. A
cluster of two columns hides the cell behind the one it is in.
-/

set_option autoImplicit false

namespace GuildRoster

/-- How something is shown. Colours that are left open stay as they are. -/
structure Style where
  foreground : Option Color := none
  background : Option Color := none
  bold : Bool := false
  blinking : Bool := false
  deriving DecidableEq, Repr

structure ScreenCell where
  symbol : List Char := [' ']
  foreground : Color := .reset
  background : Color := .reset
  bold : Bool := false
  blinking : Bool := false
  deriving DecidableEq, Repr, Inhabited

def ScreenCell.styled (cell : ScreenCell) (style : Style) : ScreenCell :=
  { cell with
    foreground := style.foreground.getD cell.foreground
    background := style.background.getD cell.background
    bold := cell.bold || style.bold
    blinking := cell.blinking || style.blinking }

structure Span where
  text : String
  style : Style := {}
  deriving DecidableEq, Repr

abbrev StyledLine := List Span

/-- A screen: a rectangle and its cells, row by row. -/
structure Screen extends Rect where
  cells : Array ScreenCell
  size_cells : cells.size = width * height

namespace Screen

def blank (width height : Nat) : Screen :=
  { x := 0, y := 0, width, height
    cells := Array.replicate (width * height) {}
    size_cells := Array.size_replicate }

/-- The place of a cell among the cells of the screen. -/
def index (screen : Screen) (x y : Nat) : Nat :=
  (y - screen.y) * screen.width + (x - screen.x)

theorem index_lt {screen : Screen} {x y : Nat} (inside : screen.holds x y = true) :
    screen.index x y < screen.cells.size := by
  rw [Rect.holds_iff] at inside
  rw [screen.size_cells]
  exact Rect.index_lt (by omega) (by omega)

theorem index_inj {screen : Screen} {x y otherX otherY : Nat} (inside : screen.holds x y = true)
    (otherInside : screen.holds otherX otherY = true) :
    screen.index x y = screen.index otherX otherY ↔ x = otherX ∧ y = otherY := by
  rw [Rect.holds_iff] at inside otherInside
  rw [index, index, Rect.index_inj (by omega) (by omega)]
  omega

def cell? (screen : Screen) (x y : Nat) : Option ScreenCell :=
  if inside : screen.holds x y = true then
    have within : screen.index x y < screen.cells.size := index_lt inside
    some screen.cells[screen.index x y]
  else none

/-- A screen with one cell changed. A place outside changes nothing. -/
def modifyCell (screen : Screen) (x y : Nat) (change : ScreenCell → ScreenCell) : Screen :=
  if screen.holds x y then
    { screen with
      cells := screen.cells.modify (screen.index x y) change
      size_cells := by rw [Array.size_modify]; exact screen.size_cells }
  else screen

@[simp] theorem toRect_modifyCell (screen : Screen) (x y : Nat)
    (change : ScreenCell → ScreenCell) :
    (screen.modifyCell x y change).toRect = screen.toRect := by
  unfold modifyCell; split <;> rfl

theorem cell?_blank (width height x y : Nat) :
    (blank width height).cell? x y
      = if x < width ∧ y < height then some {} else none := by
  have inside : (blank width height).holds x y = true ↔ x < width ∧ y < height := by
    simp [blank, Rect.holds_iff]
  simp only [cell?, inside]
  simp [blank]

theorem cell?_modifyCell (screen : Screen) (x y otherX otherY : Nat)
    (change : ScreenCell → ScreenCell) :
    (screen.modifyCell x y change).cell? otherX otherY
      = if x = otherX ∧ y = otherY then (screen.cell? otherX otherY).map change
        else screen.cell? otherX otherY := by
  unfold modifyCell
  split
  next inside =>
    by_cases otherInside : screen.holds otherX otherY = true
    · have place : ∀ cells size,
          index { screen with cells, size_cells := size } otherX otherY
            = screen.index otherX otherY := fun _ _ => rfl
      simp only [cell?, otherInside, dif_pos, place, Array.getElem_modify,
        index_inj inside otherInside, Option.map_some]
      split <;> rfl
    · simp [cell?, otherInside]
  next outside =>
    split
    next same => simp [cell?, ← same.1, ← same.2, outside]
    next => rfl

def places (rect : Rect) : List (Nat × Nat) :=
  (List.range rect.height).flatMap fun row =>
    (List.range rect.width).map fun column => (rect.x + column, rect.y + row)

/-- Shows all cells of a rectangle in a style, as far as the screen has them. -/
def setStyle (screen : Screen) (rect : Rect) (style : Style) : Screen :=
  (places (rect.intersection screen.toRect)).foldl
    (fun screen place => screen.modifyCell place.1 place.2 (·.styled style)) screen

def putSymbol (screen : Screen) (x y : Nat) (symbol : List Char) (style : Style) : Screen :=
  screen.modifyCell x y fun cell => { cell with symbol }.styled style

def extendSymbol (screen : Screen) (x y : Nat) (symbol : List Char) (style : Style) : Screen :=
  screen.modifyCell x y fun cell => { cell with symbol := cell.symbol ++ symbol }.styled style

def clearCells (screen : Screen) (x y : Nat) : Nat → Screen
  | 0 => screen
  | count + 1 => (clearCells screen x y count).modifyCell (x + count) y fun _ => {}

/-! ## Text at a place

Clusters with control characters or without a width are left out, and the first one that does not
fit ends the text.
-/

/-- Puts clusters into the cells of a row from a place on, as far as `left` columns hold them, and
returns the place behind them. A place that the screen does not have is a fault. -/
def putClusters (y : Nat) (style : Style) :
    List (List Char) → Nat → Nat → Screen → Except Fault (Screen × Nat)
  | [], x, _, screen => .ok (screen, x)
  | cluster :: clusters, x, left, screen =>
    let width := Text.displayWidth cluster
    if cluster.any Text.isControl || width == 0 then putClusters y style clusters x left screen
    else if left < width then .ok (screen, x)
    else if screen.holds x y then
      let drawn := (screen.putSymbol x y cluster style).clearCells (x + 1) y (width - 1)
      putClusters y style clusters (x + width) (left - width) drawn
    else .error .outOfBounds

/-- Puts a text into a row from a place on, at most `limit` columns of it, and returns the place
behind it. -/
def putText (screen : Screen) (x y : Nat) (text : String) (limit : Nat) (style : Style) :
    Except Fault (Screen × Nat) :=
  putClusters y style (Text.clusters text.toList) x
    (min (screen.x + screen.width - x) limit) screen

/-- Puts a line into a row from a place on, at most `limit` columns of it. -/
def putLine (y : Nat) : StyledLine → Nat → Nat → Screen → Except Fault Screen
  | [], _, _, screen => .ok screen
  | span :: line, x, limit, screen =>
    if limit = 0 then .ok screen
    else do
      let (drawn, next) ← screen.putText x y span.text limit span.style
      putLine y line next (limit - (next - x)) drawn

end Screen

end GuildRoster
