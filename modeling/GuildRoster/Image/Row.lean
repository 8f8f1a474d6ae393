import GuildRoster.Config
import GuildRoster.Figures
import GuildRoster.Image.Grid
import GuildRoster.Player

/-!
# Rows of a picture

The cells of one player: texts, fills, and the changes since an earlier snapshot of the player. A
change is shown where a value differs; a change that does not fit 64 bits is a fault.
-/

set_option autoImplicit false

namespace GuildRoster

structure RowCell where
  column : Grid.Column
  text : String
  fill : Option Fill := none
  change : Option String := none
  deriving DecidableEq, Repr

namespace Row

def potionThresholds : Thresholds := ⟨5, 25⟩

def potionCells (belt : PotionBelt) : List RowCell :=
  let cell (slot : Fin 3) (potion : PotionSlot) : RowCell :=
    { column := .potion slot, text := "", fill := some (potionThresholds.fill potion.duration) }
  [cell 0 belt.first, cell 1 belt.second, cell 2 belt.third]

def guildCells (thresholds : TierThresholds) (figures : Membership) : List RowCell :=
  [{ column := .treasure, text := Figures.plain figures.treasure },
    { column := .instructor, text := Figures.plain figures.instructor },
    { column := .pet, text := Figures.plain figures.pet
      fill := some (thresholds.pet.fill figures.pet) },
    { column := .knights, text := Figures.plain figures.knights
      fill := some (thresholds.knights.fill figures.knights) }]

/-- The cells of a player in the order of their columns, without changes. Fills of mount and album
are left out for players who are not highlighted. -/
def plainCells (config : Config) (player : Player) : List RowCell :=
  let highlighted := player.isMember || config.highlightAll
  let fill (thresholds : Thresholds) (value : Int64) : Option Fill :=
    if highlighted then some (thresholds.fill value) else none
  let guild := match player.membership with
    | some figures => guildCells config.thresholds figures
    | none => []
  [{ column := .name, text := player.name },
    { column := .level, text := Figures.plain player.level },
    { column := .gear, text := Figures.plain player.gearScore },
    { column := .album, text := Binary64.fixed 1 (albumPercent player.book) ++ "%"
      fill := fill config.thresholds.book player.book },
    { column := .mount, text := Figures.plain player.mount
      fill := fill config.thresholds.mount player.mount },
    { column := .awards, text := Figures.plain player.achievements }]
    ++ potionCells player.potions ++ guild

/-- Puts a change into the first cell of a column; there may be none. -/
def annotate (column : Grid.Column) (change : String) : List RowCell → List RowCell
  | [] => []
  | cell :: rest =>
    if cell.column = column then { cell with change := some change } :: rest
    else cell :: annotate column change rest

/-- Shows in a column how far a figure has moved, if it has. -/
def showChange (column : Grid.Column) (text : Int64 → String) (before now : Int64)
    (cells : List RowCell) : Except Fault (List RowCell) :=
  if before = now then .ok cells
  else do return annotate column (text (← exactDifference now before)) cells

/-- Shows the changes of guild figures, which only two snapshots of a member have. -/
def showGuildChanges : Option Membership → Option Membership → List RowCell →
    Except Fault (List RowCell)
  | some before, some now, cells => do
    let cells ← showChange .pet Figures.change before.pet now.pet cells
    showChange .knights Figures.change before.knights now.knights cells
  | _, _, cells => .ok cells

def showChanges (before now : Player) (cells : List RowCell) : Except Fault (List RowCell) := do
  let cells ← showChange .level Figures.change before.level now.level cells
  let cells ← showChange .gear Figures.change before.gearScore now.gearScore cells
  let cells ← showChange .album Figures.albumChange before.book now.book cells
  showGuildChanges before.membership now.membership cells

/-- The cells of a player with the changes since an earlier snapshot if there is one. -/
def build (config : Config) (player : Player) :
    Option Player → Except Fault (List RowCell)
  | some before => showChanges before player (plainCells config player)
  | none => .ok (plainCells config player)

def cell? (cells : List RowCell) (column : Nat) : Option RowCell :=
  cells.find? fun cell => cell.column.index == column

end Row

end GuildRoster
