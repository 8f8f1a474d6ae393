import GuildRoster.Browser.SheetView
import GuildRoster.Screen.Widget
import GuildRoster.Source

/-!
# The details of a roster

The roster being browsed: its players, the selected one of them, and the stat sheet of that player.
-/

set_option autoImplicit false

namespace GuildRoster

structure Details where
  key : Option String := none
  players : Roster := []
  position : Option Nat := none
  sheet : Option Sheet := none

namespace Details

def placeholder : StyledLine := [{ text := "Nothing here yet :(", style := .muted }]

def listWidth : Nat := 24

/-- Selects the player at a position; beyond the last player nothing changes. -/
def select (config : Config) (position : Nat) (details : Details) : Except Fault Details :=
  match details.players[position]? with
  | none => .ok details
  | some player => do
    let sheet ← Sheet.build config player
    return { details with position := some position, sheet := some sheet }

def browse (source : Source) (config : Config) (key : String) : Run Details := do
  let players ← source.askRoster key
  Run.record ⟨.debug, "sfroster::tui::details",
    s!"Browsing roster '{key}' ({players.length} players)"⟩
  Run.ofExcept (select config 0 { key := some key, players })

def up (config : Config) (details : Details) : Except Fault Details :=
  match details.position with
  | none => .ok details
  | some position => details.select config (position - 1)

def down (config : Config) (details : Details) : Except Fault Details :=
  match details.position with
  | none => .ok details
  | some position => details.select config (position + 1)

def player? (details : Details) : Option Player :=
  details.position.bind fun position => details.players[position]?

/-- Draws the list of players on the left and the stat sheet of the selected one on the right. -/
def draw (details : Details) (config : Config) (area : Rect) (screen : Screen) :
    Except Fault Screen :=
  match details.key with
  | none => .ok (Widget.drawLine screen area placeholder)
  | some key =>
    let width := min listWidth area.width
    let listed := Widget.drawList screen { area with width }
      { title := Widget.spansOf (" " ++ key ++ " ")
        items := details.players.map fun player => Widget.linesOf player.name
        selected := details.position
        highlight := config.theme.selected }
    let right := { area with x := area.x + width, width := area.width - width }
    let framed := Widget.drawFrame listed right []
    match details.sheet with
    | some sheet => SheetView.draw config.theme sheet right.inner framed
    | none => .ok (Widget.drawLine framed right.inner placeholder)

end Details

end GuildRoster
