import GuildRoster.Browser.Looks
import GuildRoster.Screen.Widget

/-!
# The list of rosters

The keys of all rosters, one of which is selected unless there are none.
-/

set_option autoImplicit false

namespace GuildRoster

structure RosterList where
  keys : List String := []
  position : Nat := 0
  deriving DecidableEq, Repr

namespace RosterList

def selected? (list : RosterList) : Option String := list.keys[list.position]?

/-- The list with the key before selected; the first one stays selected. -/
def up (list : RosterList) : RosterList := { list with position := list.position - 1 }

/-- The list with the next key selected; the last one stays selected. -/
def down (list : RosterList) : RosterList :=
  if list.position + 1 < list.keys.length then { list with position := list.position + 1 }
  else list

def line (browsed compared : Option String) (key : String) : StyledLine :=
  [{ text := key }]
    ++ (if browsed = some key then [{ text := "  [browsing]", style := .muted }] else [])
    ++ (if compared = some key then [{ text := "  [compare]", style := .muted }] else [])

def draw (list : RosterList) (theme : Theme) (browsed compared : Option String) (area : Rect)
    (screen : Screen) : Screen :=
  Widget.drawList screen area
    { title := Widget.spansOf " Rosters "
      items := list.keys.map fun key => [line browsed compared key]
      selected := if list.keys.isEmpty then none else some list.position
      highlight := theme.selected }

end RosterList

end GuildRoster
