import GuildRoster.Config
import GuildRoster.Screen

/-!
# Looks

The styles of the browser, taken from the theme.
-/

set_option autoImplicit false

namespace GuildRoster

namespace Style

def muted : Style := { foreground := some .darkGray }

def heading : Style := { bold := true }

def closedTab : Style := { foreground := some .white }

def failure : Style := { foreground := some .red }

def cursor : Style := { blinking := true }

end Style

namespace Theme

/-- The style of what is selected: the open tab, a selected item, the question of a prompt. -/
def selected (theme : Theme) : Style := { foreground := some theme.selection, bold := true }

/-- The style of a value with a standing; other values are plain. -/
def standing (theme : Theme) : Option Standing → Style
  | some .low => { foreground := some theme.low }
  | some .middle => { foreground := some theme.middle }
  | some .high => { foreground := some theme.high }
  | none => {}

end Theme

end GuildRoster
