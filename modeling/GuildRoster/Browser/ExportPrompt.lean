import GuildRoster.Browser.Looks
import GuildRoster.Export.Destination
import GuildRoster.Screen.Widget

/-!
# The export prompt

Asks in the last line of the screen where an export goes. The answer starts out as the key of the
roster.
-/

set_option autoImplicit false

namespace GuildRoster

inductive KeyPress where
  | character (value : Char)
  | up
  | down
  | left
  | right
  | enter
  | escape
  | backspace
  | other
  deriving DecidableEq, Repr

/-- An open prompt: the kind of file, the roster to export, and what was typed so far. -/
structure ExportPrompt where
  kind : FileKind
  roster : String
  typed : String
  deriving DecidableEq, Repr

namespace ExportPrompt

def start (kind : FileKind) (roster : String) : ExportPrompt := ⟨kind, roster, roster⟩

/-- The destination that the typed text gives; blank text cancels. -/
def destination (prompt : ExportPrompt) : Destination :=
  match Text.trim prompt.typed.toList with
  | [] => .fixed none
  | characters => .fixed (some ⟨characters⟩)

/-- A prompt after a key: the destination if the key closes it, or else the prompt that goes on. -/
def press (prompt : ExportPrompt) : KeyPress → Destination ⊕ ExportPrompt
  | .enter => .inl prompt.destination
  | .escape => .inl (.fixed none)
  | .backspace => .inr { prompt with typed := String.ofList prompt.typed.toList.dropLast }
  | .character value => .inr { prompt with typed := prompt.typed.push value }
  | _ => .inr prompt

def draw (prompt : ExportPrompt) (theme : Theme) (area : Rect) (screen : Screen) : Screen :=
  Widget.drawLine screen area
    [{ text := s!"Save {prompt.roster} as ({prompt.kind.description}): ", style := theme.selected },
      { text := prompt.typed },
      { text := "_", style := .cursor }]

end ExportPrompt

end GuildRoster
