import GuildRoster.Browser.Details
import GuildRoster.Browser.ExportPrompt
import GuildRoster.Browser.RosterList
import GuildRoster.Browser.Tab
import GuildRoster.Export

/-!
# The browser

The interactive side of the program as a state that keys change and that can be drawn on a screen
of any size. While an export prompt is open, it takes all keys.
-/

set_option autoImplicit false

namespace GuildRoster

/-- The state of the browser. -/
structure Browser where
  tab : Tab := .rosters
  rosters : RosterList := {}
  details : Details := {}
  onlyMembers : Bool := false
  compared : Option String := none
  status : Option String := none
  prompt : Option ExportPrompt := none

namespace Browser

def start (source : Source) : Run Browser := do
  let keys ← source.askKeys
  Run.record ⟨.debug, "sfroster::tui::app", s!"Found {keys.length} rosters"⟩
  return { rosters := { keys } }

/-- The roster that exports are about: the selected one on the first tab, the browsed one on the
second. -/
def currentRoster? (browser : Browser) : Option String :=
  match browser.tab with
  | .rosters => browser.rosters.selected?
  | .browse => browser.details.key

/-! ## Keys -/

def startExport (browser : Browser) (kind : FileKind) : Browser :=
  match browser.currentRoster? with
  | some roster => { browser with prompt := some (.start kind roster) }
  | none => { browser with status := some "No roster selected" }

def finishExport (source : Source) (config : Config) (browser : Browser) (prompt : ExportPrompt)
    (destination : Destination) : Run Browser := do
  let outcome ← match prompt.kind with
    | .png =>
      Export.asImage source config destination prompt.roster browser.compared browser.onlyMembers
    | .csv => Export.asCsv source destination prompt.roster browser.onlyMembers
  return { browser with prompt := none, status := some outcome.summary }

def toggleMembers (browser : Browser) : Browser :=
  let status := if browser.onlyMembers then "Exporting all players"
    else "Exporting guild members only"
  { browser with onlyMembers := !browser.onlyMembers, status := some status }

/-- Starts comparing with the selected roster, or stops it if that is the one compared with. -/
def toggleCompared (browser : Browser) : Browser :=
  match browser.rosters.selected? with
  | none => browser
  | some roster =>
    if browser.compared = some roster then
      { browser with compared := none, status := some "Comparison cleared" }
    else
      { browser with compared := some roster, status := some s!"Comparing against '{roster}'" }

def pressOnRosters (source : Source) (config : Config) (browser : Browser) :
    KeyPress → Run Browser
  | .up => return { browser with rosters := browser.rosters.up }
  | .down => return { browser with rosters := browser.rosters.down }
  | .enter =>
    match browser.rosters.selected? with
    | none => return browser
    | some roster => do
      let details ← Details.browse source config roster
      return { browser with details, tab := .browse }
  | .character 'x' => return browser.toggleCompared
  | _ => return browser

def pressOnPlayers (config : Config) (browser : Browser) : KeyPress → Run Browser
  | .up => do return { browser with details := ← Run.ofExcept (browser.details.up config) }
  | .down => do return { browser with details := ← Run.ofExcept (browser.details.down config) }
  | _ => return browser

def pressFree (source : Source) (config : Config) (browser : Browser) (key : KeyPress) :
    Run Browser :=
  match key with
  | .left => return { browser with tab := browser.tab.previous }
  | .right => return { browser with tab := browser.tab.next }
  | .character '1' => return { browser with tab := .rosters }
  | .character '2' => return { browser with tab := .browse }
  | .character 'i' => return browser.startExport .png
  | .character 'c' => return browser.startExport .csv
  | .character 'm' => return browser.toggleMembers
  | .character 'd' => return { browser with details := {}, status := none }
  | _ =>
    match browser.tab with
    | .rosters => pressOnRosters source config browser key
    | .browse => pressOnPlayers config browser key

def press (source : Source) (config : Config) (browser : Browser) (key : KeyPress) :
    Run (Browser × Bool) :=
  match browser.prompt with
  | some prompt =>
    match prompt.press key with
    | .inl destination => do
      return (← finishExport source config browser prompt destination, false)
    | .inr prompt => return ({ browser with prompt := some prompt }, false)
  | none =>
    if key = .character 'q' then return (browser, true)
    else do return (← pressFree source config browser key, false)

/-! ## Drawing -/

def tabLine (theme : Theme) (tab : Tab) : StyledLine :=
  let labels := Tab.all.map fun other =>
    ({ text := s!"{other.number}. {other.label}"
       style := if other = tab then theme.selected else .closedTab } : Span)
  labels.intersperse { text := " │ " }

def helpLine : StyledLine :=
  let items := ["↑/↓ Navigate", "Enter Select", "i Image", "c CSV", "m Members", "x Compare",
    "q Quit"]
  (items.intersperse " │ ").map fun text => { text, style := .muted }

def messageLine : Option String → StyledLine
  | none => helpLine
  | some message =>
    if message.startsWith "Export failed" then [{ text := message, style := .failure }]
    else [{ text := message }]

def optionsLine (browser : Browser) : StyledLine :=
  let options := (if browser.onlyMembers then ["members only"] else [])
    ++ (match browser.compared with
      | some roster => ["compare: " ++ roster]
      | none => [])
  if options.isEmpty then []
  else [{ text := "   [" ++ ", ".intercalate options ++ "]", style := .muted }]

def drawTab (browser : Browser) (config : Config) (area : Rect) (screen : Screen) :
    Except Fault Screen :=
  match browser.tab with
  | .rosters =>
    .ok (browser.rosters.draw config.theme browser.details.key browser.compared area screen)
  | .browse => browser.details.draw config area screen

/-- Draws the browser on an empty screen: two rows for the tabs, one for the status, and the rest
for the open tab. On a low screen the tabs come first, then the status. -/
def draw (browser : Browser) (config : Config) (width height : Nat) : Except Fault Screen := do
  let top := min 2 height
  let last := min 1 (height - top)
  let tabArea : Rect := ⟨0, 0, width, top⟩
  let content : Rect := ⟨0, top, width, height - top - last⟩
  let statusArea : Rect := ⟨0, height - last, width, last⟩
  let ruled := Widget.drawRuleBelow (.blank width height) tabArea
  let tabbed := Widget.drawLine ruled { tabArea with height := top - 1 }
    (tabLine config.theme browser.tab)
  let drawn ← browser.drawTab config content tabbed
  match browser.prompt with
  | some prompt => return prompt.draw config.theme statusArea drawn
  | none =>
    return Widget.drawLine drawn statusArea (messageLine browser.status ++ optionsLine browser)

end Browser

end GuildRoster
