import GuildRoster.Color
import GuildRoster.Datum.Reading
import GuildRoster.FileTree
import GuildRoster.Toml.Reader

/-!
# Configuration

What the user can set, the defaults of everything that is not set, and how the settings are read
from the document that keeps them. A document that cannot be read leaves all defaults in place.
-/

set_option autoImplicit false

namespace GuildRoster

structure Theme where
  selection : Color := .rgb ⟨255, 233, 67⟩
  unfocusedSelection : Option Color := none
  low : Color := .rgb ⟨255, 165, 0⟩
  middle : Color := .yellow
  high : Color := .green
  deriving DecidableEq, Repr

/-- The colour of a selection that does not have the focus: half as bright as the other one unless
it is set. -/
def Theme.unfocused (theme : Theme) : Color :=
  theme.unfocusedSelection.getD theme.selection.dimmed

/-- The thresholds of all figures that have tiers. Those of `book` count items of the album. -/
structure TierThresholds where
  mount : Thresholds := ⟨3, 4⟩
  pet : Thresholds := ⟨100, 250⟩
  knights : Thresholds := ⟨10, 17⟩
  book : Thresholds := ⟨1200, 1800⟩
  deriving DecidableEq, Repr

def defaultLogLevel : String := "info"

def defaultLogFile : String := "/dev/null"

structure Config where
  logLevel : String := defaultLogLevel
  logFile : String := defaultLogFile
  rosterDirectory : Option Path := none
  highlightAll : Bool := false
  thresholds : TierThresholds := {}
  theme : Theme := {}
  deriving DecidableEq, Repr

/-- Where the user's own files are kept, as far as that is known. -/
structure Environment where
  configHome : Option Path := none
  dataHome : Option Path := none

namespace Environment

def programDirectory (home : Path) : Path := home.join (.ofString "sfroster")

def configPath (environment : Environment) : Option Path :=
  environment.configHome.map fun home => (programDirectory home).join (.ofString "config.toml")

def rosterDirectory (environment : Environment) : Option Path :=
  environment.dataHome.map fun home => (programDirectory home).join (.ofString "rosters")

end Environment

/-- The directory of the rosters: the one that is set, or else the user's own. -/
def Config.directory (config : Config) (environment : Environment) : Option Path :=
  config.rosterDirectory <|> environment.rosterDirectory

/-! ## Reading -/

def Color.read (datum : Datum) : Except ReadError Color := do
  let text ← datum.readText .string
  match Color.parse text with
  | .ok (some color) => return color
  | .ok none => .error (.mismatch (.unknownColor text))
  | .error fault => .error (.fault fault)

def Thresholds.format : RecordFormat Thresholds where
  name := "Thresholds"
  blank := ⟨0, 0⟩
  fields := [
    .mandatory "low" Datum.readSigned64 fun low value => { value with low },
    .mandatory "high" Datum.readSigned64 fun high value => { value with high }]

def TierThresholds.format (surplus : Surplus) : RecordFormat TierThresholds where
  name := "ThresholdConfig"
  blank := {}
  fields := [
    .optional "mount" (Thresholds.format.read surplus) fun mount value => { value with mount },
    .optional "pet" (Thresholds.format.read surplus) fun pet value => { value with pet },
    .optional "knights" (Thresholds.format.read surplus)
      fun knights value => { value with knights },
    .optional "book" (Thresholds.format.read surplus) fun book value => { value with book }]

def Theme.format : RecordFormat Theme where
  name := "ThemeConfig"
  blank := {}
  fields := [
    .optional "selection_fg" Color.read fun selection theme => { theme with selection },
    .optional "unfocused_selection_fg" (Datum.readOptional Color.read)
      fun unfocusedSelection theme => { theme with unfocusedSelection },
    .optional "low_fg" Color.read fun low theme => { theme with low },
    .optional "mid_fg" Color.read fun middle theme => { theme with middle },
    .optional "high_fg" Color.read fun high theme => { theme with high }]

def Config.format (surplus : Surplus) : RecordFormat Config where
  name := "Config"
  blank := {}
  fields := [
    .optional "log_level" (Datum.readText .string) fun logLevel config => { config with logLevel },
    .optional "log_file" (Datum.readText .string) fun logFile config => { config with logFile },
    .optional "data_dir" (Datum.readOptional (Datum.readText .path))
      fun directory config => { config with rosterDirectory := directory.map Path.ofString },
    .optional "highlight_all" Datum.readBoolean
      fun highlightAll config => { config with highlightAll },
    .optional "thresholds" ((TierThresholds.format surplus).read surplus)
      fun thresholds config => { config with thresholds },
    .optional "theme" (Theme.format.read surplus) fun theme config => { config with theme }]

def Config.read (surplus : Surplus) (datum : Datum) : Except ReadError Config :=
  (Config.format surplus).read surplus datum

inductive ConfigFault where
  | document
  | unreadable (cause : ReadError)

def Config.ofDocument (document : String) : Except ConfigFault Config :=
  match Toml.read? document with
  | none => .error .document
  | some datum =>
    match Config.read .ignored datum with
    | .error cause => .error (.unreadable cause)
    | .ok config => .ok config

/-- The configuration of the user. For whatever is missing or cannot be read the defaults stand in;
only a fault of the reading itself is passed on. -/
def Config.load (environment : Environment) (tree : FileTree) : Except Fault Config :=
  match environment.configPath with
  | none => .ok {}
  | some path =>
    match tree.read path with
    | .error _ => .ok {}
    | .ok document =>
      match Config.ofDocument document with
      | .ok config => .ok config
      | .error (.unreadable (.fault fault)) => .error fault
      | .error _ => .ok {}

end GuildRoster
