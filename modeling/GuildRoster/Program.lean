import GuildRoster.CommandLine
import GuildRoster.Commands

/-!
# Runs of the program

What one run does: the configuration is loaded, the command line read, the log opened if one is
wanted, and the command carried out. The run ends with a status.
-/

set_option autoImplicit false

namespace GuildRoster

inductive ExitStatus where
  | success
  | failure
  | misuse
  deriving DecidableEq, Repr

def ExitStatus.code : ExitStatus → Nat
  | .success => 0
  | .failure => 1
  | .misuse => 2

def faultCode : Nat := 101

namespace Program

/-- The level and the file of the log: those of the command line where it asks for something else
than the defaults, and otherwise those of the configuration. -/
def logChoice (line : CommandLine) (config : Config) : String × String :=
  (if line.logLevel = defaultLogLevel then config.logLevel else line.logLevel,
    if line.logFile = defaultLogFile then config.logFile else line.logFile)

/-- Opens the log. A file that cannot be opened is complained about, and the run goes on without a
log. -/
def openLog (time level file : String) : Run Unit := do
  let world ← get
  match world.files.opened (.ofString file) with
  | .error fault => Run.tell s!"Failed to open log file {file}: {fault.message}\n"
  | .ok location =>
    set { world with
      files := world.files.touch location
      log := some { location, level := .ofName level, time } }

def configLines (environment : Environment) (tree : FileTree) (config : Config) : List String :=
  let (path, found) := match environment.configPath with
    | some path => (path.text, tree.holds path)
    | none => ("Unable to determine config path", false)
  let directory := match config.directory environment with
    | some directory => directory.text
    | none => "(unavailable)"
  let pair (name : String) (thresholds : Thresholds) : String :=
    name ++ ": low " ++ Figures.plain thresholds.low ++ " / high " ++ Figures.plain thresholds.high
  let automatic := if config.theme.unfocusedSelection.isNone then " (auto: 50% darker)" else ""
  ["Configuration File: " ++ path ++ " (Exists: " ++ (if found then "yes" else "no") ++ ")",
    "",
    "Current Configuration:",
    "=====================",
    "log_level: " ++ config.logLevel,
    "log_file: " ++ config.logFile,
    "data_dir: " ++ directory,
    "highlight_all: " ++ (if config.highlightAll then "true" else "false"),
    "",
    "[thresholds]",
    pair "mount" config.thresholds.mount,
    pair "pet" config.thresholds.pet,
    pair "knights" config.thresholds.knights,
    pair "book" config.thresholds.book,
    "",
    "[theme]",
    "selection_fg: " ++ config.theme.selection.name,
    "unfocused_selection_fg: " ++ config.theme.unfocused.name ++ automatic,
    "low_fg: " ++ config.theme.low.name,
    "mid_fg: " ++ config.theme.middle.name,
    "high_fg: " ++ config.theme.high.name]

def showConfig (environment : Environment) (config : Config) : Run Unit := do
  Run.print (Sheet.ofLines (configLines environment (← get).files config))

/-- Carries out a command on a source of rosters. Commands that need none do nothing here. -/
def withSource (config : Config) (source : Source) : Command → Run (Except CommandFault Unit)
  | .exportImage roster compared onlyMembers output =>
    Commands.exportImage source config roster compared onlyMembers output
  | .exportCsv roster onlyMembers output => Commands.exportCsv source roster onlyMembers output
  | .showPlayers roster player plain =>
    Commands.showPlayers source config roster player (if plain then .plain else .boxes)
  | .list => .ok <$> Commands.list source
  | .demo _ => return .ok ()
  | .config => return .ok ()

def carryOut (environment : Environment) (config : Config) (line : CommandLine) :
    Command → Run (Except CommandFault Unit)
  | .config => .ok <$> showConfig environment config
  | .demo directory =>
    match directory <|> line.rosterDirectory <|> config.directory environment with
    | some directory => Commands.demo directory
    | none => return .error .noSampleDirectory
  | command => do
    match ← Commands.openSource environment config line.rosterDirectory line.samples with
    | .error fault => return .error fault
    | .ok source => withSource config source command

def reportFailure (fault : CommandFault) : Run ExitStatus := do
  Run.tell ("Error: " ++ fault.message ++ "\n")
  Run.record ⟨.error, "sfroster", "Command failed: " ++ fault.message⟩
  return .failure

/-- A run without a command, which needs a terminal that this program is not given. -/
def interactive (environment : Environment) (config : Config) (line : CommandLine) :
    Run ExitStatus := do
  let source ← Commands.openSource environment config line.rosterDirectory line.samples
  let reason := match source with
    | .error fault => fault.message
    | .ok _ => "Terminal UI failed: there is no terminal"
  Run.tell ("Error running TUI: " ++ reason ++ "\n")
  return .failure

def run (environment : Environment) (time : String) (arguments : List String) : Run ExitStatus := do
  let config ← Run.ofExcept (Config.load environment (← get).files)
  match CommandLine.read arguments with
  | .error .help => return .success
  | .error .misuse => return .misuse
  | .ok line =>
    let (level, file) := logChoice line config
    if file ≠ defaultLogFile then openLog time level file
    match line.command with
    | none => interactive environment config line
    | some command =>
      match ← carryOut environment config line command with
      | .ok () => return .success
      | .error fault => reportFailure fault

end Program

end GuildRoster
