import GuildRoster.Export
import GuildRoster.Sample
import GuildRoster.Sheet.Printed
import GuildRoster.Store

/-!
# Commands

What the program does when it is not used interactively: listing rosters, printing stat sheets,
exporting, and writing sample rosters to a directory.
-/

set_option autoImplicit false

namespace GuildRoster

inductive CommandFault where
  | emptyRoster (key : String)
  | unknownPlayer (name key : String)
  | exportFailed (message : String)
  | sampleNotSaved (key : String) (cause : StoreFault)
  | noRosterDirectory
  | noSampleDirectory

def CommandFault.message : CommandFault → String
  | emptyRoster key => s!"Roster '{key}' is empty or does not exist"
  | unknownPlayer name key => s!"No player named '{name}' in roster '{key}'"
  | exportFailed message => message
  | sampleNotSaved key cause => s!"Failed to write demo roster '{key}': " ++ cause.fullMessage
  | noRosterDirectory => "Unable to determine the roster directory, pass --data-dir"
  | noSampleDirectory => "Unable to determine the data directory"

namespace Commands

/-- The source of a run: the samples if they are wanted, or else the store in the given directory
or in the one of the configuration. -/
def openSource (environment : Environment) (config : Config) (directory : Option Path)
    (samples : Bool) : Run (Except CommandFault Source) := do
  if samples then return .ok (Source.ofRosters Sample.rosters)
  else
    match directory <|> config.directory environment with
    | none => return .error .noRosterDirectory
    | some directory =>
      Run.record ⟨.debug, "sfroster::commands", "Reading rosters from " ++ directory.text⟩
      return .ok (Store.source ⟨directory⟩)

/-! ## Listing -/

def listLine (key players members : String) : String :=
  Text.padEnd 24 key ++ " " ++ Text.padStart 8 players ++ " " ++ Text.padStart 8 members ++ "\n"

def listLines (source : Source) : List String → Run String
  | [] => pure ""
  | key :: keys => do
    let roster ← source.askRoster key
    let members := roster.countP (·.isMember)
    let line := listLine key (toString roster.length) (toString members)
    return line ++ (← listLines source keys)

def rosterList (source : Source) : Run String := do
  let keys ← source.askKeys
  return listLine "Roster" "Players" "Members" ++ (← listLines source keys)

def list (source : Source) : Run Unit := do Run.print (← rosterList source)

/-! ## Stat sheets -/

/-- Prints the stat sheets of some players with an empty line between two of them. A sheet with a
fault stops the printing where it is due. -/
def printSheets (config : Config) (set : DrawingSet) (first : Bool) : Roster → Run Unit
  | [] => pure ()
  | player :: players => do
    if !first then Run.print "\n"
    let sheet ← Run.ofExcept (Sheet.build config player)
    Run.print (sheet.printed set)
    printSheets config set false players

def showPlayers (source : Source) (config : Config) (key : String) (name : Option String)
    (set : DrawingSet) : Run (Except CommandFault Unit) := do
  let roster ← source.askRoster key
  if roster.isEmpty then return .error (.emptyRoster key)
  else
    match name with
    | none => .ok <$> printSheets config set true roster
    | some name =>
      match roster.findByName? name with
      | none => return .error (.unknownPlayer name key)
      | some player => .ok <$> printSheets config set true [player]

/-! ## Exports -/

def report : ExportOutcome → Run (Except CommandFault Unit)
  | .failed message => return .error (.exportFailed message)
  | outcome => do
    Run.print (outcome.summary ++ "\n")
    return .ok ()

/-- The destination that a command line gives: a path, or the answer to a question. -/
def destination : Option Path → Destination
  | some path => .fixed (some path)
  | none => .asked

def exportImage (source : Source) (config : Config) (key : String) (compareKey : Option String)
    (onlyMembers : Bool) (output : Option Path) : Run (Except CommandFault Unit) := do
  report (← Export.asImage source config (destination output) key compareKey onlyMembers)

def exportCsv (source : Source) (key : String) (onlyMembers : Bool) (output : Option Path) :
    Run (Except CommandFault Unit) := do
  report (← Export.asCsv source (destination output) key onlyMembers)

/-! ## Samples -/

/-- Saves named rosters in a store, up to the first one that cannot be saved. -/
def saveAll (store : Store) : List (String × Roster) → Run (Except CommandFault (List Path))
  | [] => return .ok []
  | (key, roster) :: rest => do
    let (files, result) := store.save (← get).files key roster
    modify fun world => { world with files }
    match result with
    | .error cause => return .error (.sampleNotSaved key cause)
    | .ok path => do
      match ← saveAll store rest with
      | .error fault => return .error fault
      | .ok paths => return .ok (path :: paths)

def writeSamples (directory : Path) : Run (Except CommandFault (List Path)) :=
  saveAll ⟨directory⟩ Sample.rosters

def reportPaths : List Path → Run Unit
  | [] => pure ()
  | path :: paths => do
    Run.record ⟨.information, "sfroster::commands::demo", "Wrote demo roster " ++ path.text⟩
    Run.print ("Wrote " ++ path.text ++ "\n")
    reportPaths paths

def demo (directory : Path) : Run (Except CommandFault Unit) := do
  match ← writeSamples directory with
  | .error fault => return .error fault
  | .ok paths => .ok <$> reportPaths paths

end Commands

end GuildRoster
