import GuildRoster.Image.Png
import GuildRoster.Program
import Std.Time.Format

/-!
# The program

The outer layer. A run of the program works on a tree of files; here that tree is gathered from the
machine, and what the run changed in it is written back. Nothing is decided here.
-/

set_option autoImplicit false

namespace GuildRoster.Main

/-! ## Files of the machine -/

/-- What the machine holds at a path. What cannot be read counts as missing. -/
def look (text : String) : IO (Option FileEntry) := do
  let place := (← IO.currentDir) / text
  try
    if ← place.isDir then return some .directory
    else if ← place.pathExists then
      return some (.file (.ofBytes (← IO.FS.readBinFile place).toList))
    else return none
  catch _ => return none

def addPath (tree : FileTree) (path : Path) : IO FileTree := do
  let mut tree := tree
  for path in (FileTree.ancestors path).reverse do
    if let .ok location := tree.locate path then
      if let some entry ← look path.text then
        tree := tree.put location entry
  return tree

def addRosters (tree : FileTree) (directory : Path) : IO FileTree := do
  let mut tree ← addPath tree directory
  if tree.holdsDirectory directory then
    for entry in ← ((← IO.currentDir) / directory.text).readDir do
      if (Store.key? entry.fileName.toList).isSome then
        tree ← addPath tree (directory.join (.ofString entry.fileName))
  return tree

def pathOf (location : Location) : Path := ⟨location.flatMap ('/' :: ·)⟩

def unchanged (before after : Option FileEntry) : Bool :=
  match before, after with
  | some .directory, some .directory => true
  | some (.file (.text old)), some (.file (.text new)) => old == new
  | some (.file (.bytes old)), some (.file (.bytes new)) => old == new
  | _, _ => false

def changes (before after : FileTree) : List (Location × FileEntry) :=
  after.entries.filter fun entry => !unchanged (before.get? entry.1) (some entry.2)

def save (location : Location) : FileEntry → IO Unit
  | .directory => IO.FS.createDir (pathOf location).text
  | .file (.text characters) => IO.FS.writeFile (pathOf location).text characters
  | .file (.bytes values) => IO.FS.writeBinFile (pathOf location).text ⟨values.toArray⟩
  | .file (.picture picture) => IO.FS.writeBinFile (pathOf location).text (Png.encode picture)

/-! ## Where things are -/

/-- A directory of the user's own: the one that a setting names if that is absolute, or else one
in the home directory. -/
def userDirectory (setting fallback : String) : IO (Option Path) := do
  match (← IO.getEnv setting).map Path.ofString with
  | some path => if path.isAbsolute then return some path
  | none => pure ()
  return (← IO.getEnv "HOME").map fun home => (Path.ofString home).join (.ofString fallback)

def environment : IO Environment := do
  return { configHome := ← userDirectory "XDG_CONFIG_HOME" ".config"
           dataHome := ← userDirectory "XDG_DATA_HOME" ".local/share" }

def commandPaths : Option Command → List Path
  | some (.exportImage _ _ _ output) => output.toList
  | some (.exportCsv _ _ output) => output.toList
  | some (.demo directory) => directory.toList
  | _ => []

def askedKind : Option Command → Option FileKind
  | some (.exportImage _ _ _ none) => some .png
  | some (.exportCsv _ _ none) => some .csv
  | _ => none

def gather (environment : Environment) (arguments : List String) : IO FileTree := do
  let here := Path.ofString (← IO.currentDir).toString
  let mut tree ← addPath {} here
  if let .ok location := tree.locate here then
    tree := { tree with workDirectory := location }
  if let some path := environment.configPath then
    tree ← addPath tree path
  if let .ok config := Config.load environment tree then
    if let .ok line := CommandLine.read arguments then
      tree ← addPath tree (.ofString (Program.logChoice line config).2)
      if let some directory := line.rosterDirectory <|> config.directory environment then
        tree ← addRosters tree directory
      for path in commandPaths line.command do
        tree ← addPath tree path
  return tree

/-! ## Runs -/

partial def readLine (input : IO.FS.Stream) (line : Array UInt8) : IO (List UInt8) := do
  match (← input.read 1).toList with
  | [] => return line.toList
  | byte :: _ =>
    let line := line.push byte
    if byte = 10 then return line.toList else readLine input line

def usage : String :=
  let commands := "|".intercalate (CommandLine.commandSpecs.map (·.name))
  "Usage: guildroster [OPTIONS] [" ++ commands ++ "]\n"

/-- Runs the program. A run is a function of what the user types, so it is first carried out
without that, to see what it asks and which files it is about to write. -/
def perform (arguments : List String) : IO UInt32 := do
  let environment ← environment
  let time := (Std.Time.DateTime.ofTimestamp (← Std.Time.Timestamp.now) .UTC).format
    "uuuu-MM-dd'T'HH:mm:ss.SSSSSS'Z'"
  let attempt (files : FileTree) (input : List UInt8) : Except Fault ExitStatus × World :=
    (Program.run environment time arguments).run.run { files, input }
  let mut tree ← gather environment arguments
  let asked := match CommandLine.read arguments with
    | .ok line => askedKind line.command
    | .error _ => none
  let mut input := []
  let mut told := 0
  if let some kind := asked then
    let (_, world) := attempt tree []
    IO.eprint world.messages
    (← IO.getStderr).flush
    told := world.messages.length
    input ← readLine (← IO.getStdin) #[]
    if let some path := Destination.answer kind ⟨[]⟩ input then
      tree ← addPath tree path
  for entry in changes tree (attempt tree input).2.files do
    tree ← addPath tree (pathOf entry.1)
  let (result, world) := attempt tree input
  for entry in changes tree world.files do
    save entry.1 entry.2
  IO.print world.output
  IO.eprint (world.messages.drop told)
  match result with
  | .ok status =>
    if status = .misuse then IO.eprint usage
    return UInt32.ofNat status.code
  | .error fault =>
    IO.eprintln ("The program stopped: " ++ fault.message.getD "a position lies out of bounds")
    return UInt32.ofNat faultCode

end GuildRoster.Main

def main (arguments : List String) : IO UInt32 := GuildRoster.Main.perform arguments
