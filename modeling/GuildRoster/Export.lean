import GuildRoster.Export.Csv
import GuildRoster.Export.Destination
import GuildRoster.Export.Outcome
import GuildRoster.Image.Block
import GuildRoster.Source

/-!
# Exports

A roster goes into one table of text or into one picture for each of its blocks. Pictures are drawn
before the first one is written; writing stops at the first picture that cannot be written.
-/

set_option autoImplicit false

namespace GuildRoster.Export

def csvPart : String := "sfroster::export::roster_csv"

def imagePart : String := "sfroster::export::roster_image"

/-- A way to keep tables in files: the tree with a text at a path, or a fault. -/
abbrev TableWriter := String → Path → FileTree → Except FileFault FileTree

def saveTable : TableWriter := fun text path tree => tree.write path (.text text)

/-- Exports a roster as a table. -/
def asCsvWith (save : TableWriter) (source : Source) (destination : Destination) (key : String)
    (onlyMembers : Bool) : Run ExportOutcome := do
  match ← destination.choose "Save as" key .csv with
  | none =>
    Run.record ⟨.debug, csvPart, s!"CSV export of '{key}' cancelled"⟩
    return .cancelled
  | some path =>
    let written := Csv.write (Csv.exported onlyMembers (← source.askRoster key))
    match save written.text path (← get).files with
    | .error cause => ExportOutcome.ofFault (.table path cause)
    | .ok files =>
      modify fun world => { world with files }
      Run.record ⟨.information, csvPart, s!"Wrote {written.rows} rows to {path.text}"⟩
      return .written [path]

def asCsv (source : Source) (destination : Destination) (key : String) (onlyMembers : Bool) :
    Run ExportOutcome :=
  asCsvWith saveTable source destination key onlyMembers

/-- The paths of some pictures: the chosen path for the first one, and its stem with a number for
each further one. -/
def blockPaths (chosen : Path) (count : Nat) : List Path :=
  let base := (chosen.withExtension []).characters
  (List.range count).map fun index =>
    let number := if index = 0 then [] else '_' :: Nat.toDigits 10 index
    ⟨base ++ number ++ '.' :: FileKind.png.extension⟩

def drawAll (config : Config) (compare : Option Roster) : List Roster → Run (List Picture)
  | [] => pure []
  | block :: blocks => do
    Run.record ⟨.debug, imagePart, s!"Rendering block of {block.length} players"⟩
    let picture ← Run.ofExcept (Block.render config compare block)
    return picture :: (← drawAll config compare blocks)

/-- A way to keep pictures in files: the tree with a picture at a path, or a fault. -/
abbrev PictureWriter := Picture → Path → FileTree → Except ExportFault FileTree

def savePicture : PictureWriter := fun picture path tree =>
  if path.extension? = some FileKind.png.extension then
    match tree.write path (.picture picture) with
    | .ok written => .ok written
    | .error cause => .error (.picture path cause)
  else .error (.unknownFormat path)

/-- Writes pictures to their paths, up to the first one that cannot be written. -/
def writeAll (save : PictureWriter) : List (Picture × Path) → Run (Option ExportFault)
  | [] => pure none
  | (picture, path) :: rest => do
    match save picture path (← get).files with
    | .error fault => return some fault
    | .ok files =>
      modify fun world => { world with files }
      Run.record ⟨.information, imagePart, "Wrote roster image " ++ path.text⟩
      writeAll save rest

def exportBlocks (save : PictureWriter) (config : Config) (key : String) (compare : Option Roster)
    (blocks : List Roster) (chosen : Path) : Run ExportOutcome := do
  let pictures ← drawAll config compare blocks
  if pictures.isEmpty then
    Run.record ⟨.warning, imagePart, s!"Roster '{key}' is empty, no image written"⟩
  let paths := blockPaths chosen pictures.length
  match ← writeAll save (pictures.zip paths) with
  | some fault => ExportOutcome.ofFault fault
  | none => return .written paths

def askCompared (source : Source) : Option String → Run (Option Roster)
  | some key => some <$> source.askRoster key
  | none => pure none

/-- Exports a roster as pictures, with the changes since the roster of another key if there is
one. -/
def asImageWith (save : PictureWriter) (source : Source) (config : Config)
    (destination : Destination) (key : String) (compareKey : Option String) (onlyMembers : Bool) :
    Run ExportOutcome := do
  let players ← source.askRoster key
  let compare ← askCompared source compareKey
  match ← destination.choose "Save as" key .png with
  | none =>
    Run.record ⟨.debug, imagePart, s!"Image export of '{key}' cancelled"⟩
    return .cancelled
  | some chosen => exportBlocks save config key compare (Block.plan players onlyMembers) chosen

def asImage (source : Source) (config : Config) (destination : Destination) (key : String)
    (compareKey : Option String) (onlyMembers : Bool) : Run ExportOutcome :=
  asImageWith savePicture source config destination key compareKey onlyMembers

end GuildRoster.Export
