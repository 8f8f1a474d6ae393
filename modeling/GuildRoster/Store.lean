import GuildRoster.Roster
import GuildRoster.Source

/-!
# Stores

A store keeps each roster in a file of its own in one directory; the name of the file is the key
with the extension `json`. As a source, a store logs what it cannot read and has an empty roster
for it.
-/

set_option autoImplicit false

namespace GuildRoster

inductive StoreFault where
  | read (path : Path) (cause : FileFault)
  | parse (path : Path) (cause : ReadError)
  | write (path : Path) (cause : FileFault)

namespace StoreFault

def message : StoreFault → String
  | read path _ => "failed to read roster file " ++ path.text
  | parse path _ => "malformed roster file " ++ path.text
  | write path _ => "failed to write roster file " ++ path.text

def cause : StoreFault → String
  | read _ cause => cause.message
  | parse _ cause => cause.message
  | write _ cause => cause.message

def fullMessage (fault : StoreFault) : String := fault.message ++ ": " ++ fault.cause

end StoreFault

/-- A directory of rosters. -/
structure Store where
  directory : Path
  deriving DecidableEq, Repr

namespace Store

def extension : List Char := ['j', 's', 'o', 'n']

def part : String := "sfroster::data_provider"

def path (store : Store) (key : String) : Path :=
  store.directory.join ⟨key.toList ++ ['.'] ++ extension⟩

def load (store : Store) (tree : FileTree) (key : String) : Except StoreFault Roster :=
  match tree.read (store.path key) with
  | .error cause => .error (.read (store.path key) cause)
  | .ok document =>
    match Roster.read document with
    | .error cause => .error (.parse (store.path key) cause)
    | .ok roster => .ok roster

/-- Saves the roster of a key, making the directory if it is missing. Directories made before a
fault stay. -/
def save (store : Store) (tree : FileTree) (key : String) (roster : Roster) :
    FileTree × Except StoreFault Path :=
  match tree.makeDirectories store.directory with
  | (made, .error cause) => (made, .error (.write (store.path key) cause))
  | (made, .ok ()) =>
    match made.write (store.path key) (.text roster.write) with
    | .error cause => (made, .error (.write (store.path key) cause))
    | .ok written => (written, .ok (store.path key))

/-- The roster of a key, empty when it cannot be loaded, with what to log about it. -/
def roster (store : Store) (key : String) (tree : FileTree) : Roster × List LogEntry :=
  match store.load tree key with
  | .ok roster =>
    (roster, [⟨.debug, part, s!"Loaded roster '{key}' with {roster.length} players"⟩])
  | .error fault => ([], [⟨.error, part, fault.fullMessage⟩])

def key? (name : List Char) : Option String :=
  let (stem, ending) := Path.splitName name
  if ending = some extension then some (String.ofList stem) else none

def keys (store : Store) (tree : FileTree) : List String × List LogEntry :=
  match tree.names store.directory with
  | .ok names => (Source.sortKeys (names.filterMap key?), [])
  | .error fault =>
    ([], [⟨.warning, part,
      s!"Cannot list roster directory {store.directory.text}: " ++ fault.message⟩])

def source (store : Store) : Source := ⟨store.keys, store.roster⟩

end Store

end GuildRoster
