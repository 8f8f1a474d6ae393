import GuildRoster.Image.Picture
import GuildRoster.Path
import GuildRoster.Text.Utf8

/-!
# File trees

Directories and files by their location below one root, and the operations that the program needs:
reading and writing whole files, making directories and listing them. Each operation either happens
or fails with a fault and changes nothing.
-/

set_option autoImplicit false

namespace GuildRoster

inductive FileFault where
  | notFound
  | exists
  | notDirectory
  | isDirectory
  | nameTooLong
  | nullCharacter
  | notText
  deriving DecidableEq, Repr

def FileFault.message : FileFault → String
  | .notFound => "No such file or directory (os error 2)"
  | .exists => "File exists (os error 17)"
  | .notDirectory => "Not a directory (os error 20)"
  | .isDirectory => "Is a directory (os error 21)"
  | .nameTooLong => "File name too long (os error 36)"
  | .nullCharacter => "file name contained an unexpected NUL byte"
  | .notText => "stream did not contain valid UTF-8"

inductive Content where
  | text (characters : String)
  | bytes (values : List UInt8)
  | picture (picture : Picture)

def Content.ofBytes (bytes : List UInt8) : Content :=
  match Text.decode? bytes with
  | some characters => .text characters
  | none => .bytes bytes

/-- The names that lead from the root to a file or directory. -/
abbrev Location := List (List Char)

inductive FileEntry where
  | directory
  | file (content : Content)

/-- The files and directories below a root, and the directory where relative paths start. -/
structure FileTree where
  entries : List (Location × FileEntry) := []
  workDirectory : Location := []

namespace FileTree

def get? (tree : FileTree) (location : Location) : Option FileEntry :=
  if location = [] then some .directory else tree.entries.lookup location

def putEntry (location : Location) (entry : FileEntry) :
    List (Location × FileEntry) → List (Location × FileEntry)
  | [] => [(location, entry)]
  | other :: entries =>
    if other.1 = location then (location, entry) :: entries
    else other :: putEntry location entry entries

def put (tree : FileTree) (location : Location) (entry : FileEntry) : FileTree :=
  { tree with entries := putEntry location entry tree.entries }

theorem lookup_entry (first : Location × FileEntry) (entries : List (Location × FileEntry))
    (location : Location) :
    (first :: entries).lookup location
      = if location = first.1 then some first.2 else entries.lookup location := by
  obtain ⟨place, entry⟩ := first
  rw [List.lookup_cons]
  by_cases same : location = place
  · simp [same]
  · simp [same, beq_false_of_ne same]

theorem lookup_putEntry (location other : Location) (entry : FileEntry)
    (entries : List (Location × FileEntry)) :
    (putEntry location entry entries).lookup other
      = if other = location then some entry else entries.lookup other := by
  induction entries with
  | nil => rw [putEntry, lookup_entry]
  | cons first entries ih =>
    rw [putEntry]
    split
    next found =>
      rw [lookup_entry, lookup_entry, found]
      split <;> rfl
    next elsewhere =>
      rw [lookup_entry, lookup_entry, ih]
      by_cases same : other = location
      · subst same
        simp [Ne.symm elsewhere]
      · simp [same]

theorem get?_put (tree : FileTree) (location other : Location) (entry : FileEntry) :
    (tree.put location entry).get? other
      = if other = [] then some .directory
        else if other = location then some entry
        else tree.get? other := by
  unfold get? put
  split
  · rfl
  · simp [lookup_putEntry]

/-! ## Following paths -/

/-- Follows one piece of a path from a place, which must be a directory. The place that a name
leads to need not exist. -/
def enter (tree : FileTree) (place : Location) (piece : List Char) : Except FileFault Location :=
  match tree.get? place with
  | none => .error .notFound
  | some (.file _) => .error .notDirectory
  | some .directory =>
    if piece = [] ∨ piece = ['.'] then .ok place
    else if piece = ['.', '.'] then .ok place.dropLast
    else if 255 < Text.byteLength piece then .error .nameTooLong
    else .ok (place ++ [piece])

def follow (tree : FileTree) (place : Location) : List (List Char) → Except FileFault Location
  | [] => .ok place
  | piece :: pieces => do follow tree (← tree.enter place piece) pieces

def start (tree : FileTree) (path : Path) : Location :=
  if path.isAbsolute then [] else tree.workDirectory

def check (path : Path) : Except FileFault Unit :=
  if path.characters.contains '\x00' then .error .nullCharacter
  else if path.characters.isEmpty then .error .notFound
  else if 4096 ≤ Text.byteLength path.characters then .error .nameTooLong
  else .ok ()

/-- The location that a path leads to, whether or not there is anything. -/
def locate (tree : FileTree) (path : Path) : Except FileFault Location := do
  check path
  tree.follow (tree.start path) path.pieces

def find (tree : FileTree) (path : Path) : Except FileFault FileEntry := do
  match tree.get? (← tree.locate path) with
  | some entry => return entry
  | none => .error .notFound

def holds (tree : FileTree) (path : Path) : Bool :=
  match tree.find path with
  | .ok _ => true
  | .error _ => false

def holdsDirectory (tree : FileTree) (path : Path) : Bool :=
  match tree.find path with
  | .ok .directory => true
  | _ => false

def withoutSlashes (path : Path) : Path :=
  ⟨(path.characters.reverse.dropWhile (· = '/')).reverse⟩

/-- The location that an operation on the last name of a path is about: the location, if the path
ends in a name, whose directory must exist, and none if it ends in dots or is the root. -/
def target (tree : FileTree) (path : Path) : Except FileFault (Option Location) := do
  check path
  let pieces := (withoutSlashes path).pieces
  let directory ← tree.follow (tree.start path) pieces.dropLast
  let last := (pieces.getLast?).getD []
  let place ← tree.enter directory last
  return if last = [] ∨ last = ['.'] ∨ last = ['.', '.'] then none else some place

/-! ## Files -/

def read (tree : FileTree) (path : Path) : Except FileFault String := do
  match ← tree.find path with
  | .directory => .error .isDirectory
  | .file (.text characters) => return characters
  | .file _ => .error .notText

def opened (tree : FileTree) (path : Path) : Except FileFault Location := do
  match ← tree.target path with
  | none => .error .isDirectory
  | some location =>
    if path.characters.getLast? = some '/' then .error .isDirectory
    else
      match tree.get? location with
      | some .directory => .error .isDirectory
      | _ => return location

def write (tree : FileTree) (path : Path) (content : Content) : Except FileFault FileTree := do
  return tree.put (← tree.opened path) (.file content)

def touch (tree : FileTree) (location : Location) : FileTree :=
  match tree.get? location with
  | some _ => tree
  | none => tree.put location (.file (.text ""))

/-- Appends a text to the file at a location. Pictures and directories have no end to append to. -/
def append (tree : FileTree) (location : Location) (text : String) : FileTree :=
  match tree.get? location with
  | some (.file (.text characters)) => tree.put location (.file (.text (characters ++ text)))
  | some (.file (.bytes values)) =>
    tree.put location (.file (.bytes (values ++ Text.encode text)))
  | some (.file (.picture _)) => tree
  | some .directory => tree
  | none => tree.put location (.file (.text text))

/-! ## Directories -/

def makeDirectory (tree : FileTree) (path : Path) : Except FileFault FileTree := do
  match ← tree.target path with
  | none => .error .exists
  | some location =>
    match tree.get? location with
    | some _ => .error .exists
    | none => return tree.put location .directory

def pathOf : List PathComponent → Path
  | [] => ⟨[]⟩
  | components =>
    let spelled := components.map fun
      | .root => []
      | .here => ['.']
      | .above => ['.', '.']
      | .name characters => characters
    ⟨(spelled.intersperse ['/']).flatten⟩

/-- A path and the paths of the directories above it, up to the outermost that can be made. -/
def ancestors (path : Path) : List Path :=
  let components := path.components
  let least := if path.isAbsolute then 2 else 1
  (List.range (components.length + 1)).reverse.filterMap fun count =>
    if count < least then none
    else if count = components.length then some path
    else some (pathOf (components.take count))

/-- The directories that are missing above a path, innermost first, found by making the innermost
one that can be made. -/
def makeInnermost (tree : FileTree) : List Path → Except FileFault (FileTree × List Path)
  | [] => .ok (tree, [])
  | path :: outer =>
    match tree.makeDirectory path with
    | .ok made => .ok (made, [])
    | .error .notFound =>
      match makeInnermost tree outer with
      | .ok (made, missing) => .ok (made, path :: missing)
      | .error fault => .error fault
    | .error .exists => if tree.holdsDirectory path then .ok (tree, []) else .error .exists
    | .error fault => .error fault

/-- Makes directories one inside the other. What was made before a fault stays. -/
def makeAll (tree : FileTree) : List Path → FileTree × Except FileFault Unit
  | [] => (tree, .ok ())
  | path :: inner =>
    match tree.makeDirectory path with
    | .ok made => makeAll made inner
    | .error .exists =>
      if tree.holdsDirectory path then makeAll tree inner else (tree, .error .exists)
    | .error fault => (tree, .error fault)

/-- Makes a directory with all directories above it, as far as they are missing. -/
def makeDirectories (tree : FileTree) (path : Path) : FileTree × Except FileFault Unit :=
  match tree.makeInnermost (ancestors path) with
  | .error fault => (tree, .error fault)
  | .ok (made, missing) => makeAll made missing.reverse

def names (tree : FileTree) (path : Path) : Except FileFault (List (List Char)) := do
  let location ← tree.locate path
  match tree.get? location with
  | none => .error .notFound
  | some (.file _) => .error .notDirectory
  | some .directory =>
    return tree.entries.filterMap fun entry =>
      if entry.1 ≠ [] ∧ entry.1.dropLast = location then entry.1.getLast? else none

end FileTree

end GuildRoster
