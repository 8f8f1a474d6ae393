import GuildRoster.Text.Lines

/-!
# Paths

The text that names a file, and what it says about the name of the file. Components are separated
by slashes; empty components and dots between components do not count. The extension of a name
follows its last dot, and a name that only starts with a dot has none.
-/

set_option autoImplicit false

namespace GuildRoster

/-- The text that names a file. -/
structure Path where
  characters : List Char
  deriving DecidableEq, Repr

inductive PathComponent where
  | root
  | here
  | above
  | name (characters : List Char)
  deriving DecidableEq, Repr

namespace Path

def ofString (text : String) : Path := ⟨text.toList⟩

def text (path : Path) : String := String.ofList path.characters

def isAbsolute (path : Path) : Bool := path.characters.head? == some '/'

def pieces (path : Path) : List (List Char) := Text.splitAt '/' path.characters

/-- The component that a piece stands for behind other pieces, if it counts there. -/
def component? (piece : List Char) : Option PathComponent :=
  if piece = [] ∨ piece = ['.'] then none
  else if piece = ['.', '.'] then some .above
  else some (.name piece)

def components (path : Path) : List PathComponent :=
  let rest := path.pieces.filterMap component?
  if path.isAbsolute then .root :: rest
  else if path.pieces.head? = some ['.'] then .here :: rest
  else rest

/-- The name of the file, unless the path ends in dots or is a root. -/
def fileName? (path : Path) : Option (List Char) :=
  match path.components.getLast? with
  | some (.name characters) => some characters
  | _ => none

def splitName (name : List Char) : List Char × Option (List Char) :=
  let ending := name.reverse.takeWhile (· ≠ '.')
  let stem := (name.reverse.drop (ending.length + 1)).reverse
  if stem.isEmpty then (name, none) else (stem, some ending.reverse)

def extension? (path : Path) : Option (List Char) :=
  path.fileName?.bind fun name => (splitName name).2

def stem? (path : Path) : Option (List Char) :=
  path.fileName?.map fun name => (splitName name).1

/-- The number of characters after the name of the file: slashes and single dots, which do not count
as components. -/
def trailingLength (path : Path) : Nat :=
  let tail := path.pieces.reverse.takeWhile fun piece => piece = [] ∨ piece = ['.']
  (tail.flatMap fun piece => '/' :: piece).length

/-- A path with an extension added to the stem of its name, or with the bare stem when the
extension is empty. A path without a name stays as it is. -/
def addExtension (path : Path) (extension : List Char) : Path :=
  match path.fileName? with
  | none => path
  | some name =>
    let front := path.characters.take (path.characters.length - path.trailingLength - name.length)
    let ending := if extension.isEmpty then [] else '.' :: extension
    ⟨front ++ (splitName name).1 ++ ending⟩

/-- A path with its extension replaced. As many characters as the old extension has are cut from
the end of the path before the new one is added to the stem that remains. -/
def withExtension (path : Path) (extension : List Char) : Path :=
  match path.extension? with
  | none => path.addExtension extension
  | some old =>
    addExtension ⟨path.characters.take (path.characters.length - old.length)⟩ extension

/-- A path taken from a directory on. An absolute path stands for itself. -/
def join (directory path : Path) : Path :=
  if path.isAbsolute then path
  else if directory.characters = [] ∨ directory.characters.getLast? = some '/' then
    ⟨directory.characters ++ path.characters⟩
  else ⟨directory.characters ++ ['/'] ++ path.characters⟩

end Path

end GuildRoster
