import GuildRoster.Proofs.StoreRuns

/-!
# The one file of a key

A store reads and writes one file for a key. The directories of a tree decide which file that is,
and no other file has any influence on what a store answers. The file lies directly inside the
store's directory as long as the key has no slashes; nothing keeps a key with slashes from leading
out of it.
-/

set_option autoImplicit false

namespace GuildRoster

/-! ## Trees that are alike -/

/-- Two outcomes that are the same fault, or results in a relation. -/
inductive FileFault.Agree {α : Type} (related : α → α → Prop) :
    Except FileFault α → Except FileFault α → Prop where
  | error (fault : FileFault) : Agree related (.error fault) (.error fault)
  | ok {first second : α} (holds : related first second) : Agree related (.ok first) (.ok second)

namespace FileTree

/-- Two trees have the same directories and files, whatever the files hold. -/
structure Alike (tree other : FileTree) : Prop where
  workDirectory : other.workDirectory = tree.workDirectory
  missing : ∀ place, other.get? place = none ↔ tree.get? place = none
  directory : ∀ place, other.get? place = some .directory ↔ tree.get? place = some .directory

namespace Alike

variable {tree other : FileTree}

theorem put (alike : tree.Alike other) (location : Location) (entry : FileEntry) :
    (tree.put location entry).Alike (other.put location entry) := by
  refine ⟨alike.workDirectory, fun place => ?_, fun place => ?_⟩
  · rw [get?_put, get?_put]
    split
    next => exact Iff.rfl
    next =>
      split
      next => exact Iff.rfl
      next => exact alike.missing place
  · rw [get?_put, get?_put]
    split
    next => exact Iff.rfl
    next =>
      split
      next => exact Iff.rfl
      next => exact alike.directory place

theorem entries (alike : tree.Alike other) (place : Location) :
    (tree.get? place = none ∧ other.get? place = none) ∨
      (tree.get? place = some .directory ∧ other.get? place = some .directory) ∨
      ∃ content again, tree.get? place = some (.file content) ∧
        other.get? place = some (.file again) := by
  have missing := alike.missing place
  have directory := alike.directory place
  cases held : tree.get? place with
  | none => exact .inl ⟨rfl, missing.2 held⟩
  | some entry =>
    cases entry with
    | directory => exact .inr (.inl ⟨rfl, directory.2 held⟩)
    | file content =>
      rw [held] at missing directory
      cases there : other.get? place with
      | none => simp [there] at missing
      | some entry =>
        cases entry with
        | directory => simp [there] at directory
        | file again => exact .inr (.inr ⟨content, again, rfl, rfl⟩)

theorem enter (alike : tree.Alike other) (place : Location) (piece : List Char) :
    other.enter place piece = tree.enter place piece := by
  unfold FileTree.enter
  rcases alike.entries place with ⟨held, there⟩ | ⟨held, there⟩ | ⟨_, _, held, there⟩
  all_goals rw [held, there]

theorem follow (alike : tree.Alike other) (place : Location) (pieces : List (List Char)) :
    other.follow place pieces = tree.follow place pieces := by
  induction pieces generalizing place with
  | nil => rfl
  | cons piece pieces ih => simp only [FileTree.follow, alike.enter, ih]

theorem start (alike : tree.Alike other) (path : Path) : other.start path = tree.start path := by
  rw [FileTree.start, FileTree.start, alike.workDirectory]

theorem locate (alike : tree.Alike other) (path : Path) : other.locate path = tree.locate path := by
  simp only [FileTree.locate, alike.start, alike.follow]

theorem target (alike : tree.Alike other) (path : Path) : other.target path = tree.target path := by
  simp only [FileTree.target, alike.start, alike.follow, alike.enter]

theorem holdsDirectory (alike : tree.Alike other) (path : Path) :
    other.holdsDirectory path = tree.holdsDirectory path := by
  simp only [FileTree.holdsDirectory, find, alike.locate]
  cases tree.locate path with
  | error fault => rfl
  | ok location =>
    simp only [bind, Except.bind]
    rcases alike.entries location with ⟨held, there⟩ | ⟨held, there⟩ | ⟨_, _, held, there⟩
    all_goals rw [held, there]
    rfl

theorem opened (alike : tree.Alike other) (path : Path) : other.opened path = tree.opened path := by
  simp only [FileTree.opened, alike.target]
  cases tree.target path with
  | error fault => rfl
  | ok found =>
    cases found with
    | none => rfl
    | some location =>
      simp only [bind, Except.bind]
      rcases alike.entries location with ⟨held, there⟩ | ⟨held, there⟩ | ⟨_, _, held, there⟩
      all_goals rw [held, there]

theorem makeDirectory (alike : tree.Alike other) (path : Path) :
    FileFault.Agree Alike (tree.makeDirectory path) (other.makeDirectory path) := by
  simp only [FileTree.makeDirectory, alike.target]
  cases tree.target path with
  | error fault => exact .error fault
  | ok found =>
    cases found with
    | none => exact .error .exists
    | some location =>
      simp only [bind, Except.bind]
      rcases alike.entries location with ⟨held, there⟩ | ⟨held, there⟩ | ⟨_, _, held, there⟩
      all_goals rw [held, there]
      · exact .ok (alike.put location .directory)
      · exact .error .exists
      · exact .error .exists

theorem makeInnermost (alike : tree.Alike other) (paths : List Path) :
    FileFault.Agree (fun first second => first.1.Alike second.1 ∧ first.2 = second.2)
      (tree.makeInnermost paths) (other.makeInnermost paths) := by
  induction paths with
  | nil => exact .ok ⟨alike, rfl⟩
  | cons path outer ih =>
    have step := alike.makeDirectory path
    simp only [FileTree.makeInnermost, alike.holdsDirectory]
    generalize tree.makeDirectory path = first at step ⊢
    generalize other.makeDirectory path = second at step ⊢
    cases step with
    | ok holds => exact .ok ⟨holds, rfl⟩
    | error fault =>
      cases fault with
      | notFound =>
        simp only
        generalize tree.makeInnermost outer = first at ih ⊢
        generalize other.makeInnermost outer = second at ih ⊢
        cases ih with
        | ok holds => exact .ok ⟨holds.1, by rw [holds.2]⟩
        | error fault => exact .error fault
      | «exists» =>
        simp only
        split
        next => exact .ok ⟨alike, rfl⟩
        next => exact .error .exists
      | _ => exact .error _

theorem makeAll (alike : tree.Alike other) (paths : List Path) :
    (tree.makeAll paths).1.Alike (other.makeAll paths).1 ∧
      (tree.makeAll paths).2 = (other.makeAll paths).2 := by
  induction paths generalizing tree other with
  | nil => exact ⟨alike, rfl⟩
  | cons path inner ih =>
    have step := alike.makeDirectory path
    simp only [FileTree.makeAll, alike.holdsDirectory]
    generalize tree.makeDirectory path = first at step ⊢
    generalize other.makeDirectory path = second at step ⊢
    cases step with
    | ok holds => exact ih holds
    | error fault =>
      cases fault with
      | «exists» =>
        simp only
        split
        next => exact ih alike
        next => exact ⟨alike, rfl⟩
      | _ => exact ⟨alike, rfl⟩

theorem makeDirectories (alike : tree.Alike other) (path : Path) :
    (tree.makeDirectories path).1.Alike (other.makeDirectories path).1 ∧
      (tree.makeDirectories path).2 = (other.makeDirectories path).2 := by
  have inner := alike.makeInnermost (ancestors path)
  simp only [FileTree.makeDirectories]
  generalize tree.makeInnermost (ancestors path) = first at inner ⊢
  generalize other.makeInnermost (ancestors path) = second at inner ⊢
  cases inner with
  | error fault => exact ⟨alike, rfl⟩
  | @ok first second holds =>
    simp only [← holds.2]
    exact holds.1.makeAll first.2.reverse

theorem write (alike : tree.Alike other) (path : Path) (content : Content) :
    FileFault.Agree Alike (tree.write path content) (other.write path content) := by
  simp only [FileTree.write, alike.opened]
  cases tree.opened path with
  | error fault => exact .error fault
  | ok location => exact .ok (alike.put location (.file content))

/-- What is read at a path is what the file there holds. -/
theorem read (alike : tree.Alike other) {path : Path}
    (same : ∀ location, tree.locate path = .ok location →
      other.get? location = tree.get? location) : other.read path = tree.read path := by
  simp only [FileTree.read, find, alike.locate]
  cases located : tree.locate path with
  | error fault => rfl
  | ok location => simp only [bind, Except.bind, same location located]

end Alike

theorem directory_of_follow {tree : FileTree} {place last : Location} {pieces : List (List Char)}
    (followed : tree.follow place pieces = .ok last)
    (directory : tree.get? last = some .directory) : tree.get? place = some .directory := by
  cases pieces with
  | nil =>
    cases followed
    exact directory
  | cons piece pieces =>
    obtain ⟨_, entered, _⟩ := except_bind_eq_ok_iff.1 followed
    exact enter_eq_ok entered

end FileTree

/-! ## The file of a key -/

namespace Store

open FileTree (Alike)

variable {store : Store} {tree other : FileTree} {key : String} {roster : Roster}
  {location : Location}

/-- The parts of a key between its slashes. -/
def keyParts (key : String) : List (List Char) := Text.splitAt '/' key.toList

/-- The place of the store's directory. At the empty path that is the directory where relative
paths start. -/
def home (store : Store) (tree : FileTree) : Except FileFault Location :=
  tree.follow (tree.start store.directory) store.directory.pieces

/-- The place that the parts of a key before its last one lead to from the store's directory, or
from the root if the key starts with a slash. -/
def folder (store : Store) (tree : FileTree) (key : String) : Except FileFault Location := do
  let start ← if key.toList.head? = some '/' then pure [] else store.home tree
  tree.follow start (keyParts key).dropLast

/-- The name of the file of a key, behind all slashes. -/
def lastName (key : String) : List Char := ((keyParts key).getLast?).getD [] ++ ['.'] ++ extension

/-- The place of the one file of a key. -/
def file (store : Store) (tree : FileTree) (key : String) : Except FileFault Location := do
  return (← store.folder tree key) ++ [lastName key]

/-- A location directly inside the store's directory. -/
def Inside (store : Store) (tree : FileTree) (location : Location) : Prop :=
  ∃ home name, store.home tree = .ok home ∧ location = home ++ [name]

/-- Some files are all that a store reads and writes for a key: what the other files hold makes no
difference to what it answers, and they are as they were after a save. -/
structure TouchesOnly (store : Store) (key : String) (files : FileTree → Location → Prop) :
    Prop where
  load : ∀ tree other : FileTree, tree.Alike other →
    (∀ location, files tree location → other.get? location = tree.get? location) →
    store.load other key = store.load tree key
  roster : ∀ tree other : FileTree, tree.Alike other →
    (∀ location, files tree location → other.get? location = tree.get? location) →
    store.roster key other = store.roster key tree
  save : ∀ (tree other : FileTree) (roster : Roster), tree.Alike other →
    (store.save other key roster).2 = (store.save tree key roster).2
  kept : ∀ (tree : FileTree) (roster : Roster) (location : Location) (content : Content),
    ¬ files (store.save tree key roster).1 location →
    ((store.save tree key roster).1.get? location = some (.file content) ↔
      tree.get? location = some (.file content))

theorem isName_lastName (key : String) : FileTree.IsName (lastName key) :=
  FileTree.isName_of_long (by simp [lastName, extension])

theorem pieces_fileName (key : String) :
    Text.splitAt '/' (fileName key) = (keyParts key).dropLast ++ [lastName key] := by
  obtain ⟨front, last, shape⟩ := Text.splitAt_append_last '/' key.toList
  have whole : keyParts key = front ++ [last] := by
    have bare := shape [] List.not_mem_nil
    rwa [List.append_nil, List.append_nil] at bare
  have named := shape (['.'] ++ extension) (by decide)
  rw [fileName, List.append_assoc, named, lastName, whole]
  simp

theorem isAbsolute_fileName (key : String) :
    Path.isAbsolute ⟨fileName key⟩ = (key.toList.head? == some '/') := by
  unfold fileName Path.isAbsolute
  cases key.toList <;> rfl

theorem home_of_leading {place : Location}
    (followed : tree.follow (tree.start store.directory) store.leading = .ok place)
    (directory : tree.get? place = some .directory) : store.home tree = .ok place := by
  have slashed : store.directory.pieces = store.leading ++ [[]] →
      store.home tree = .ok place := by
    intro shape
    rw [home, shape]
    refine FileTree.follow_append_eq_ok_iff.2 ⟨place, followed, ?_⟩
    rw [FileTree.follow_singleton]
    simp [FileTree.enter, directory]
  by_cases empty : store.directory.characters = []
  · apply slashed
    simp [Path.pieces, leading, empty, Text.splitAt]
  · rcases store.pieces_directory empty with same | shape
    · rw [home, same]
      exact followed
    · exact slashed shape

/-- The path of a key leads to its file. -/
theorem file_of_locate (located : tree.locate (store.path key) = .ok location) :
    store.file tree key = .ok location := by
  have split := pieces_fileName key
  have enough : ∀ place, store.folder tree key = .ok place → location = place ++ [lastName key] →
      store.file tree key = .ok location := by
    intro place found shape
    rw [shape]
    exact except_bind_eq_ok_iff.2 ⟨place, found, rfl⟩
  by_cases absolute : key.toList.head? = some '/'
  · have known : Path.isAbsolute ⟨fileName key⟩ = true := by
      rw [isAbsolute_fileName, absolute, beq_self_eq_true]
    have whole : store.path key = ⟨fileName key⟩ := if_pos known
    have pieces : (store.path key).pieces = (keyParts key).dropLast ++ [lastName key] := by
      rw [whole]
      exact split
    have root : tree.start (store.path key) = [] := by
      rw [whole]
      exact if_pos known
    obtain ⟨place, followed, _, shape⟩ :=
      FileTree.locate_name pieces (isName_lastName key) located
    rw [root] at followed
    exact enough place (by rw [folder, if_pos absolute]; exact followed) shape
  · have known : Path.isAbsolute ⟨fileName key⟩ = false := by
      rw [isAbsolute_fileName, beq_eq_false_iff_ne]
      exact absolute
    have pieces := store.pieces_of_relative known
    rw [split, ← List.append_assoc] at pieces
    obtain ⟨place, followed, directory, shape⟩ :=
      FileTree.locate_name pieces (isName_lastName key) located
    rw [store.start_of_relative tree known, FileTree.follow_append_eq_ok_iff] at followed
    obtain ⟨first, before, after⟩ := followed
    have atHome := home_of_leading before (FileTree.directory_of_follow after directory)
    refine enough place ?_ shape
    rw [folder, if_neg absolute, atHome]
    exact after

theorem folder_of_noSlash (noSlash : '/' ∉ key.toList) :
    store.folder tree key = store.home tree := by
  have relative : key.toList.head? ≠ some '/' := fun slash => noSlash (List.mem_of_head? slash)
  rw [folder, if_neg relative, keyParts, Text.splitAt_of_not_mem noSlash]
  cases store.home tree <;> rfl

theorem load_of_alike (alike : tree.Alike other)
    (same : ∀ location, store.file tree key = .ok location →
      other.get? location = tree.get? location) : store.load other key = store.load tree key := by
  rw [load, load, alike.read fun location located => same location (file_of_locate located)]

theorem save_of_alike (alike : tree.Alike other) :
    (store.save other key roster).2 = (store.save tree key roster).2 := by
  have making := alike.makeDirectories store.directory
  unfold save
  generalize tree.makeDirectories store.directory = first at making ⊢
  generalize other.makeDirectories store.directory = second at making ⊢
  obtain ⟨made, result⟩ := first
  obtain ⟨also, again⟩ := second
  obtain ⟨madeAlike, rfl⟩ : made.Alike also ∧ result = again := making
  cases result with
  | error cause => rfl
  | ok nothing =>
    have writing := madeAlike.write (store.path key) (.text roster.write)
    dsimp only at writing ⊢
    generalize made.write (store.path key) (.text roster.write) = first at writing ⊢
    generalize also.write (store.path key) (.text roster.write) = second at writing ⊢
    cases writing with
    | error fault => rfl
    | ok holds => rfl

theorem puts_of_save {path : Path} (success : (store.save tree key roster).2 = .ok path) :
    ∃ location, store.file (store.save tree key roster).1 key = .ok location ∧
      ∀ place, (store.save tree key roster).1.get? place =
        if place = location then some (.file (.text roster.write))
        else (tree.makeDirectories store.directory).1.get? place := by
  have puts := FileTree.puts_of_write (save_eq_ok success)
  have kept := puts.keepsDirectories.1
  obtain ⟨location, located, _, _, changed⟩ := puts
  exact ⟨location, file_of_locate (kept.locate located), changed⟩

/-- A save changes the file of its key and no other one. -/
theorem file_iff_of_save (elsewhere : store.file (store.save tree key roster).1 key ≠ .ok location)
    (content : Content) : (store.save tree key roster).1.get? location = some (.file content) ↔
      tree.get? location = some (.file content) := by
  have made := tree.extends_makeDirectories store.directory
  cases outcome : (store.save tree key roster).2 with
  | error fault =>
    rw [save_eq_error outcome]
    exact made.file_iff
  | ok path =>
    obtain ⟨place, found, changed⟩ := puts_of_save outcome
    have other : location ≠ place := by
      intro same
      subst same
      exact elsewhere found
    rw [changed, if_neg other]
    exact made.file_iff

/-- For every key there is one file that a store reads and writes, and what it loads and saves is
the document in it. The file lies directly inside the store's directory just when the parts of the
key before its last one lead back there, as they do when there are none. -/
theorem touches_own_file (store : Store) (key : String) :
    store.TouchesOnly key (fun tree location => store.file tree key = .ok location) ∧
    (∀ tree roster, store.load tree key = .ok roster →
      ∃ location document, store.file tree key = .ok location ∧
        tree.get? location = some (.file (.text document)) ∧ Roster.read document = .ok roster) ∧
    (∀ tree roster path, (store.save tree key roster).2 = .ok path →
      ∃ location, store.file (store.save tree key roster).1 key = .ok location ∧
        (store.save tree key roster).1.get? location = some (.file (.text roster.write))) ∧
    (∀ tree location, store.file tree key = .ok location →
      (store.Inside tree location ↔ store.folder tree key = store.home tree)) ∧
    ('/' ∉ key.toList → ∀ tree, store.folder tree key = store.home tree) := by
  refine ⟨?only, ?loads, ?saves, ?inside, fun noSlash tree => folder_of_noSlash noSlash⟩
  case only =>
    refine ⟨fun tree other alike same => load_of_alike alike same, fun tree other alike same => ?_,
      fun tree other roster alike => save_of_alike alike,
      fun tree roster location content elsewhere => file_iff_of_save elsewhere content⟩
    rw [Store.roster, Store.roster, load_of_alike alike same]
  case loads =>
    intro tree roster loaded
    unfold load at loaded
    cases reading : tree.read (store.path key) with
    | error fault =>
      rw [reading] at loaded
      cases loaded
    | ok document =>
      rw [reading] at loaded
      rw [FileTree.read_eq_ok_iff, FileTree.find_eq_file_iff] at reading
      obtain ⟨location, located, held⟩ := reading
      refine ⟨location, document, file_of_locate located, held, ?_⟩
      cases parsed : Roster.read document with
      | error cause => simp [parsed] at loaded
      | ok read => simpa [parsed] using loaded
  case saves =>
    intro tree roster path success
    obtain ⟨location, found, changed⟩ := puts_of_save success
    exact ⟨location, found, by rw [changed, if_pos rfl]⟩
  case inside =>
    intro tree location found
    obtain ⟨place, followed, shape⟩ := except_bind_eq_ok_iff.1 found
    cases shape
    constructor
    · intro inside
      obtain ⟨home, name, atHome, same⟩ := inside
      rw [followed, atHome, (List.append_inj' same rfl).1]
    · intro same
      exact ⟨place, lastName key, same ▸ followed, rfl⟩

/-- A tree with a roster beside the directory of a store. -/
def besideTree : FileTree where
  entries := [([['d']], .directory), ([fileName "x"], .file (.text (Roster.write [{}])))]

def besideStore : Store := ⟨⟨['d']⟩⟩

/-- The store in the working directory. -/
def hereStore : Store := ⟨⟨[]⟩⟩

/-- A key that leads through another directory and back is one of the store's own files, to load and
to save. -/
theorem touches_own_file_back :
    hereStore.Inside besideTree [fileName "x"] ∧
    (∃ location document, hereStore.file besideTree "d/../x" = .ok location ∧
      besideTree.get? location = some (.file (.text document)) ∧
      Roster.read document = .ok [{}]) ∧
    ∃ location, hereStore.file (hereStore.save besideTree "d/../x" []).1 "d/../x" = .ok location ∧
      (hereStore.save besideTree "d/../x" []).1.get? location
        = some (.file (.text (Roster.write []))) := by
  obtain ⟨_, loads, saves, inside, _⟩ := touches_own_file hereStore "d/../x"
  have reading : besideTree.read (hereStore.path "d/../x") = .ok (Roster.write [{}]) := rfl
  exact ⟨(inside besideTree _ rfl).2 rfl, loads besideTree _ (load_of_read reading),
    saves besideTree [] _ rfl⟩

/-- A key that starts with two dots leads out of the store's directory, to load and to save. -/
theorem touches_file_outside :
    besideStore.file besideTree "../x" = .ok [fileName "x"] ∧
    ¬ besideStore.Inside besideTree [fileName "x"] ∧
    besideStore.load besideTree "../x" = .ok [{}] ∧
    ¬ besideStore.TouchesOnly "../x" besideStore.Inside := by
  have outside : ∀ tree : FileTree, besideStore.home tree = .ok [['d']] →
      ¬ besideStore.Inside tree [fileName "x"] := by
    intro tree atHome inside
    obtain ⟨home, name, same, shape⟩ := inside
    rw [atHome] at same
    cases same
    cases shape
  refine ⟨rfl, outside besideTree rfl, ?_, fun touches => ?_⟩
  · have reading : besideTree.read (besideStore.path "../x") = .ok (Roster.write [{}]) := rfl
    exact load_of_read reading
  · -- A roster saved where there is nothing yet is not in the directory that is made for it.
    have saved : (besideStore.save {} "../x" []).1.get? [fileName "x"]
        = some (.file (.text (Roster.write []))) := rfl
    have kept := touches.kept {} [] [fileName "x"] (.text (Roster.write [])) (outside _ rfl)
    cases kept.1 saved

end Store

end GuildRoster
