import GuildRoster.Fault
import GuildRoster.FileTree
import Mathlib.Data.List.Induction
import Mathlib.Data.List.Nodup

/-!
# Laws of file trees

Where paths lead after a tree has changed. Making directories and writing a file keep every
directory that there is, so whatever a path led to can still be reached; a location below one that
holds nothing holds nothing either.
-/

set_option autoImplicit false

namespace GuildRoster

namespace FileTree

/-! ## Entering and following -/

/-- A piece of a path that leads into the directory it is followed from. -/
def IsName (piece : List Char) : Prop :=
  piece ≠ [] ∧ piece ≠ ['.'] ∧ piece ≠ ['.', '.']

theorem isName_of_long {piece : List Char} (long : 3 ≤ piece.length) : IsName piece := by
  refine ⟨?_, ?_, ?_⟩ <;>
  · intro equal
    subst equal
    simp at long

@[simp] theorem get?_nil (tree : FileTree) : tree.get? [] = some .directory := rfl

theorem get?_put_self (tree : FileTree) {location : Location} (notRoot : location ≠ [])
    (entry : FileEntry) : (tree.put location entry).get? location = some entry := by
  rw [get?_put, if_neg notRoot, if_pos rfl]

theorem get?_put_of_ne (tree : FileTree) {location other : Location} (elsewhere : other ≠ location)
    (entry : FileEntry) : (tree.put location entry).get? other = tree.get? other := by
  rw [get?_put, if_neg elsewhere]
  split
  next root =>
    subst root
    rfl
  next => rfl

theorem isSome_get?_put {tree : FileTree} {place : Location}
    (present : (tree.get? place).isSome) (location : Location) (entry : FileEntry) :
    ((tree.put location entry).get? place).isSome := by
  rw [get?_put]
  split
  next => rfl
  next =>
    split
    next => rfl
    next => exact present

theorem enter_eq_ok {tree : FileTree} {place next : Location} {piece : List Char}
    (entered : tree.enter place piece = .ok next) : tree.get? place = some .directory := by
  unfold enter at entered
  cases held : tree.get? place with
  | none => simp [held] at entered
  | some entry =>
    cases entry with
    | directory => rfl
    | file content => simp [held] at entered

theorem enter_name_eq_ok {tree : FileTree} {place next : Location} {piece : List Char}
    (name : IsName piece) (entered : tree.enter place piece = .ok next) :
    next = place ++ [piece] := by
  obtain ⟨nonempty, notHere, notAbove⟩ := name
  have directory := enter_eq_ok entered
  simp only [enter, directory, nonempty, notHere, notAbove, or_self, if_false] at entered
  split at entered
  · cases entered
  · cases entered
    rfl

/-- Only two dots lead out of a place. -/
theorem enter_below {tree : FileTree} {place next : Location} {piece : List Char}
    (notAbove : piece ≠ ['.', '.']) (entered : tree.enter place piece = .ok next) :
    place <+: next := by
  have directory := enter_eq_ok entered
  simp only [enter, directory, notAbove, if_false] at entered
  split at entered
  · cases entered
    exact List.prefix_rfl
  · split at entered
    · cases entered
    · cases entered
      exact List.prefix_append place [piece]

theorem follow_append (tree : FileTree) (place : Location) (front back : List (List Char)) :
    tree.follow place (front ++ back) =
      (tree.follow place front).bind fun next => tree.follow next back := by
  induction front generalizing place with
  | nil => rfl
  | cons piece front ih =>
    simp only [List.cons_append, follow, bind]
    cases tree.enter place piece with
    | error fault => rfl
    | ok next => exact ih next

theorem follow_append_eq_ok_iff {tree : FileTree} {place last : Location}
    {front back : List (List Char)} : tree.follow place (front ++ back) = .ok last ↔
      ∃ next, tree.follow place front = .ok next ∧ tree.follow next back = .ok last := by
  rw [follow_append]
  exact except_bind_eq_ok_iff

theorem follow_singleton (tree : FileTree) (place : Location) (piece : List Char) :
    tree.follow place [piece] = tree.enter place piece := by
  simp only [follow]
  cases tree.enter place piece <;> rfl

theorem follow_below {tree : FileTree} {place last : Location} {pieces : List (List Char)}
    (notAbove : ['.', '.'] ∉ pieces) (followed : tree.follow place pieces = .ok last) :
    place <+: last := by
  induction pieces generalizing place with
  | nil =>
    cases followed
    exact List.prefix_rfl
  | cons piece pieces ih =>
    obtain ⟨next, entered, others⟩ := except_bind_eq_ok_iff.1 followed
    rw [List.mem_cons, not_or] at notAbove
    exact (enter_below (Ne.symm notAbove.1) entered).trans (ih notAbove.2 others)

/-- The place where a path breaks off because there is nothing. -/
theorem follow_eq_notFound {tree : FileTree} {place : Location} {pieces : List (List Char)}
    (lost : tree.follow place pieces = .error .notFound) :
    ∃ front back last, pieces = front ++ back ∧ back ≠ [] ∧ tree.follow place front = .ok last ∧
      tree.get? last = none := by
  induction pieces generalizing place with
  | nil => cases lost
  | cons piece pieces ih =>
    simp only [follow, bind, Except.bind] at lost
    cases entered : tree.enter place piece with
    | error fault =>
      rw [entered] at lost
      refine ⟨[], piece :: pieces, place, rfl, by simp, rfl, ?_⟩
      cases lost
      unfold enter at entered
      cases held : tree.get? place with
      | none => rfl
      | some entry =>
        cases entry with
        | file content => simp [held] at entered
        | directory =>
          simp only [held] at entered
          split at entered <;> (try cases entered)
          split at entered <;> (try cases entered)
          split at entered <;> cases entered
    | ok next =>
      rw [entered] at lost
      obtain ⟨front, back, last, rfl, nonempty, followed, missing⟩ := ih lost
      refine ⟨piece :: front, back, last, rfl, nonempty, ?_, missing⟩
      simp only [follow, entered, bind, Except.bind, followed]

/-- A path that ends in a name leads into the directory that the rest of it leads to. -/
theorem locate_name {tree : FileTree} {path : Path} {leading : List (List Char)}
    {name : List Char} (pieces : path.pieces = leading ++ [name]) (named : IsName name)
    {location : Location} (located : tree.locate path = .ok location) :
    ∃ place, tree.follow (tree.start path) leading = .ok place ∧
      tree.get? place = some .directory ∧ location = place ++ [name] := by
  obtain ⟨_, _, followed⟩ := except_bind_eq_ok_iff.1 located
  rw [pieces, follow_append_eq_ok_iff] at followed
  obtain ⟨place, before, entered⟩ := followed
  rw [follow_singleton] at entered
  exact ⟨place, before, enter_eq_ok entered, enter_name_eq_ok named entered⟩

/-- Two paths lead to two places. -/
def Apart (tree : FileTree) (path other : Path) : Prop :=
  ∀ location, tree.locate path = .ok location → tree.locate other ≠ .ok location

/-- Two names in one directory are two places. -/
theorem apart_of_names {tree : FileTree} {path other : Path} {leading : List (List Char)}
    {name again : List Char} (start : tree.start path = tree.start other)
    (pieces : path.pieces = leading ++ [name]) (others : other.pieces = leading ++ [again])
    (named : IsName name) (alsoNamed : IsName again) (different : name ≠ again) :
    tree.Apart path other := by
  intro location located same
  obtain ⟨first, followed, _, rfl⟩ := locate_name pieces named located
  obtain ⟨second, found, _, shape⟩ := locate_name others alsoNamed same
  rw [← start, followed] at found
  cases found
  exact different (by simpa using shape)

theorem check_eq_ok_iff {path : Path} : check path = .ok () ↔
    '\x00' ∉ path.characters ∧ path.characters ≠ [] ∧ Text.byteLength path.characters < 4096 := by
  unfold check
  split
  next null => simpa using fun absent => absurd null (by simpa using absent)
  next noNull =>
    split
    next empty => simpa using fun _ nonempty => absurd empty (by simpa using nonempty)
    next nonempty =>
      split
      next long => simpa using fun _ _ => long
      next short => simp_all

/-! ## Trees with more directories -/

/-- One tree has every directory of another. -/
structure KeepsDirectories (tree changed : FileTree) : Prop where
  workDirectory : changed.workDirectory = tree.workDirectory
  directory : ∀ place, tree.get? place = some .directory → changed.get? place = some .directory

/-- One tree has all that another has and nothing more but directories. -/
structure Extends (tree changed : FileTree) : Prop where
  workDirectory : changed.workDirectory = tree.workDirectory
  entry : ∀ place entry, tree.get? place = some entry → changed.get? place = some entry
  missing : ∀ place, tree.get? place = none →
    changed.get? place = none ∨ changed.get? place = some .directory

theorem KeepsDirectories.trans {first second third : FileTree}
    (earlier : first.KeepsDirectories second) (later : second.KeepsDirectories third) :
    first.KeepsDirectories third :=
  ⟨later.workDirectory.trans earlier.workDirectory,
    fun place directory => later.directory place (earlier.directory place directory)⟩

theorem Extends.refl (tree : FileTree) : tree.Extends tree :=
  ⟨rfl, fun _ _ held => held, fun _ missing => .inl missing⟩

theorem Extends.trans {first second third : FileTree} (earlier : first.Extends second)
    (later : second.Extends third) : first.Extends third := by
  refine ⟨later.workDirectory.trans earlier.workDirectory,
    fun place entry held => later.entry place entry (earlier.entry place entry held),
    fun place missing => ?_⟩
  rcases earlier.missing place missing with still | made
  · exact later.missing place still
  · exact .inr (later.entry place .directory made)

theorem Extends.keepsDirectories {tree changed : FileTree} (grown : tree.Extends changed) :
    tree.KeepsDirectories changed :=
  ⟨grown.workDirectory, fun place directory => grown.entry place .directory directory⟩

theorem Extends.isSome_get? {tree changed : FileTree} (grown : tree.Extends changed)
    {place : Location} (present : (tree.get? place).isSome) : (changed.get? place).isSome := by
  obtain ⟨entry, held⟩ := Option.isSome_iff_exists.1 present
  rw [grown.entry place entry held]
  rfl

/-- Directories that are made add no files. -/
theorem Extends.file_iff {tree changed : FileTree} (grown : tree.Extends changed)
    {place : Location} {content : Content} :
    changed.get? place = some (.file content) ↔ tree.get? place = some (.file content) := by
  refine ⟨fun held => ?_, grown.entry place _⟩
  cases before : tree.get? place with
  | none =>
    rcases grown.missing place before with missing | directory
    · rw [missing] at held
      cases held
    · rw [directory] at held
      cases held
  | some entry => rw [← grown.entry place entry before, held]

theorem extends_put_directory {tree : FileTree} {location : Location}
    (missing : tree.get? location = none) : tree.Extends (tree.put location .directory) := by
  have notRoot : location ≠ [] := by
    intro equal
    subst equal
    cases missing
  refine ⟨rfl, fun place entry held => ?_, fun place absent => ?_⟩
  · have other : place ≠ location := by
      intro equal
      subst equal
      rw [missing] at held
      cases held
    rw [tree.get?_put_of_ne other, held]
  · by_cases same : place = location
    · subst same
      exact .inr (tree.get?_put_self notRoot .directory)
    · rw [tree.get?_put_of_ne same]
      exact .inl absent

theorem keepsDirectories_put_file {tree : FileTree} {location : Location}
    (notDirectory : tree.get? location ≠ some .directory) (content : Content) :
    tree.KeepsDirectories (tree.put location (.file content)) := by
  refine ⟨rfl, fun place directory => ?_⟩
  have other : place ≠ location := by
    intro equal
    subst equal
    exact notDirectory directory
  rw [tree.get?_put_of_ne other, directory]

theorem keepsDirectories_of_put_file (tree : FileTree) (location : Location) (content : Content) :
    (tree.put location (.file content)).KeepsDirectories tree := by
  refine ⟨rfl, fun place directory => ?_⟩
  rw [get?_put] at directory
  split at directory
  next root =>
    subst root
    rfl
  next =>
    split at directory
    next => cases directory
    next => exact directory

theorem KeepsDirectories.enter {tree changed : FileTree} (kept : tree.KeepsDirectories changed)
    {place next : Location} {piece : List Char} (entered : tree.enter place piece = .ok next) :
    changed.enter place piece = .ok next := by
  have before := enter_eq_ok entered
  have after := kept.directory place before
  simp only [FileTree.enter, before] at entered
  simp only [FileTree.enter, after]
  exact entered

theorem KeepsDirectories.follow {tree changed : FileTree} (kept : tree.KeepsDirectories changed)
    {place last : Location} {pieces : List (List Char)}
    (followed : tree.follow place pieces = .ok last) : changed.follow place pieces = .ok last := by
  induction pieces generalizing place with
  | nil => exact followed
  | cons piece pieces ih =>
    obtain ⟨next, entered, others⟩ := except_bind_eq_ok_iff.1 followed
    exact except_bind_eq_ok_iff.2 ⟨next, kept.enter entered, ih others⟩

theorem KeepsDirectories.start {tree changed : FileTree} (kept : tree.KeepsDirectories changed)
    (path : Path) : changed.start path = tree.start path := by
  simp only [FileTree.start, kept.workDirectory]

theorem KeepsDirectories.locate {tree changed : FileTree} (kept : tree.KeepsDirectories changed)
    {path : Path} {location : Location} (located : tree.locate path = .ok location) :
    changed.locate path = .ok location := by
  obtain ⟨_, checked, followed⟩ := except_bind_eq_ok_iff.1 located
  refine except_bind_eq_ok_iff.2 ⟨(), checked, ?_⟩
  rw [kept.start path]
  exact kept.follow followed

/-- In a tree with more directories, a path breaks off as before unless it broke off at nothing. -/
theorem Extends.follow_error {tree changed : FileTree} (grown : tree.Extends changed)
    {place : Location} {pieces : List (List Char)} {fault : FileFault}
    (failed : tree.follow place pieces = .error fault) (other : fault ≠ .notFound) :
    changed.follow place pieces = .error fault := by
  induction pieces generalizing place with
  | nil => cases failed
  | cons piece pieces ih =>
    simp only [FileTree.follow, bind, Except.bind] at failed ⊢
    cases entered : tree.enter place piece with
    | ok next =>
      rw [entered] at failed
      rw [grown.keepsDirectories.enter entered]
      exact ih failed
    | error cause =>
      rw [entered] at failed
      cases failed
      have same : changed.enter place piece = .error fault := by
        simp only [FileTree.enter] at entered ⊢
        cases held : tree.get? place with
        | none =>
          rw [held] at entered
          cases entered
          exact absurd rfl other
        | some entry =>
          rw [held] at entered
          rw [grown.entry place entry held]
          exact entered
      rw [same]

/-! ## Trees without loose ends -/

/-- A tree as a disk holds it: one entry for each location, and each in a directory. -/
structure WellFormed (tree : FileTree) : Prop where
  unique : (tree.entries.map (·.1)).Nodup
  nested : ∀ place, place ≠ [] → (tree.get? place).isSome →
    tree.get? place.dropLast = some .directory

theorem WellFormed.directory_above {tree : FileTree} (wellFormed : tree.WellFormed)
    {place back : Location} (nonempty : back ≠ [])
    (held : (tree.get? (place ++ back)).isSome) : tree.get? place = some .directory := by
  induction back using List.reverseRecOn with
  | nil => exact absurd rfl nonempty
  | append_singleton back name ih =>
    have above := wellFormed.nested (place ++ (back ++ [name])) (by simp) held
    rw [← List.append_assoc, List.dropLast_concat] at above
    cases back with
    | nil => simpa using above
    | cons first back => exact ih (by simp) (by rw [above]; rfl)

theorem WellFormed.nothing_below {tree : FileTree} (wellFormed : tree.WellFormed)
    {place below : Location} (beneath : place <+: below) (missing : tree.get? place = none) :
    tree.get? below = none := by
  obtain ⟨back, rfl⟩ := beneath
  cases back with
  | nil => simpa using missing
  | cons first back =>
    rw [← Option.not_isSome_iff_eq_none]
    intro held
    rw [wellFormed.directory_above (by simp) held] at missing
    cases missing

/-! ## Opening a file -/

theorem target_eq_ok_iff {tree : FileTree} {path : Path} {location : Location} :
    tree.target path = .ok (some location) ↔
      check path = .ok () ∧ ∃ place name,
        tree.follow (tree.start path) (withoutSlashes path).pieces.dropLast = .ok place ∧
        (withoutSlashes path).pieces.getLast? = some name ∧ IsName name ∧
        tree.enter place name = .ok location := by
  have nonempty : (withoutSlashes path).pieces ≠ [] := Text.splitAt_ne_nil '/' _
  have last := List.getLast?_eq_some_getLast nonempty
  generalize (withoutSlashes path).pieces.getLast nonempty = name at last
  simp only [target, except_bind_eq_ok_iff, last, Option.getD_some]
  constructor
  · intro assumed
    rcases assumed with ⟨_, checked, place, followed, next, entered, found⟩
    refine ⟨checked, place, name, followed, rfl, ?_⟩
    split at found
    · cases found
    next ordinary =>
      cases found
      simp only [not_or] at ordinary
      exact ⟨ordinary, entered⟩
  · intro assumed
    rcases assumed with ⟨checked, place, _, followed, ⟨⟩, ordinary, entered⟩
    refine ⟨(), checked, place, followed, location, entered, ?_⟩
    obtain ⟨nonempty, notHere, notAbove⟩ := ordinary
    simp [nonempty, notHere, notAbove, pure, Except.pure]

/-- A target lies in a directory and is not the root. -/
theorem target_inside {tree : FileTree} {path : Path} {location : Location}
    (targeted : tree.target path = .ok (some location)) :
    location ≠ [] ∧ tree.get? location.dropLast = some .directory := by
  obtain ⟨_, place, name, _, _, ordinary, entered⟩ := target_eq_ok_iff.1 targeted
  have inside := enter_name_eq_ok ordinary entered
  subst inside
  exact ⟨by simp, by simpa using enter_eq_ok entered⟩

theorem withoutSlashes_eq {path : Path} (notSlash : path.characters.getLast? ≠ some '/') :
    withoutSlashes path = path := by
  obtain ⟨characters⟩ := path
  induction characters using List.reverseRecOn with
  | nil => rfl
  | append_singleton front last _ =>
    have other : last ≠ '/' := by simpa using notSlash
    simp [withoutSlashes, other]

theorem opened_eq_ok_iff {tree : FileTree} {path : Path} {location : Location} :
    tree.opened path = .ok location ↔
      tree.target path = .ok (some location) ∧ path.characters.getLast? ≠ some '/' ∧
        tree.get? location ≠ some .directory := by
  simp only [opened, except_bind_eq_ok_iff]
  constructor
  · intro assumed
    rcases assumed with ⟨found, targeted, opening⟩
    cases found with
    | none => cases opening
    | some place =>
      simp only at opening
      split at opening
      · cases opening
      next notSlash =>
        split at opening
        · cases opening
        next notDirectory =>
          cases opening
          exact ⟨targeted, notSlash, notDirectory⟩
  · intro assumed
    rcases assumed with ⟨targeted, notSlash, notDirectory⟩
    refine ⟨some location, targeted, ?_⟩
    simp only [notSlash, if_false]
    rfl

/-- A path leads to the location that it opens. -/
theorem locate_of_opened {tree : FileTree} {path : Path} {location : Location}
    (opening : tree.opened path = .ok location) : tree.locate path = .ok location := by
  obtain ⟨targeted, notSlash, _⟩ := opened_eq_ok_iff.1 opening
  obtain ⟨checked, place, name, followed, last, _, entered⟩ := target_eq_ok_iff.1 targeted
  rw [withoutSlashes_eq notSlash] at followed last
  have whole : path.pieces.dropLast ++ [name] = path.pieces := by
    obtain ⟨front, same⟩ := List.getLast?_eq_some_iff.1 last
    rw [same, List.dropLast_concat]
  refine except_bind_eq_ok_iff.2 ⟨(), checked, ?_⟩
  rw [← whole]
  refine follow_append_eq_ok_iff.2 ⟨place, followed, ?_⟩
  rw [follow_singleton]
  exact entered

/-- A file that can be opened can be opened in every tree with the same directories or more, unless
one of them has come in its place. -/
theorem KeepsDirectories.opened {tree changed : FileTree} (kept : tree.KeepsDirectories changed)
    {path : Path} {location : Location} (opening : tree.opened path = .ok location)
    (notDirectory : changed.get? location ≠ some .directory) :
    changed.opened path = .ok location := by
  obtain ⟨targeted, notSlash, _⟩ := opened_eq_ok_iff.1 opening
  obtain ⟨checked, place, name, followed, last, named, entered⟩ := target_eq_ok_iff.1 targeted
  have still : changed.target path = .ok (some location) := by
    refine target_eq_ok_iff.2 ⟨checked, place, name, ?_, last, named, kept.enter entered⟩
    rw [kept.start path]
    exact kept.follow followed
  exact opened_eq_ok_iff.2 ⟨still, notSlash, notDirectory⟩

theorem write_eq_ok_iff {tree written : FileTree} {path : Path} {content : Content} :
    tree.write path content = .ok written ↔
      ∃ location, tree.opened path = .ok location ∧
        written = tree.put location (.file content) := by
  simp only [write, except_bind_eq_ok_iff, pure, Except.pure, Except.ok.injEq]
  exact exists_congr fun _ => and_congr_right fun _ => eq_comm

/-- What a tree becomes when a content is put where a path leads, in place of nothing or of a file:
nothing else changes. -/
def Puts (tree : FileTree) (path : Path) (content : Content) (written : FileTree) : Prop :=
  ∃ location, tree.locate path = .ok location ∧ tree.get? location ≠ some .directory ∧
    written.workDirectory = tree.workDirectory ∧
    ∀ place, written.get? place =
      if place = location then some (.file content) else tree.get? place

theorem puts_of_write {tree written : FileTree} {path : Path} {content : Content}
    (success : tree.write path content = .ok written) : tree.Puts path content written := by
  obtain ⟨location, opening, rfl⟩ := write_eq_ok_iff.1 success
  obtain ⟨targeted, _, notDirectory⟩ := opened_eq_ok_iff.1 opening
  refine ⟨location, locate_of_opened opening, notDirectory, rfl, fun place => ?_⟩
  split
  next same =>
    subst same
    exact tree.get?_put_self (target_inside targeted).1 _
  next other => exact tree.get?_put_of_ne other _

theorem Puts.keepsDirectories {tree written : FileTree} {path : Path} {content : Content}
    (puts : tree.Puts path content written) :
    tree.KeepsDirectories written ∧ written.KeepsDirectories tree := by
  obtain ⟨location, _, notDirectory, workDirectory, changed⟩ := puts
  have same : ∀ place, written.get? place = some .directory ↔
      tree.get? place = some .directory := by
    intro place
    rw [changed]
    split
    next here =>
      subst here
      simp [notDirectory]
    next => exact Iff.rfl
  exact ⟨⟨workDirectory, fun place => (same place).2⟩,
    workDirectory.symm, fun place => (same place).1⟩

theorem find_eq_file_iff {tree : FileTree} {path : Path} {content : Content} :
    tree.find path = .ok (.file content) ↔
      ∃ location, tree.locate path = .ok location ∧
        tree.get? location = some (.file content) := by
  simp only [find, except_bind_eq_ok_iff]
  refine exists_congr fun location => and_congr_right fun _ => ?_
  cases tree.get? location with
  | none => simp
  | some entry => simp [pure, Except.pure]

/-- The path leads to what was put there. -/
theorem Puts.find {tree written : FileTree} {path : Path} {content : Content}
    (puts : tree.Puts path content written) : written.find path = .ok (.file content) := by
  have kept := puts.keepsDirectories.1
  obtain ⟨location, located, _, _, changed⟩ := puts
  exact find_eq_file_iff.2 ⟨location, kept.locate located, by rw [changed, if_pos rfl]⟩

/-- What is put somewhere changes nothing for paths that lead elsewhere. -/
theorem Puts.find_file_iff {tree written : FileTree} {path other : Path} {content held : Content}
    (puts : tree.Puts path content written) (apart : tree.Apart other path) :
    written.find other = .ok (.file held) ↔ tree.find other = .ok (.file held) := by
  obtain ⟨kept, back⟩ := puts.keepsDirectories
  obtain ⟨location, there, _, _, changed⟩ := puts
  have same : ∀ place, tree.locate other = .ok place → written.get? place = tree.get? place := by
    intro place located
    rw [changed, if_neg]
    intro equal
    subst equal
    exact apart place located there
  rw [find_eq_file_iff, find_eq_file_iff]
  constructor
  · intro assumed
    obtain ⟨place, located, found⟩ := assumed
    have before := back.locate located
    exact ⟨place, before, same place before ▸ found⟩
  · intro assumed
    obtain ⟨place, located, found⟩ := assumed
    exact ⟨place, kept.locate located, (same place located).trans found⟩

theorem read_eq_ok_iff {tree : FileTree} {path : Path} {characters : String} :
    tree.read path = .ok characters ↔ tree.find path = .ok (.file (.text characters)) := by
  simp only [read, except_bind_eq_ok_iff]
  constructor
  · intro assumed
    rcases assumed with ⟨entry, found, reading⟩
    split at reading
    next => cases reading
    next =>
      cases reading
      exact found
    next => cases reading
  · intro found
    exact ⟨_, found, rfl⟩

theorem read_write {tree written : FileTree} {path : Path} {characters : String}
    (success : tree.write path (.text characters) = .ok written) :
    written.read path = .ok characters :=
  read_eq_ok_iff.2 (puts_of_write success).find

/-! ## Making directories -/

theorem makeDirectory_eq_ok_iff {tree made : FileTree} {path : Path} :
    tree.makeDirectory path = .ok made ↔
      ∃ location, tree.target path = .ok (some location) ∧ tree.get? location = none ∧
        made = tree.put location .directory := by
  simp only [makeDirectory, except_bind_eq_ok_iff]
  constructor
  · intro assumed
    rcases assumed with ⟨found, targeted, making⟩
    cases found with
    | none => cases making
    | some location =>
      cases held : tree.get? location with
      | some entry => simp [held] at making
      | none =>
        simp only [held] at making
        cases making
        exact ⟨location, targeted, held, rfl⟩
  · intro assumed
    rcases assumed with ⟨location, targeted, missing, rfl⟩
    exact ⟨some location, targeted, by simp [missing, pure, Except.pure]⟩

section
variable (related : FileTree → FileTree → Prop) (refl : ∀ tree, related tree tree)
  (trans : ∀ first second third, related first second → related second third →
    related first third)
  (step : ∀ tree path made, tree.makeDirectory path = .ok made → related tree made)
include refl step

private theorem makeInnermost_related {tree made : FileTree} {paths missing : List Path}
    (success : tree.makeInnermost paths = .ok (made, missing)) : related tree made := by
  induction paths generalizing missing with
  | nil =>
    cases success
    exact refl tree
  | cons path outer ih =>
    simp only [makeInnermost] at success
    split at success
    next made making =>
      cases success
      exact step tree path _ making
    next =>
      split at success
      next inner =>
        cases success
        exact ih inner
      next => cases success
    next =>
      split at success
      next =>
        cases success
        exact refl tree
      next => cases success
    next => cases success

include trans

private theorem makeAll_related (tree : FileTree) (paths : List Path) :
    related tree (tree.makeAll paths).1 := by
  induction paths generalizing tree with
  | nil => exact refl tree
  | cons path inner ih =>
    simp only [makeAll]
    split
    next made making => exact trans _ _ _ (step tree path made making) (ih made)
    next =>
      split
      next => exact ih tree
      next => exact refl tree
    next => exact refl tree

/-- What making one directory keeps, making a directory with those above it keeps. -/
theorem makeDirectories_related (tree : FileTree) (path : Path) :
    related tree (tree.makeDirectories path).1 := by
  simp only [makeDirectories]
  split
  next => exact refl tree
  next made missing success =>
    exact trans _ _ _ (makeInnermost_related related refl step success)
      (makeAll_related related refl trans step made missing.reverse)

end

theorem extends_makeDirectories (tree : FileTree) (path : Path) :
    tree.Extends (tree.makeDirectories path).1 := by
  refine makeDirectories_related Extends Extends.refl (fun _ _ _ => Extends.trans) ?_ tree path
  intro tree path made making
  obtain ⟨location, _, missing, rfl⟩ := makeDirectory_eq_ok_iff.1 making
  exact extends_put_directory missing

/-! ## Keeping a tree without loose ends -/

theorem mem_putEntry {location place : Location} {entry : FileEntry}
    {entries : List (Location × FileEntry)} :
    place ∈ (putEntry location entry entries).map (·.1) ↔
      place = location ∨ place ∈ entries.map (·.1) := by
  induction entries with
  | nil => simp [putEntry]
  | cons first entries ih =>
    rw [putEntry]
    split
    next same => simp [same]
    next => rw [List.map_cons, List.mem_cons, ih, List.map_cons, List.mem_cons, or_left_comm]

theorem nodup_putEntry {location : Location} {entry : FileEntry}
    {entries : List (Location × FileEntry)} (unique : (entries.map (·.1)).Nodup) :
    ((putEntry location entry entries).map (·.1)).Nodup := by
  induction entries with
  | nil => simp [putEntry]
  | cons first entries ih =>
    rw [List.map_cons, List.nodup_cons] at unique
    rw [putEntry]
    split
    next same =>
      rw [List.map_cons, List.nodup_cons]
      exact ⟨same ▸ unique.1, unique.2⟩
    next other =>
      rw [List.map_cons, List.nodup_cons, mem_putEntry, not_or]
      exact ⟨⟨other, unique.1⟩, ih unique.2⟩

theorem WellFormed.put {tree : FileTree} (wellFormed : tree.WellFormed) {location : Location}
    {entry : FileEntry} (inside : tree.get? location.dropLast = some .directory)
    (kept : tree.KeepsDirectories (tree.put location entry)) :
    (tree.put location entry).WellFormed := by
  refine ⟨nodup_putEntry wellFormed.unique, fun place notRoot held => ?_⟩
  apply kept.directory
  rw [get?_put, if_neg notRoot] at held
  split at held
  next same => exact same ▸ inside
  next => exact wellFormed.nested place notRoot held

theorem WellFormed.write {tree written : FileTree} (wellFormed : tree.WellFormed) {path : Path}
    {content : Content} (success : tree.write path content = .ok written) :
    written.WellFormed := by
  obtain ⟨location, opening, rfl⟩ := write_eq_ok_iff.1 success
  obtain ⟨targeted, _, notDirectory⟩ := opened_eq_ok_iff.1 opening
  exact wellFormed.put (target_inside targeted).2 (keepsDirectories_put_file notDirectory content)

theorem WellFormed.makeDirectories {tree : FileTree} (wellFormed : tree.WellFormed) (path : Path) :
    (tree.makeDirectories path).1.WellFormed := by
  refine makeDirectories_related (fun before after => before.WellFormed → after.WellFormed)
    (fun _ => id) (fun _ _ _ first second => second ∘ first) ?_ tree path wellFormed
  intro tree path made making wellFormed
  obtain ⟨location, targeted, missing, rfl⟩ := makeDirectory_eq_ok_iff.1 making
  exact wellFormed.put (target_inside targeted).2 (extends_put_directory missing).keepsDirectories

/-! ## Stepping back -/

/-- A path steps back only out of places that there are: no two dots in it follow a place that
holds nothing. -/
def Settled (tree : FileTree) (path : Path) : Prop :=
  ∀ front back, path.pieces = front ++ ['.', '.'] :: back →
    tree.follow (tree.start path) (front ++ [['.', '.']]) ≠ .error .notFound

theorem Settled.changed {tree changed : FileTree} {path : Path} (settled : tree.Settled path)
    (workDirectory : changed.workDirectory = tree.workDirectory)
    (lost : ∀ place pieces, changed.follow place pieces = .error .notFound →
      tree.follow place pieces = .error .notFound) : changed.Settled path := by
  intro front back shape missing
  apply settled front back shape
  apply lost
  simpa only [start, workDirectory] using missing

theorem Settled.extends {tree changed : FileTree} {path : Path} (settled : tree.Settled path)
    (grown : tree.Extends changed) : changed.Settled path := by
  refine settled.changed grown.workDirectory fun place pieces missing => ?_
  cases followed : tree.follow place pieces with
  | ok last =>
    rw [grown.keepsDirectories.follow followed] at missing
    cases missing
  | error fault =>
    by_cases same : fault = .notFound
    · rw [same]
    · rw [grown.follow_error followed same] at missing
      cases missing
      exact absurd rfl same

theorem Settled.write {tree written : FileTree} {path other : Path} (settled : tree.Settled other)
    {content : Content} (success : tree.write path content = .ok written) :
    written.Settled other := by
  obtain ⟨location, opening, rfl⟩ := write_eq_ok_iff.1 success
  obtain ⟨targeted, _, notDirectory⟩ := opened_eq_ok_iff.1 opening
  have kept := keepsDirectories_put_file notDirectory content
  have back := keepsDirectories_of_put_file tree location content
  refine settled.changed rfl fun place pieces missing => ?_
  obtain ⟨front, others, last, rfl, nonempty, followed, absent⟩ := follow_eq_notFound missing
  obtain ⟨piece, others, rfl⟩ := List.exists_cons_of_ne_nil nonempty
  have before := back.follow followed
  have nothing : tree.get? last = none := by
    by_cases same : last = location
    · subst same
      rw [tree.get?_put_self (target_inside targeted).1] at absent
      cases absent
    · rwa [tree.get?_put_of_ne same] at absent
  rw [follow_append, before]
  simp [Except.bind, follow, enter, nothing, bind]

/-- Where a path leads only once directories are made, there is nothing before. -/
theorem Extends.missing_of_lost {tree changed : FileTree} (grown : tree.Extends changed)
    (wellFormed : tree.WellFormed) {path : Path} {fault : FileFault} (settled : tree.Settled path)
    (lost : tree.follow (tree.start path) path.pieces = .error fault) {last : Location}
    (found : changed.follow (tree.start path) path.pieces = .ok last) :
    tree.get? last = none := by
  by_cases same : fault = .notFound
  · subst same
    obtain ⟨front, back, place, whole, _, followed, missing⟩ := follow_eq_notFound lost
    rw [whole] at found
    obtain ⟨middle, before, after⟩ := follow_append_eq_ok_iff.1 found
    rw [grown.keepsDirectories.follow followed] at before
    cases before
    -- Two dots behind the break would step back out of a place that holds nothing.
    have notAbove : ['.', '.'] ∉ back := by
      intro member
      obtain ⟨first, second, rfl⟩ := List.append_of_mem member
      apply settled (front ++ first) second (by rw [whole, List.append_assoc])
      cases first with
      | nil =>
        rw [List.append_nil, follow_append, followed]
        simp [Except.bind, follow, enter, missing, bind]
      | cons piece first =>
        rw [List.append_assoc, follow_append, followed]
        simp [Except.bind, follow, enter, missing, bind]
    exact wellFormed.nothing_below (follow_below notAbove after) missing
  · rw [grown.follow_error lost same] at found
    cases found

/-! ## Listing directories -/

theorem isSome_get?_iff {tree : FileTree} {place : Location} (notRoot : place ≠ []) :
    (tree.get? place).isSome ↔ place ∈ tree.entries.map (·.1) := by
  rw [get?, if_neg notRoot]
  induction tree.entries with
  | nil => simp
  | cons first entries ih =>
    rw [lookup_entry, List.map_cons, List.mem_cons]
    split
    next same => simp [same]
    next other => simp [other, ih]

/-- The names of the entries in one place. -/
def namesIn (tree : FileTree) (place : Location) : List (List Char) :=
  (tree.entries.map (·.1)).filterMap fun location =>
    if location ≠ [] ∧ location.dropLast = place then location.getLast? else none

private theorem nameIn_iff {place location : Location} {name : List Char} :
    (if location ≠ [] ∧ location.dropLast = place then location.getLast? else none) = some name ↔
      location = place ++ [name] := by
  constructor
  · intro found
    split at found
    next inside =>
      obtain ⟨_, rfl⟩ := inside
      obtain ⟨front, rfl⟩ := List.getLast?_eq_some_iff.1 found
      simp
    next => cases found
  · intro equal
    subst equal
    simp

theorem mem_namesIn {tree : FileTree} {place : Location} {name : List Char} :
    name ∈ tree.namesIn place ↔ (tree.get? (place ++ [name])).isSome := by
  rw [isSome_get?_iff (by simp), namesIn, List.mem_filterMap]
  constructor
  · intro assumed
    rcases assumed with ⟨location, member, found⟩
    rw [nameIn_iff] at found
    exact found ▸ member
  · intro member
    exact ⟨place ++ [name], member, nameIn_iff.2 rfl⟩

theorem WellFormed.nodup_namesIn {tree : FileTree} (wellFormed : tree.WellFormed)
    (place : Location) : (tree.namesIn place).Nodup := by
  apply wellFormed.unique.filterMap
  intro location other name found again
  exact (nameIn_iff.1 found).trans (nameIn_iff.1 again).symm

theorem names_eq_ok_iff {tree : FileTree} {path : Path} {found : List (List Char)} :
    tree.names path = .ok found ↔ ∃ place, tree.locate path = .ok place ∧
      tree.get? place = some .directory ∧ found = tree.namesIn place := by
  simp only [names, except_bind_eq_ok_iff, namesIn, List.filterMap_map]
  constructor
  · intro assumed
    rcases assumed with ⟨place, located, listed⟩
    split at listed
    next => cases listed
    next => cases listed
    next directory =>
      cases listed
      exact ⟨place, located, directory, rfl⟩
  · intro assumed
    rcases assumed with ⟨place, located, directory, rfl⟩
    refine ⟨place, located, ?_⟩
    rw [directory]
    rfl

end FileTree

end GuildRoster
