import GuildRoster.Proofs.ByteOrder
import GuildRoster.Proofs.FileTreeLaws
import GuildRoster.Proofs.PathLaws
import GuildRoster.Store

/-!
# Keys and their files

The path of a key leads to an entry of the store's directory, and the name of the entry gives the
key back. So the keys that a store lists are the keys whose files lie in its directory, each once
and in the order of their bytes.
-/

set_option autoImplicit false

namespace GuildRoster

namespace Store

/-- The name of the file of a key. -/
def fileName (key : String) : List Char := key.toList ++ ['.'] ++ extension

/-- A key that can name a file: neither empty nor too long, and without the two characters that no
name contains. -/
structure PlainKey (key : String) : Prop where
  nonempty : key ≠ ""
  noSlash : '/' ∉ key.toList
  noNull : '\x00' ∉ key.toList
  short : Text.byteLength (fileName key) ≤ 255

theorem fileName_injective {key other : String} (same : fileName key = fileName other) :
    key = other := by
  simp only [fileName, List.append_assoc] at same
  exact String.toList_inj.1 (List.append_cancel_right same)

theorem noSlash_fileName {key : String} (noSlash : '/' ∉ key.toList) : '/' ∉ fileName key := by
  simp [fileName, extension, noSlash]

theorem isName_fileName (key : String) : FileTree.IsName (fileName key) :=
  FileTree.isName_of_long (by simp [fileName, extension])

/-! ## The path of a key -/

/-- The pieces of the path of every key before the name of its file. -/
def leading (store : Store) : List (List Char) :=
  if store.directory.characters = [] then []
  else if store.directory.characters.getLast? = some '/' then store.directory.pieces.dropLast
  else store.directory.pieces

private theorem relative_fileName {key : String} (noSlash : '/' ∉ key.toList) :
    Path.isAbsolute ⟨fileName key⟩ = false := by
  have absent := noSlash_fileName noSlash
  cases shape : fileName key with
  | nil => rfl
  | cons first rest =>
    rw [shape, List.mem_cons, not_or] at absent
    simpa [Path.isAbsolute] using Ne.symm absent.1

private theorem path_characters (store : Store) {key : String}
    (relative : Path.isAbsolute ⟨fileName key⟩ = false) :
    (store.path key).characters =
      if store.directory.characters = [] ∨ store.directory.characters.getLast? = some '/' then
        store.directory.characters ++ fileName key
      else store.directory.characters ++ ['/'] ++ fileName key := by
  change (store.directory.join ⟨fileName key⟩).characters = _
  simp only [Path.join, relative, Bool.false_eq_true, if_false]
  split <;> rfl

theorem pieces_of_relative (store : Store) {key : String}
    (relative : Path.isAbsolute ⟨fileName key⟩ = false) :
    (store.path key).pieces = store.leading ++ Text.splitAt '/' (fileName key) := by
  simp only [Path.pieces, leading, path_characters store relative]
  by_cases empty : store.directory.characters = []
  · simp [empty]
  · by_cases slash : store.directory.characters.getLast? = some '/'
    · obtain ⟨front, shape⟩ := List.getLast?_eq_some_iff.1 slash
      simp [shape, Text.splitAt_append, Text.splitAt]
    · simp [empty, slash, Text.splitAt_append]

theorem pieces_path (store : Store) {key : String} (noSlash : '/' ∉ key.toList) :
    (store.path key).pieces = store.leading ++ [fileName key] := by
  rw [store.pieces_of_relative (relative_fileName noSlash),
    Text.splitAt_of_not_mem (noSlash_fileName noSlash)]

theorem pieces_directory (store : Store) (nonempty : store.directory.characters ≠ []) :
    store.directory.pieces = store.leading ∨ store.directory.pieces = store.leading ++ [[]] := by
  simp only [leading, nonempty, if_false]
  split
  next slash =>
    obtain ⟨front, shape⟩ := List.getLast?_eq_some_iff.1 slash
    simp [Path.pieces, shape, Text.splitAt_append, Text.splitAt]
  next => exact .inl rfl

theorem start_of_relative (store : Store) (tree : FileTree) {key : String}
    (relative : Path.isAbsolute ⟨fileName key⟩ = false) :
    tree.start (store.path key) = tree.start store.directory := by
  have same : (store.path key).isAbsolute = store.directory.isAbsolute := by
    rw [Path.isAbsolute, path_characters store relative]
    cases shape : store.directory.characters with
    | nil => simpa [Path.isAbsolute, shape] using relative
    | cons first rest =>
      rw [Path.isAbsolute, shape]
      split <;> rfl
  simp only [FileTree.start, same]

theorem start_path (store : Store) (tree : FileTree) {key : String} (noSlash : '/' ∉ key.toList) :
    tree.start (store.path key) = tree.start store.directory :=
  store.start_of_relative tree (relative_fileName noSlash)

theorem check_directory (store : Store) {key : String} (noSlash : '/' ∉ key.toList)
    (nonempty : store.directory.characters ≠ [])
    (checked : FileTree.check (store.path key) = .ok ()) :
    FileTree.check store.directory = .ok () := by
  rw [FileTree.check_eq_ok_iff, path_characters store (relative_fileName noSlash)] at checked
  rw [FileTree.check_eq_ok_iff]
  obtain ⟨noNull, _, short⟩ := checked
  refine ⟨fun null => noNull ?_, nonempty, Nat.lt_of_le_of_lt ?_ short⟩
  · split <;> simp [null]
  · split <;> simp only [Text.byteLength_append] <;> omega

/-! ## The key of a name -/

theorem key?_eq_some_iff {name : List Char} {key : String} :
    key? name = some key ↔ key ≠ "" ∧ name = fileName key := by
  have ending : '.' ∉ extension := by decide
  have split : key? name = some key ↔ Path.splitName name = (key.toList, some extension) := by
    simp only [key?]
    split
    next found =>
      rw [Option.some.injEq, Prod.ext_iff, ← String.toList_inj, String.toList_ofList]
      simp [found]
    next other => simp [Prod.ext_iff, other]
  rw [split, Path.splitName_eq_some_iff]
  simp [fileName, ending, and_comm]

theorem key?_injective {name other : List Char} {key : String} (found : key? name = some key)
    (again : key? other = some key) : name = other :=
  (key?_eq_some_iff.1 found).2.trans (key?_eq_some_iff.1 again).2.symm

/-! ## The keys of a store -/

/-- The keys of a store are the keys whose files are entries of its directory. -/
theorem mem_keys {store : Store} {tree : FileTree} {key : String} :
    key ∈ (store.keys tree).1 ↔ key ≠ "" ∧ ∃ place, tree.locate store.directory = .ok place ∧
      tree.get? place = some .directory ∧ (tree.get? (place ++ [fileName key])).isSome := by
  simp only [keys]
  constructor
  · intro member
    split at member
    next names listed =>
      obtain ⟨place, located, directory, rfl⟩ := FileTree.names_eq_ok_iff.1 listed
      rw [Source.sortKeys, List.mem_mergeSort, List.mem_filterMap] at member
      obtain ⟨name, present, found⟩ := member
      obtain ⟨nonempty, rfl⟩ := key?_eq_some_iff.1 found
      exact ⟨nonempty, place, located, directory, FileTree.mem_namesIn.1 present⟩
    next => cases member
  · intro assumed
    rcases assumed with ⟨nonempty, place, located, directory, held⟩
    rw [FileTree.names_eq_ok_iff.2 ⟨place, located, directory, rfl⟩]
    change key ∈ Source.sortKeys _
    rw [Source.sortKeys, List.mem_mergeSort, List.mem_filterMap]
    exact ⟨fileName key, FileTree.mem_namesIn.2 held, key?_eq_some_iff.2 ⟨nonempty, rfl⟩⟩

private theorem sortKeys_ascending {keys : List String} (unique : keys.Nodup) :
    (Source.sortKeys keys).Pairwise (· < ·) := by
  have sorted : (Source.sortKeys keys).Pairwise (· ≤ ·) := by
    have ordered : (Source.sortKeys keys).Pairwise fun left right =>
        decide (left ≤ right) = true := List.pairwise_mergeSort
      (fun left middle right first second => by
        simpa using String.le_trans (by simpa using first) (by simpa using second))
      (fun left right => by simpa using String.le_total left right) keys
    simpa using ordered
  have distinct : (Source.sortKeys keys).Nodup := (List.mergeSort_perm keys _).nodup_iff.2 unique
  refine sorted.imp₂ (fun left right below other => ?_) distinct
  apply String.not_le.1
  intro above
  exact other (String.le_antisymm below above)

/-- The keys ascend in the order of their bytes, so none comes twice. -/
theorem keys_ascending (store : Store) {tree : FileTree} (wellFormed : tree.WellFormed) :
    (store.keys tree).1.Pairwise fun left right => Text.encode left < Text.encode right := by
  simp only [Text.encode_lt_iff, keys]
  split
  next names listed =>
    obtain ⟨place, _, _, rfl⟩ := FileTree.names_eq_ok_iff.1 listed
    apply sortKeys_ascending
    exact (wellFormed.nodup_namesIn place).filterMap fun _ _ _ => key?_injective
  next => exact List.Pairwise.nil

end Store

end GuildRoster
