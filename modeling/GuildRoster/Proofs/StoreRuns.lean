import GuildRoster.Proofs.RosterDocuments
import GuildRoster.Proofs.StoreKeys

/-!
# Stores as maps

What a store answers after rosters were saved. A save that succeeds changes the roster of its own
key and of no other; one that fails leaves every file as it was. A whole run of saves therefore acts
as the same run on a map from keys to rosters.
-/

set_option autoImplicit false

namespace GuildRoster

/-! ## Finding files -/

namespace FileTree

/-- Directories that are made add no file where a path leads. -/
theorem Extends.find_file_iff {tree changed : FileTree} (grown : tree.Extends changed)
    (wellFormed : tree.WellFormed) {path : Path} (settled : tree.Settled path)
    {content : Content} :
    changed.find path = .ok (.file content) ↔ tree.find path = .ok (.file content) := by
  rw [find_eq_file_iff, find_eq_file_iff]
  constructor
  · intro assumed
    rcases assumed with ⟨location, located, held⟩
    have before : tree.get? location = some (.file content) := grown.file_iff.1 held
    -- The path led to the same place before: a path that broke off leads to nothing there.
    obtain ⟨_, checked, followed⟩ := except_bind_eq_ok_iff.1 located
    rw [grown.keepsDirectories.start path] at followed
    cases found : tree.follow (tree.start path) path.pieces with
    | error fault =>
      rw [grown.missing_of_lost wellFormed settled found followed] at before
      cases before
    | ok other =>
      rw [grown.keepsDirectories.follow found] at followed
      cases followed
      exact ⟨location, except_bind_eq_ok_iff.2 ⟨(), checked, found⟩, before⟩
  · intro assumed
    rcases assumed with ⟨location, located, held⟩
    exact ⟨location, grown.keepsDirectories.locate located, grown.entry location _ held⟩

end FileTree

namespace Store

/-! ## Reading a roster -/

theorem fst_roster (store : Store) (key : String) (tree : FileTree) :
    (store.roster key tree).1 = (store.load tree key).toOption.getD [] := by
  unfold roster
  cases store.load tree key with
  | ok roster => rfl
  | error fault => rfl

/-- The answer for a key depends only on the file that its path leads to. -/
theorem roster_congr {store : Store} {key : String} {tree changed : FileTree}
    (same : ∀ content, changed.find (store.path key) = .ok (.file content) ↔
      tree.find (store.path key) = .ok (.file content)) :
    (store.roster key changed).1 = (store.roster key tree).1 := by
  have texts : ∀ characters, changed.read (store.path key) = .ok characters ↔
      tree.read (store.path key) = .ok characters := by
    intro characters
    rw [FileTree.read_eq_ok_iff, FileTree.read_eq_ok_iff, same]
  rw [fst_roster, fst_roster]
  unfold load
  cases before : tree.read (store.path key) with
  | ok characters => rw [(texts characters).2 before]
  | error fault =>
    cases after : changed.read (store.path key) with
    | ok characters =>
      rw [(texts characters).1 after] at before
      cases before
    | error cause => rfl

/-! ## One save -/

theorem save_cases (store : Store) (tree : FileTree) (key : String) (roster : Roster) :
    (∃ fault, store.save tree key roster
        = ((tree.makeDirectories store.directory).1, .error fault)) ∨
      ∃ written, (tree.makeDirectories store.directory).1.write (store.path key)
          (.text roster.write) = .ok written ∧
        store.save tree key roster = (written, .ok (store.path key)) := by
  unfold save
  cases making : tree.makeDirectories store.directory with
  | mk made outcome =>
    cases outcome with
    | error cause => exact .inl ⟨_, rfl⟩
    | ok nothing =>
      cases writing : made.write (store.path key) (.text roster.write) with
      | error cause => exact .inl ⟨.write (store.path key) cause, by simp [writing]⟩
      | ok written => exact .inr ⟨written, rfl, by simp [writing]⟩

theorem save_eq_ok {store : Store} {tree : FileTree} {key : String} {roster : Roster}
    {path : Path} (success : (store.save tree key roster).2 = .ok path) :
    (tree.makeDirectories store.directory).1.write (store.path key) (.text roster.write)
      = .ok (store.save tree key roster).1 := by
  rcases store.save_cases tree key roster with ⟨fault, failed⟩ | ⟨written, writing, saved⟩
  · rw [failed] at success
    cases success
  · rw [saved]
    exact writing

theorem save_eq_error {store : Store} {tree : FileTree} {key : String} {roster : Roster}
    {fault : StoreFault} (failure : (store.save tree key roster).2 = .error fault) :
    (store.save tree key roster).1 = (tree.makeDirectories store.directory).1 := by
  rcases store.save_cases tree key roster with ⟨_, failed⟩ | ⟨written, _, saved⟩
  · rw [failed]
  · rw [saved] at failure
    cases failure

theorem load_of_read {store : Store} {tree : FileTree} {key : String} {roster : Roster}
    (reading : tree.read (store.path key) = .ok roster.write) :
    store.load tree key = .ok roster := by
  simp only [load, reading, Roster.read_write]

/-- A roster that was saved is loaded again. -/
theorem load_of_save {store : Store} {tree : FileTree} {key : String} {roster : Roster}
    {path : Path} (success : (store.save tree key roster).2 = .ok path) :
    store.load (store.save tree key roster).1 key = .ok roster :=
  load_of_read (FileTree.read_write (save_eq_ok success))

/-- Every roster reads back from its document, and a store that saved it loads it. -/
theorem save_then_load (roster : Roster) :
    Roster.read roster.write = .ok roster ∧
      ∀ (store : Store) (tree : FileTree) (key : String) (path : Path),
        (store.save tree key roster).2 = .ok path →
        store.load (store.save tree key roster).1 key = .ok roster := by
  constructor
  · exact Roster.read_write roster
  · intro store tree key path success
    exact load_of_save success

theorem save_then_load_quoted :
    (Store.save ⟨⟨['r']⟩⟩ {} "week" [{ name := "Zoë \"the\\axe\"", level := Int64.minValue }]).2
        = .ok ((Store.mk ⟨['r']⟩).path "week") ∧
      Store.load ⟨⟨['r']⟩⟩
        (Store.save ⟨⟨['r']⟩⟩ {} "week"
          [{ name := "Zoë \"the\\axe\"", level := Int64.minValue }]).1 "week"
        = .ok [{ name := "Zoë \"the\\axe\"", level := Int64.minValue }] :=
  ⟨rfl, (save_then_load _).2 ⟨⟨['r']⟩⟩ {} "week" _ rfl⟩

/-- What holds once the directory is made and still when the file is written holds after a save. -/
theorem save_of_steps (store : Store) {tree : FileTree} {key : String} {roster : Roster}
    (holds : FileTree → Prop) (made : holds (tree.makeDirectories store.directory).1)
    (write : ∀ written, (tree.makeDirectories store.directory).1.write (store.path key)
      (.text roster.write) = .ok written → holds written) :
    holds (store.save tree key roster).1 := by
  rcases store.save_cases tree key roster with ⟨fault, failed⟩ | ⟨written, writing, saved⟩
  · rw [failed]
    exact made
  · rw [saved]
    exact write written writing

theorem save_wellFormed (store : Store) {tree : FileTree} (wellFormed : tree.WellFormed)
    (key : String) (roster : Roster) : (store.save tree key roster).1.WellFormed := by
  have made := wellFormed.makeDirectories store.directory
  exact store.save_of_steps FileTree.WellFormed made fun _ writing => made.write writing

theorem save_settled (store : Store) {tree : FileTree} {path : Path} (settled : tree.Settled path)
    (key : String) (roster : Roster) : (store.save tree key roster).1.Settled path := by
  have made := settled.extends (tree.extends_makeDirectories store.directory)
  exact store.save_of_steps (·.Settled path) made fun _ writing => made.write writing

/-- A save that fails leaves every file as it was. -/
theorem save_error_keeps_files {store : Store} {tree : FileTree} {key : String} {roster : Roster}
    {fault : StoreFault} (failure : (store.save tree key roster).2 = .error fault)
    {location : Location} {content : Content}
    (held : tree.get? location = some (.file content)) :
    (store.save tree key roster).1.get? location = some (.file content) := by
  rw [save_eq_error failure]
  exact (tree.extends_makeDirectories store.directory).entry location _ held

/-! ## Paths of different keys -/

theorem path_apart (store : Store) (tree : FileTree) {key other : String}
    (noSlash : '/' ∉ key.toList) (alsoNoSlash : '/' ∉ other.toList) (different : key ≠ other) :
    tree.Apart (store.path key) (store.path other) :=
  FileTree.apart_of_names
    ((store.start_path tree noSlash).trans (store.start_path tree alsoNoSlash).symm)
    (store.pieces_path noSlash) (store.pieces_path alsoNoSlash) (isName_fileName key)
    (isName_fileName other)
    fun same => different (fileName_injective same)

theorem settled_path {store : Store} {tree : FileTree} (settled : tree.Settled store.directory)
    {key : String} (noSlash : '/' ∉ key.toList) : tree.Settled (store.path key) := by
  intro front back shape
  have named := isName_fileName key
  rw [store.pieces_path noSlash] at shape
  obtain ⟨middle, leading⟩ : ∃ middle, store.leading = front ++ ['.', '.'] :: middle := by
    induction back using List.reverseRecOn with
    | nil =>
      have same := (List.append_inj' shape rfl).2
      simp only [List.cons.injEq, and_true] at same
      exact absurd same named.2.2
    | append_singleton middle last _ =>
      rw [← List.cons_append, ← List.append_assoc] at shape
      exact ⟨middle, (List.append_inj' shape rfl).1⟩
  have nonempty : store.directory.characters ≠ [] := by
    intro empty
    simp [Store.leading, empty] at leading
  rw [store.start_path tree noSlash]
  rcases store.pieces_directory nonempty with same | same
  · exact settled front middle (same.trans leading)
  · apply settled front (middle ++ [[]])
    rw [same, leading, List.append_assoc, List.cons_append]

/-- What a store answers after a save. -/
theorem roster_save {store : Store} {tree : FileTree} (wellFormed : tree.WellFormed)
    (settled : tree.Settled store.directory) {key other : String} (noSlash : '/' ∉ key.toList)
    (alsoNoSlash : '/' ∉ other.toList) (roster : Roster) :
    (store.roster other (store.save tree key roster).1).1 =
      if (store.save tree key roster).2.isOk ∧ other = key then roster
      else (store.roster other tree).1 := by
  have grown := tree.extends_makeDirectories store.directory
  have made : (store.roster other (tree.makeDirectories store.directory).1).1
      = (store.roster other tree).1 :=
    roster_congr fun _ => grown.find_file_iff wellFormed (settled_path settled alsoNoSlash)
  cases outcome : (store.save tree key roster).2 with
  | error fault =>
    rw [save_eq_error outcome, made]
    simp [Except.isOk, Except.toBool]
  | ok path =>
    by_cases same : other = key
    · subst same
      rw [fst_roster, load_of_save outcome]
      simp [Except.isOk, Except.toBool, Except.toOption]
    · rw [if_neg fun both => same both.2, ← made]
      apply roster_congr
      intro content
      exact (FileTree.puts_of_write (save_eq_ok outcome)).find_file_iff
        (store.path_apart _ alsoNoSlash noSlash same)

/-! ## Keys after a save -/

theorem save_keepsDirectories (store : Store) (tree : FileTree) (key : String) (roster : Roster) :
    tree.KeepsDirectories (store.save tree key roster).1 := by
  have kept := (tree.extends_makeDirectories store.directory).keepsDirectories
  refine store.save_of_steps tree.KeepsDirectories kept fun written writing => ?_
  obtain ⟨location, opening, rfl⟩ := FileTree.write_eq_ok_iff.1 writing
  obtain ⟨_, _, notDirectory⟩ := FileTree.opened_eq_ok_iff.1 opening
  exact kept.trans (FileTree.keepsDirectories_put_file notDirectory _)

theorem isSome_get?_save (store : Store) {tree : FileTree} {place : Location}
    (present : (tree.get? place).isSome) (key : String) (roster : Roster) :
    ((store.save tree key roster).1.get? place).isSome := by
  have made := (tree.extends_makeDirectories store.directory).isSome_get? present
  refine store.save_of_steps (fun changed => (changed.get? place).isSome) made
    fun written writing => ?_
  obtain ⟨location, _, rfl⟩ := FileTree.write_eq_ok_iff.1 writing
  exact FileTree.isSome_get?_put made location _

theorem mem_keys_save {store : Store} {tree : FileTree} {key : String}
    (member : key ∈ (store.keys tree).1) (other : String) (roster : Roster) :
    key ∈ (store.keys (store.save tree other roster).1).1 := by
  have kept := store.save_keepsDirectories tree other roster
  obtain ⟨nonempty, place, located, directory, held⟩ := mem_keys.1 member
  exact mem_keys.2 ⟨nonempty, place, kept.locate located, kept.directory place directory,
    store.isSome_get?_save held other roster⟩

/-- The key of a roster that was saved is listed. -/
theorem mem_keys_of_save {store : Store} (named : store.directory.characters ≠ [])
    {tree : FileTree} {key : String} (plain : PlainKey key) {roster : Roster} {path : Path}
    (success : (store.save tree key roster).2 = .ok path) :
    key ∈ (store.keys (store.save tree key roster).1).1 := by
  obtain ⟨location, opening, written⟩ := FileTree.write_eq_ok_iff.1 (save_eq_ok success)
  obtain ⟨targeted, _, notDirectory⟩ := FileTree.opened_eq_ok_iff.1 opening
  have kept := FileTree.keepsDirectories_put_file notDirectory (.text roster.write)
  have located := FileTree.locate_of_opened opening
  obtain ⟨_, checked, _⟩ := except_bind_eq_ok_iff.1 located
  obtain ⟨place, followed, directory, rfl⟩ :=
    FileTree.locate_name (store.pieces_path plain.noSlash) (isName_fileName key) located
  rw [store.start_path _ plain.noSlash] at followed
  rw [written]
  refine mem_keys.2 ⟨plain.nonempty, place, kept.locate ?_, kept.directory place directory, ?_⟩
  · refine except_bind_eq_ok_iff.2
      ⟨(), store.check_directory plain.noSlash named checked, ?_⟩
    rcases store.pieces_directory named with same | same
    · rw [same]
      exact followed
    · rw [same]
      refine FileTree.follow_append_eq_ok_iff.2 ⟨place, followed, ?_⟩
      rw [FileTree.follow_singleton]
      simp [FileTree.enter, directory]
  · simp [FileTree.get?_put]

/-! ## Runs of saves -/

/-- The tree after rosters were saved under their keys one after the other. -/
def saveAll (store : Store) : FileTree → List (String × Roster) → FileTree
  | tree, [] => tree
  | tree, save :: saves => store.saveAll (store.save tree save.1 save.2).1 saves

/-- Those saves of a run that succeed. -/
def succeeding (store : Store) : FileTree → List (String × Roster) → List (String × Roster)
  | _, [] => []
  | tree, save :: saves =>
    if (store.save tree save.1 save.2).2.isOk then
      save :: store.succeeding (store.save tree save.1 save.2).1 saves
    else store.succeeding (store.save tree save.1 save.2).1 saves

theorem saveAll_wellFormed (store : Store) {tree : FileTree} (wellFormed : tree.WellFormed)
    (saves : List (String × Roster)) : (store.saveAll tree saves).WellFormed := by
  induction saves generalizing tree with
  | nil => exact wellFormed
  | cons save saves ih => exact ih (store.save_wellFormed wellFormed save.1 save.2)

/-- After a run, a store answers with the roster saved last, and with what it answered before where
no save succeeded. -/
theorem roster_saveAll {store : Store} {tree : FileTree} (wellFormed : tree.WellFormed)
    (settled : tree.Settled store.directory) {saves : List (String × Roster)}
    (noSlash : ∀ save ∈ saves, '/' ∉ save.1.toList) {key : String}
    (alsoNoSlash : '/' ∉ key.toList) :
    (store.roster key (store.saveAll tree saves)).1 =
      ((store.succeeding tree saves).reverse.lookup key).getD (store.roster key tree).1 := by
  induction saves generalizing tree with
  | nil => rfl
  | cons save saves ih =>
    have step := roster_save wellFormed settled (noSlash save List.mem_cons_self) alsoNoSlash
      save.2
    have rest := ih (store.save_wellFormed wellFormed save.1 save.2)
      (store.save_settled settled save.1 save.2)
      fun other member => noSlash other (List.mem_cons_of_mem save member)
    obtain ⟨saved, roster⟩ := save
    -- A key that no later save succeeds under keeps what this save left it with.
    rw [saveAll, rest, step, succeeding]
    by_cases success : (store.save tree saved roster).2.isOk
    · rw [if_pos success, List.reverse_cons, List.lookup_append]
      by_cases same : key = saved
      · cases (store.succeeding (store.save tree saved roster).1 saves).reverse.lookup key with
        | none => simp [same, success]
        | some later => rfl
      · simp [same, List.lookup_cons, beq_false_of_ne same]
    · simp [success]

theorem mem_keys_saveAll {store : Store} {tree : FileTree} {key : String}
    (member : key ∈ (store.keys tree).1) (saves : List (String × Roster)) :
    key ∈ (store.keys (store.saveAll tree saves)).1 := by
  induction saves generalizing tree with
  | nil => exact member
  | cons save saves ih => exact ih (mem_keys_save member save.1 save.2)

theorem mem_keys_of_succeeding {store : Store} (named : store.directory.characters ≠ [])
    {tree : FileTree} {saves : List (String × Roster)}
    (plain : ∀ save ∈ saves, PlainKey save.1) {save : String × Roster}
    (success : save ∈ store.succeeding tree saves) :
    save.1 ∈ (store.keys (store.saveAll tree saves)).1 := by
  induction saves generalizing tree with
  | nil => cases success
  | cons first saves ih =>
    have others : ∀ save ∈ saves, PlainKey save.1 :=
      fun save member => plain save (List.mem_cons_of_mem first member)
    cases outcome : (store.save tree first.1 first.2).2 with
    | error fault =>
      rw [succeeding, outcome] at success
      exact ih others success
    | ok path =>
      rw [succeeding, outcome] at success
      cases success with
      | head =>
        have listed := mem_keys_of_save named (plain save List.mem_cons_self) outcome
        exact mem_keys_saveAll listed saves
      | tail _ later => exact ih others later

/-- A store acts as a map from plain keys to rosters. -/
theorem saveAll_refines_map (store : Store) (tree : FileTree) (wellFormed : tree.WellFormed)
    (saves : List (String × Roster)) (plain : ∀ save ∈ saves, PlainKey save.1) :
    (tree.Settled store.directory → ∀ key, PlainKey key →
      (store.roster key (store.saveAll tree saves)).1 =
        ((store.succeeding tree saves).reverse.lookup key).getD (store.roster key tree).1) ∧
    (∀ earlier key roster later fault, saves = earlier ++ (key, roster) :: later →
      (store.save (store.saveAll tree earlier) key roster).2 = .error fault →
      ∀ location content, (store.saveAll tree earlier).get? location = some (.file content) →
        (store.save (store.saveAll tree earlier) key roster).1.get? location
          = some (.file content)) ∧
    ((store.keys (store.saveAll tree saves)).1.Pairwise
      fun left right => Text.encode left < Text.encode right) ∧
    (∀ key, key ∈ (store.keys (store.saveAll tree saves)).1 ↔
      key ≠ "" ∧ ∃ place, (store.saveAll tree saves).locate store.directory = .ok place ∧
        (store.saveAll tree saves).get? place = some .directory ∧
        ((store.saveAll tree saves).get? (place ++ [fileName key])).isSome) ∧
    (store.directory.characters ≠ [] → ∀ save ∈ store.succeeding tree saves,
      save.1 ∈ (store.keys (store.saveAll tree saves)).1) := by
  refine ⟨?answers, ?failures, ?order, fun key => mem_keys, ?listed⟩
  case answers =>
    intro settled key plainKey
    exact roster_saveAll wellFormed settled (fun save member => (plain save member).noSlash)
      plainKey.noSlash
  case failures =>
    intro earlier key roster later fault _ failure location content held
    exact save_error_keeps_files failure held
  case order => exact store.keys_ascending (store.saveAll_wellFormed wellFormed saves)
  case listed =>
    intro named save success
    exact mem_keys_of_succeeding named plain success

private theorem empty_wellFormed : FileTree.WellFormed {} :=
  ⟨List.nodup_nil, fun place notRoot held => by simp [FileTree.get?, notRoot] at held⟩

private theorem plainKey_k : PlainKey "k" := ⟨by decide, by decide, by decide, by decide⟩

theorem saveAll_refines_map_twice :
    (Store.roster ⟨⟨['r']⟩⟩ "k" (Store.saveAll ⟨⟨['r']⟩⟩ {} [("k", []), ("k", [{}])])).1 = [{}] ∧
      "k" ∈ (Store.keys ⟨⟨['r']⟩⟩ (Store.saveAll ⟨⟨['r']⟩⟩ {} [("k", []), ("k", [{}])])).1 := by
  have plain : ∀ save ∈ [("k", ([] : Roster)), ("k", [{}])], PlainKey save.1 := by
    intro save member
    simp only [List.mem_cons, List.not_mem_nil, or_false] at member
    rcases member with rfl | rfl
    · exact plainKey_k
    · exact plainKey_k
  have succeeds : Store.succeeding ⟨⟨['r']⟩⟩ {} [("k", []), ("k", [{}])]
      = [("k", []), ("k", [{}])] := by
    rfl
  have settled : FileTree.Settled {} ⟨['r']⟩ := by
    intro front back shape
    have member : ['.', '.'] ∈ Path.pieces ⟨['r']⟩ := by
      rw [shape]
      simp
    exact absurd member (by decide)
  obtain ⟨answers, _, _, _, listed⟩ :=
    saveAll_refines_map ⟨⟨['r']⟩⟩ {} empty_wellFormed [("k", []), ("k", [{}])] plain
  constructor
  · rw [answers settled "k" plainKey_k, succeeds]
    rfl
  · apply listed (by decide) ("k", [])
    rw [succeeds]
    simp

/-- A file in a directory that the store below reaches by way of another one. -/
def detourTree : FileTree where
  entries := [([['y']], .directory), ([['y'], fileName "k"], .file (.text (Roster.write [{}])))]

def detourStore : Store := ⟨⟨['x', '/', '.', '.', '/', 'y']⟩⟩

/-- A store at the empty path saves rosters and lists none. A store whose path steps back out of a
missing directory finds the files behind it once a save has made that directory. -/
theorem saveAll_unlike_map :
    (PlainKey "k" ∧ FileTree.WellFormed {} ∧
      Store.succeeding ⟨⟨[]⟩⟩ {} [("k", [])] = [("k", [])] ∧
      "k" ∉ (Store.keys ⟨⟨[]⟩⟩ (Store.saveAll ⟨⟨[]⟩⟩ {} [("k", [])])).1) ∧
    (PlainKey "other" ∧ detourTree.WellFormed ∧
      detourStore.succeeding detourTree [("other", [])] = [("other", [])] ∧
      (detourStore.roster "k" detourTree).1 = [] ∧
      (detourStore.roster "k" (detourStore.saveAll detourTree [("other", [])])).1 = [{}]) := by
  have plain : PlainKey "other" := ⟨by decide, by decide, by decide, by decide⟩
  have wellFormed : detourTree.WellFormed := by
    refine ⟨by decide, fun place notRoot held => ?_⟩
    have member := (FileTree.isSome_get?_iff notRoot).1 held
    simp only [detourTree, List.map_cons, List.map_nil, List.mem_cons, List.not_mem_nil,
      or_false] at member
    rcases member with rfl | rfl
    · rfl
    · rfl
  refine ⟨⟨plainKey_k, empty_wellFormed, rfl, ?unlisted⟩,
    ⟨plain, wellFormed, rfl, rfl, ?changed⟩⟩
  case unlisted =>
    have unlisted : (Store.keys ⟨⟨[]⟩⟩ (Store.saveAll ⟨⟨[]⟩⟩ {} [("k", [])])).1 = [] := rfl
    rw [unlisted]
    exact List.not_mem_nil
  case changed =>
    have reading : (detourStore.saveAll detourTree [("other", [])]).read (detourStore.path "k")
        = .ok (Roster.write [{}]) := rfl
    rw [fst_roster, load_of_read reading]
    rfl

end Store

end GuildRoster
