import GuildRoster.Proofs.BlockFiles
import GuildRoster.Proofs.PathParts

/-!
# Names of destinations

What exports make of the path that the user chose. A path without an extension gets one behind the
name of its file, in the same directory. The pictures of a path that has the extension for pictures
lie beside each other: the first one at the path itself, each further one under the stem of the
name with its number.
-/

set_option autoImplicit false

namespace GuildRoster

open GuildRoster.Path (splitName)

/-! ## Completed paths -/

namespace FileKind

variable {kind : FileKind} {path : Path} {front name tail : List Char}

theorem complete_of_extension (extended : path.extension?.isSome) : kind.complete path = path :=
  if_pos extended

theorem complete_of_nameless (nameless : path.fileName? = none) : kind.complete path = path := by
  have unextended : path.extension? = none := by rw [Path.extension?, nameless, Option.bind_none]
  rw [complete, unextended, if_neg (by simp), Path.withExtension, unextended]
  simp only [Path.addExtension, nameless]

theorem extension_clean (kind : FileKind) : '.' ∉ kind.extension ∧ '/' ∉ kind.extension := by
  cases kind <;> decide

theorem complete_of_name (parts : path.Consists front name tail)
    (unextended : path.extension? = none) :
    kind.complete path = ⟨front ++ (name ++ '.' :: kind.extension)⟩ := by
  have split : splitName name = (name, none) := by
    rw [parts.extension?] at unextended
    have stem : (splitName name).1 = name :=
      Path.eq_of_splitName_eq_none (Prod.ext rfl unextended)
    exact Prod.ext stem unextended
  have some : kind.extension.isEmpty = false := by cases kind <;> rfl
  rw [complete, unextended, if_neg (by simp), Path.withExtension, unextended]
  simp only [parts.addExtension, split, some, Bool.false_eq_true, if_false, List.append_assoc]

theorem consists_complete (kind : FileKind) (parts : path.Consists front name tail)
    (unextended : path.extension? = none) :
    (kind.complete path).Consists front (name ++ '.' :: kind.extension) [] where
  characters := by rw [complete_of_name parts unextended, List.append_nil]
  front := parts.front
  isName := FileTree.isName_of_long (by cases kind <;> simp [extension])
  noSlash := by
    rw [List.mem_append, List.mem_cons, not_or, not_or]
    exact ⟨parts.noSlash, by decide, kind.extension_clean.2⟩
  tail := .nil

theorem complete_complete (kind : FileKind) (path : Path) :
    kind.complete (kind.complete path) = kind.complete path := by
  cases extended : path.extension? with
  | some ending =>
    have kept : kind.complete path = path := complete_of_extension (by simp [extended])
    rw [kept, kept]
  | none =>
    cases named : path.fileName? with
    | none => rw [complete_of_nameless named, complete_of_nameless named]
    | some name =>
      obtain ⟨front, tail, parts⟩ := Path.fileName?_eq_some_iff.1 named
      apply complete_of_extension
      rw [(consists_complete kind parts extended).extension?,
        Path.splitName_append name kind.extension_clean.1, if_neg parts.isName.1]
      rfl

end FileKind

/-! ## Numbered pictures -/

namespace Export

/-- The paths of the pictures for a path whose name has a stem: they differ from each other, lie in
the directory of the path and have the extension for pictures. The first one is the path itself, and
the name of each further one is the stem with its number. -/
structure Numbers (chosen : Path) (stem : List Char) (paths : List Path) : Prop where
  different : paths.Pairwise fun path other => path.components ≠ other.components
  parent : ∀ path ∈ paths, path.parentComponents = chosen.parentComponents
  extended : ∀ path ∈ paths, path.extension? = some FileKind.png.extension
  first : ∀ path, paths[0]? = some path → path.components = chosen.components
  further : ∀ index path, 0 < index → paths[index]? = some path →
    path.fileName? = some (stem ++ '_' :: (toString index).toList ++ '.' :: FileKind.png.extension)

variable {chosen : Path} {front name tail stem : List Char}

theorem splitName_blockEnding (nonempty : stem ≠ []) (index : Nat) :
    (splitName (stem ++ blockEnding index)).2 = some FileKind.png.extension := by
  have some : stem ++ (if index = 0 then [] else '_' :: Nat.toDigits 10 index) ≠ [] := by
    simp [nonempty]
  rw [blockEnding, ← List.append_assoc, Path.splitName_append _ FileKind.png.extension_clean.1,
    if_neg some]

theorem consists_blockPath (parts : chosen.Consists front name tail)
    (split : splitName name = (stem, some FileKind.png.extension)) (proper : stem ≠ ['.'])
    (index : Nat) :
    Path.Consists ⟨(chosen.withExtension []).characters ++ blockEnding index⟩ front
      (stem ++ blockEnding index) [] where
  characters := by
    rw [parts.withExtension split proper]
    simp
  front := parts.front
  isName := isName_append_blockEnding stem index
  noSlash := by
    obtain ⟨rfl, _, _⟩ := Path.splitName_eq_some_iff.1 split
    have plain := parts.noSlash
    rw [List.mem_append, not_or] at plain ⊢
    exact ⟨plain.1, noSlash_blockEnding index⟩
  tail := .nil

theorem numbers_blockPaths (parts : chosen.Consists front name tail)
    (split : splitName name = (stem, some FileKind.png.extension)) (proper : stem ≠ ['.'])
    (count : Nat) : Numbers chosen stem (blockPaths chosen count) := by
  obtain ⟨whole, nonempty, _⟩ := Path.splitName_eq_some_iff.1 split
  have block := consists_blockPath parts split proper
  have place : ∀ (index : Nat) (path : Path), (blockPaths chosen count)[index]? = some path →
      path.Consists front (stem ++ blockEnding index) [] := by
    intro index path found
    rw [blockPaths_eq, List.getElem?_map, Option.map_eq_some_iff] at found
    obtain ⟨_, inside, rfl⟩ := found
    obtain ⟨_, rfl⟩ := List.getElem?_eq_some_iff.1 inside
    rw [List.getElem_range]
    exact block index
  constructor
  case different =>
    rw [blockPaths_eq, List.pairwise_map]
    refine List.pairwise_lt_range.imp fun {index other} less same => ?_
    have names := congrArg List.getLast? same
    rw [(block index).components, (block other).components, List.getLast?_concat,
      List.getLast?_concat, Option.some.injEq, PathComponent.name.injEq] at names
    exact absurd (blockEnding_injective (List.append_cancel_left names)) (Nat.ne_of_lt less)
  case parent =>
    intro path listed
    obtain ⟨index, found⟩ := List.mem_iff_getElem?.1 listed
    rw [(place index path found).parentComponents, parts.parentComponents]
  case extended =>
    intro path listed
    obtain ⟨index, found⟩ := List.mem_iff_getElem?.1 listed
    rw [(place index path found).extension?, splitName_blockEnding nonempty]
  case first =>
    intro path found
    rw [(place 0 path found).components, parts.components, whole]
    rfl
  case further =>
    intro index path positive found
    rw [(place index path found).fileName?, blockEnding, if_neg (Nat.ne_of_gt positive)]
    simp

/-- Completing a path twice is completing it once. A path that has an extension or no name stays as
it is, and any other one gets the extension behind its name, in the same directory. The pictures of
a path that has the extension for pictures, and more than dots before it, are numbered. -/
theorem destinations_named (kind : FileKind) (path : Path) :
    kind.complete (kind.complete path) = kind.complete path ∧
    (path.extension?.isSome ∨ path.fileName? = none → kind.complete path = path) ∧
    (∀ name, path.fileName? = some name → path.extension? = none →
      (kind.complete path).parentComponents = path.parentComponents ∧
      (kind.complete path).fileName? = some (name ++ '.' :: kind.extension)) ∧
    ∀ chosen stem, chosen.extension? = some FileKind.png.extension → chosen.stem? = some stem →
      (∃ character ∈ stem, character ≠ '.') → ∀ count,
        (blockPaths chosen count).length = count ∧
        Numbers chosen stem (blockPaths chosen count) := by
  refine ⟨kind.complete_complete path, ?_, ?_, ?_⟩
  · rintro (extended | nameless)
    · exact FileKind.complete_of_extension extended
    · exact FileKind.complete_of_nameless nameless
  · intro name named unextended
    obtain ⟨front, tail, parts⟩ := Path.fileName?_eq_some_iff.1 named
    have completed := FileKind.consists_complete kind parts unextended
    exact ⟨completed.parentComponents.trans parts.parentComponents.symm, completed.fileName?⟩
  · rintro chosen stem extended stemmed ⟨character, member, other⟩ count
    refine ⟨length_blockPaths chosen count, ?_⟩
    obtain ⟨name, named, rfl⟩ := Option.map_eq_some_iff.1 stemmed
    obtain ⟨front, tail, parts⟩ := Path.fileName?_eq_some_iff.1 named
    refine numbers_blockPaths parts (Prod.ext rfl ?_) ?_ count
    · rw [← parts.extension?, extended]
    · intro dot
      have alone : character ∈ ['.'] := dot ▸ member
      exact other (List.mem_singleton.1 alone)

/-- A hidden file with dots behind it, and a name with a dot before its extension. -/
theorem destinations_named_dotted :
    (FileKind.csv.complete (.ofString "./out/.hidden/.")).fileName? =
      some ['.', 'h', 'i', 'd', 'd', 'e', 'n', '.', 'c', 's', 'v'] ∧
    FileKind.csv.complete (.ofString "/..") = .ofString "/.." ∧
    Numbers (.ofString "../a..png/.") ['a', '.'] (blockPaths (.ofString "../a..png/.") 12) := by
  have hidden := (destinations_named .csv (.ofString "./out/.hidden/.")).2.2.1
    ['.', 'h', 'i', 'd', 'd', 'e', 'n'] (by decide) (by decide)
  have above := (destinations_named .csv (.ofString "/..")).2.1 (.inr (by decide))
  have numbered := (destinations_named .csv (.ofString "/..")).2.2.2 (.ofString "../a..png/.")
    ['a', '.'] (by decide) (by decide) ⟨'a', by decide, by decide⟩ 12
  exact ⟨hidden.2, above, numbered.2⟩

end Export

end GuildRoster
