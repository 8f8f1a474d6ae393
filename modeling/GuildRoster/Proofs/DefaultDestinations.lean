import GuildRoster.Browser.ExportPrompt
import GuildRoster.Proofs.DestinationNames
import GuildRoster.Proofs.ImageExport

/-!
# Default destinations

Where pictures go when the suggested answer is accepted. The suggestion is the key of the roster
with the extension for pictures, unless the key has one already, and further pictures are numbered
behind the name without its extension. So the pictures of two rosters get different files just when
their names without extensions differ and neither is the other one with a number behind it.
-/

set_option autoImplicit false

namespace GuildRoster

/-! ## Names without extensions -/

namespace Path

/-- A name without its extension and the dot before it. Of two dots and an ending without dots, such
as `..x`, both dots are left. -/
def baseName (name : List Char) : List Char :=
  match splitName name with
  | (stem, none) => stem
  | (stem, some _) => if stem = ['.'] then ['.', '.'] else stem

variable {name : List Char}

theorem noSlash_baseName (plain : '/' ∉ name) : '/' ∉ baseName name := by
  have clean : '/' ∉ (splitName name).1 := fun member => plain (mem_of_mem_stem member)
  unfold baseName
  split
  next split => simpa only [split] using clean
  next split =>
    split
    · decide
    · simpa only [split] using clean

theorem pieces_of_noSlash (plain : '/' ∉ name) : pieces ⟨name⟩ = [name] :=
  Text.splitAt_of_not_mem plain

theorem isAbsolute_of_noSlash (plain : '/' ∉ name) : isAbsolute ⟨name⟩ = false := by
  cases name with
  | nil => rfl
  | cons first rest =>
    have other : first ≠ '/' := fun same => plain (same ▸ List.mem_cons_self)
    simp [isAbsolute, other]

theorem consists_name (plain : '/' ∉ name) (named : FileTree.IsName name) :
    Consists ⟨name⟩ [] name [] where
  characters := (List.append_nil name).symm
  front := .inl rfl
  isName := named
  noSlash := plain
  tail := .nil

/-- A name that has an extension loses it together with the dot before it. -/
theorem withExtension_nil {stem ending : List Char} (plain : '/' ∉ name)
    (named : FileTree.IsName name) (split : splitName name = (stem, some ending)) :
    withExtension ⟨name⟩ [] = ⟨baseName name⟩ := by
  have parts := consists_name plain named
  simp only [baseName, split]
  split
  next here =>
    -- The two dots that are left name no file, so nothing more is cut off.
    subst here
    obtain ⟨rfl, _, _⟩ := splitName_eq_some_iff.1 split
    have count : (['.'] ++ '.' :: ending).length - ending.length = 2 := by
      simp only [List.length_append, List.length_cons, List.length_nil]
      omega
    simp only [withExtension, parts.extension?, split, count]
    rfl
  next other =>
    rw [parts.withExtension split other]
    simp

/-- The pictures of a destination that is just a name are numbered behind its base name. -/
theorem withExtension_complete (plain : '/' ∉ name) :
    (FileKind.png.complete ⟨name⟩).withExtension [] = ⟨baseName name⟩ := by
  by_cases named : FileTree.IsName name
  · have parts := consists_name plain named
    cases split : splitName name with
    | mk stem ending =>
      have extension : extension? ⟨name⟩ = ending := by
        rw [parts.extension?, split]
      cases ending with
      | some ending =>
        have kept : FileKind.png.complete ⟨name⟩ = ⟨name⟩ := by
          simp [FileKind.complete, extension]
        rw [kept, withExtension_nil plain named split]
      | none =>
        obtain rfl := eq_of_splitName_eq_none split
        have completed := FileKind.consists_complete .png parts extension
        have again : splitName (stem ++ '.' :: FileKind.png.extension)
            = (stem, some FileKind.png.extension) :=
          splitName_eq_some_iff.2 ⟨rfl, named.1, by decide⟩
        rw [completed.withExtension again named.2.1]
        simp [baseName, split]
  · have special : name = [] ∨ name = ['.'] ∨ name = ['.', '.'] := by
      unfold FileTree.IsName at named
      tauto
    rcases special with rfl | rfl | rfl <;> rfl

end Path

/-! ## Files in common -/

theorem Text.append_cons_injective {separator : Char} {front other back rest : List Char}
    (clean : separator ∉ back) (alsoClean : separator ∉ rest)
    (same : front ++ separator :: back = other ++ separator :: rest) :
    front = other ∧ back = rest := by
  rcases List.append_eq_append_iff.1 same with ⟨more, shape, ending⟩ | ⟨more, shape, ending⟩
  · cases more with
    | nil => simpa [eq_comm] using And.intro shape ending
    | cons first more =>
      rw [List.cons_append, List.cons.injEq] at ending
      exact absurd (by simp [ending.2]) clean
  · cases more with
    | nil => simpa [eq_comm] using And.intro shape ending
    | cons first more =>
      rw [List.cons_append, List.cons.injEq] at ending
      exact absurd (by simp [ending.2]) alsoClean

namespace Export

/-- The number behind the base name in the file of a further picture. -/
def numberMark (index : Nat) : List Char := '_' :: Nat.toDigits 10 index

theorem underscore_not_mem_toDigits (index : Nat) : '_' ∉ Nat.toDigits 10 index := by
  intro member
  have digit := Nat.isDigit_of_mem_toDigits (by decide) (by decide) member
  revert digit
  decide

theorem blockEnding_of_pos {index : Nat} (positive : 0 < index) :
    blockEnding index = numberMark index ++ blockEnding 0 := by
  simp [blockEnding, numberMark, Nat.ne_of_gt positive]

/-- Two pictures have the same file just when they have the same base name and number, or one is the
first picture for a base name that ends with the number of the other. -/
theorem append_blockEnding_eq_iff {base other : List Char} {index number : Nat} :
    base ++ blockEnding index = other ++ blockEnding number ↔
      (base = other ∧ index = number) ∨
      (index = 0 ∧ 0 < number ∧ base = other ++ numberMark number) ∨
      (number = 0 ∧ 0 < index ∧ other = base ++ numberMark index) := by
  rcases Nat.eq_zero_or_pos index with rfl | positive
  · rcases Nat.eq_zero_or_pos number with rfl | alsoPositive
    · simp
    · rw [blockEnding_of_pos alsoPositive, ← List.append_assoc, List.append_left_inj]
      simp [alsoPositive, Nat.ne_of_lt alsoPositive]
  · rcases Nat.eq_zero_or_pos number with rfl | alsoPositive
    · rw [blockEnding_of_pos positive, ← List.append_assoc, List.append_left_inj]
      simp [positive, Nat.ne_of_gt positive, eq_comm]
    · -- A number holds no underscore, so the last underscore tells the base names from the numbers.
      have neither : index ≠ 0 ∧ number ≠ 0 := by omega
      simp only [neither, false_and, or_false]
      constructor
      · intro same
        have bases : base = other := by
          rw [blockEnding_of_pos positive, blockEnding_of_pos alsoPositive, ← List.append_assoc,
            ← List.append_assoc, List.append_left_inj] at same
          exact (Text.append_cons_injective (underscore_not_mem_toDigits index)
            (underscore_not_mem_toDigits number) same).1
        rw [bases, List.append_right_inj] at same
        exact ⟨bases, blockEnding_injective same⟩
      · intro assumed
        rcases assumed with ⟨rfl, rfl⟩
        rfl

/-- Whether some of the pictures for a name, of which there are `count`, share a file with some of
the pictures for another name. -/
def Clash (name : List Char) (count : Nat) (other : List Char) (others : Nat) : Prop :=
  0 < count ∧ 0 < others ∧
    (Path.baseName name = Path.baseName other ∨
      (∃ number, 0 < number ∧ number < others ∧
        Path.baseName name = Path.baseName other ++ numberMark number) ∨
      (∃ number, 0 < number ∧ number < count ∧
        Path.baseName other = Path.baseName name ++ numberMark number))

theorem mem_blockPaths_iff {name : List Char} (plain : '/' ∉ name) {count : Nat} {path : Path} :
    path ∈ blockPaths (FileKind.png.complete ⟨name⟩) count ↔
      ∃ index < count, path = ⟨Path.baseName name ++ blockEnding index⟩ := by
  simp only [blockPaths_eq, Path.withExtension_complete plain, List.mem_map, List.mem_range,
    eq_comm]

theorem disjoint_blockPaths_iff {name other : List Char} (plain : '/' ∉ name)
    (alsoPlain : '/' ∉ other) {count others : Nat} :
    List.Disjoint (blockPaths (FileKind.png.complete ⟨name⟩) count)
        (blockPaths (FileKind.png.complete ⟨other⟩) others) ↔
      ¬ Clash name count other others := by
  have shared : (∃ index < count, ∃ number < others, Path.baseName name ++ blockEnding index
      = Path.baseName other ++ blockEnding number) ↔ Clash name count other others := by
    simp only [append_blockEnding_eq_iff]
    constructor
    · rintro ⟨index, inside, number, alsoInside, ⟨same, rfl⟩ | ⟨rfl, further, same⟩ |
        ⟨rfl, further, same⟩⟩
      · exact ⟨by omega, by omega, .inl same⟩
      · exact ⟨inside, by omega, .inr (.inl ⟨number, further, alsoInside, same⟩)⟩
      · exact ⟨by omega, alsoInside, .inr (.inr ⟨index, further, inside, same⟩)⟩
    · rintro ⟨some, alsoSome, same | ⟨number, further, inside, same⟩ |
        ⟨index, further, inside, same⟩⟩
      · exact ⟨0, some, 0, alsoSome, .inl ⟨same, rfl⟩⟩
      · exact ⟨0, some, number, inside, .inr (.inl ⟨rfl, further, same⟩)⟩
      · exact ⟨index, inside, 0, alsoSome, .inr (.inr ⟨rfl, further, same⟩)⟩
  rw [← shared, List.disjoint_left]
  simp only [mem_blockPaths_iff plain, mem_blockPaths_iff alsoPlain]
  constructor
  · rintro apart ⟨index, inside, number, alsoInside, same⟩
    exact apart ⟨index, inside, rfl⟩ ⟨number, alsoInside, by rw [same]⟩
  · rintro apart path ⟨index, inside, rfl⟩ ⟨number, alsoInside, same⟩
    exact apart ⟨index, inside, number, alsoInside, congrArg Path.characters same⟩

/-- Pictures in different files of the working directory are in different places. -/
theorem apart_of_not_clash {name other : List Char} (plain : '/' ∉ name) (alsoPlain : '/' ∉ other)
    {count others : Nat} (apart : ¬ Clash name count other others) (tree : FileTree)
    {path again : Path} (member : path ∈ blockPaths (FileKind.png.complete ⟨name⟩) count)
    (alsoMember : again ∈ blockPaths (FileKind.png.complete ⟨other⟩) others) :
    tree.Apart path again := by
  have different := List.disjoint_left.1 ((disjoint_blockPaths_iff plain alsoPlain).2 apart) member
  obtain ⟨index, _, rfl⟩ := (mem_blockPaths_iff plain).1 member
  obtain ⟨number, _, rfl⟩ := (mem_blockPaths_iff alsoPlain).1 alsoMember
  have clean : ∀ {name : List Char} (index : Nat), '/' ∉ name →
      '/' ∉ Path.baseName name ++ blockEnding index := by
    intro name index plain
    rw [List.mem_append, not_or]
    exact ⟨Path.noSlash_baseName plain, noSlash_blockEnding index⟩
  have start : ∀ {name : List Char}, '/' ∉ name → tree.start ⟨name⟩ = tree.workDirectory :=
    fun plain => by rw [FileTree.start, Path.isAbsolute_of_noSlash plain]; rfl
  have alone : ∀ {name : List Char}, '/' ∉ name → Path.pieces ⟨name⟩ = [] ++ [name] :=
    Path.pieces_of_noSlash
  refine FileTree.apart_of_names
    ((start (clean index plain)).trans (start (clean number alsoPlain)).symm)
    (alone (clean index plain)) (alone (clean number alsoPlain))
    (isName_append_blockEnding _ index) (isName_append_blockEnding _ number) ?_
  intro same
  exact different (same ▸ alsoMember)

end Export

/-! ## Accepting the suggestion -/

/-- The ways to accept the suggested answer. -/
inductive Acceptance where
  /-- A blank line answers the question. -/
  | blankLine
  /-- The enter key is the first key in the prompt. -/
  | enterKey
  deriving DecidableEq, Repr

namespace Acceptance

/-- How the suggestion for a roster is accepted: the destination of the export, and the input that
the user types. -/
def Accepts (key : String) (destination : Destination) (input : List UInt8) : Acceptance → Prop
  | blankLine => destination = .asked ∧ (Destination.takeLine input).1 ≠ [] ∧
      ∃ line, Text.decode? (Destination.takeLine input).1 = some line ∧ Text.trim line.toList = []
  | enterKey => (ExportPrompt.start .png key).press .enter = .inl destination

/-- The name that is accepted. A prompt has no suggestion for a blank key. -/
def name? (key : String) : Acceptance → Option (List Char)
  | blankLine => some key.toList
  | enterKey => if Text.trim key.toList = [] then none else some (Text.trim key.toList)

/-- The files for some number of pictures. -/
def files (way : Acceptance) (key : String) (count : Nat) : List Path :=
  ((way.name? key).map fun name =>
    Export.blockPaths (FileKind.png.complete ⟨name⟩) count).getD []

theorem choice_of_accepts {way : Acceptance} {key : String} {destination : Destination}
    {input : List UInt8} (accepts : way.Accepts key destination input) :
    destination.choice key .png input
      = (way.name? key).map fun name => FileKind.png.complete ⟨name⟩ := by
  cases way with
  | blankLine =>
    obtain ⟨rfl, line, text, decoded, blank⟩ := accepts
    have some : (Destination.takeLine input).1.isEmpty = false := by simpa using line
    simp only [Destination.choice, Destination.answer, some, decoded, blank, name?, Option.map_some,
      Path.ofString, Bool.false_eq_true, if_false]
  | enterKey =>
    have pressed : (ExportPrompt.start .png key).destination = destination := Sum.inl.inj accepts
    subst pressed
    simp only [ExportPrompt.destination, ExportPrompt.start, name?]
    split
    next blank =>
      rw [if_pos blank]
      rfl
    next text =>
      rw [if_neg text]
      rfl

theorem noSlash_name? {way : Acceptance} {key : String} (plain : '/' ∉ key.toList)
    {name : List Char} (found : way.name? key = some name) : '/' ∉ name := by
  cases way with
  | blankLine =>
    cases found
    exact plain
  | enterKey =>
    unfold name? at found
    dsimp only at found
    split at found
    · cases found
    · cases found
      exact fun member => plain (Text.mem_of_mem_trim member)

/-- Whether the files for two accepted suggestions have one in common. -/
def Clashes (way : Acceptance) (key : String) (count : Nat) (otherWay : Acceptance) (other : String)
    (others : Nat) : Prop :=
  ∃ name again, way.name? key = some name ∧ otherWay.name? other = some again ∧
    Export.Clash name count again others

variable {way otherWay : Acceptance} {key other : String} {count others : Nat}

theorem disjoint_files_iff (plain : '/' ∉ key.toList) (alsoPlain : '/' ∉ other.toList) :
    List.Disjoint (way.files key count) (otherWay.files other others) ↔
      ¬ way.Clashes key count otherWay other others := by
  unfold files Clashes
  cases named : way.name? key with
  | none => simp
  | some name =>
    cases alsoNamed : otherWay.name? other with
    | none => simp
    | some again =>
      simpa using Export.disjoint_blockPaths_iff (noSlash_name? plain named)
        (noSlash_name? alsoPlain alsoNamed)

theorem apart_of_not_clashes (plain : '/' ∉ key.toList) (alsoPlain : '/' ∉ other.toList)
    (fine : ¬ way.Clashes key count otherWay other others) (tree : FileTree) {path again : Path}
    (member : path ∈ way.files key count) (alsoMember : again ∈ otherWay.files other others) :
    tree.Apart path again := by
  unfold files at member alsoMember
  cases named : way.name? key with
  | none => simp [named] at member
  | some name =>
    cases alsoNamed : otherWay.name? other with
    | none => simp [alsoNamed] at alsoMember
    | some second =>
      simp only [named, alsoNamed, Option.map_some, Option.getD_some] at member alsoMember
      refine Export.apart_of_not_clash (noSlash_name? plain named)
        (noSlash_name? alsoPlain alsoNamed) ?_ tree member alsoMember
      exact fun clash => fine ⟨name, second, named, alsoNamed, clash⟩

end Acceptance

namespace Export

/-! ## Exports with the suggestion accepted -/

/-- An export of the pictures of a roster with the suggestion accepted: the number of its pictures,
the worlds before and after it, and how it ends. -/
inductive AcceptedExport (save : PictureWriter) (key : String) (way : Acceptance) :
    Nat → World → World → Except Fault ExportOutcome → Prop where
  | run (source : Source) (config : Config) (destination : Destination)
      (compareKey : Option String) (onlyMembers : Bool) {before after : World}
      {result : Except Fault ExportOutcome} (accepts : way.Accepts key destination before.input)
      (ran : Run.exec (asImageWith save source config destination key compareKey onlyMembers) before
        = (result, after)) :
      AcceptedExport save key way (exportedBlocks source key onlyMembers before).length before after
        result

variable {save : PictureWriter} {key other : String} {way otherWay : Acceptance}
  {count others : Nat} {before between after : World}
  {result otherResult : Except Fault ExportOutcome}

theorem AcceptedExport.wrote (saves : SavesPictures save)
    (run : AcceptedExport save key way count before after result) :
    ∃ pictures, Wrote before after pictures ∧ pictures.map Prod.snd <+: way.files key count ∧
      ∀ paths, result = .ok (.written paths) →
        paths = way.files key count ∧ pictures.map Prod.snd = paths := by
  cases run with
  | run source config destination compareKey onlyMembers accepts ran =>
    have wrote :=
      asImageWith_wrote saves source config destination key compareKey onlyMembers before
    rw [Acceptance.choice_of_accepts accepts, Option.map_map] at wrote
    dsimp only at wrote
    rw [ran] at wrote
    exact wrote

/-- The files of two exports with the suggestions accepted have one in common just when the names
clash, and otherwise the second export leaves the pictures of the first one as they are. -/
theorem accepted_exports_disjoint_iff (saves : SavesPictures save) (plain : '/' ∉ key.toList)
    (alsoPlain : '/' ∉ other.toList)
    (first : AcceptedExport save key way count before between result)
    (second : AcceptedExport save other otherWay others between after otherResult) :
    (List.Disjoint (way.files key count) (otherWay.files other others) ↔
      ¬ way.Clashes key count otherWay other others) ∧
    ∃ pictures again, Wrote before between pictures ∧ Wrote between after again ∧
      pictures.map Prod.snd <+: way.files key count ∧
      again.map Prod.snd <+: otherWay.files other others ∧
      (∀ paths, result = .ok (.written paths) →
        paths = way.files key count ∧ pictures.map Prod.snd = paths) ∧
      (∀ paths, otherResult = .ok (.written paths) →
        paths = otherWay.files other others ∧ again.map Prod.snd = paths) ∧
      (¬ way.Clashes key count otherWay other others →
        ∀ entry ∈ pictures, after.files.find entry.2 = .ok (.file (.picture entry.1))) := by
  obtain ⟨pictures, wrote, early, whole⟩ := first.wrote saves
  obtain ⟨again, rewrote, alsoEarly, alsoWhole⟩ := second.wrote saves
  refine ⟨Acceptance.disjoint_files_iff plain alsoPlain, pictures, again, wrote, rewrote, early,
    alsoEarly, whole, alsoWhole, ?_⟩
  intro fine entry member
  have apart : ∀ entry ∈ pictures, ∀ other ∈ again, before.files.Apart entry.2 other.2 := by
    intro entry member other alsoMember
    exact Acceptance.apart_of_not_clashes plain alsoPlain fine before.files
      (early.subset (List.mem_map_of_mem member))
      (alsoEarly.subset (List.mem_map_of_mem alsoMember))
  exact (wrote.trans rewrote apart).written entry (List.mem_append_left again member)

/-- Rosters of one member each, under keys that differ by an extension or by a number. -/
def similarKeys : Source :=
  .ofRosters [("a", [{ name := "A", membership := some { role := .member } }]),
    ("a.png", [{ name := "B", membership := some { role := .member } }]),
    ("a_1", [{ name := "C", membership := some { role := .member } }])]

/-- A number at the end of a key does no harm to a roster of few players. -/
theorem numbered_key_keeps_picture :
    ∃ result between otherResult after,
      Run.exec (asImage similarKeys {} .asked "a" none true) { input := [10] }
        = (result, between) ∧
      Run.exec (asImage similarKeys {} (.fixed (some (.ofString "a_1"))) "a_1" none true) between
        = (otherResult, after) ∧
      ∃ pictures, Wrote { input := [10] } between pictures ∧
        ∀ entry ∈ pictures, after.files.find entry.2 = .ok (.file (.picture entry.1)) := by
  obtain ⟨⟨result, between⟩, ran⟩ : ∃ ran, Run.exec (asImage similarKeys {} .asked "a" none true)
      { input := [10] } = ran := ⟨_, rfl⟩
  obtain ⟨⟨otherResult, after⟩, again⟩ : ∃ ran, Run.exec (asImage similarKeys {}
      (.fixed (some (.ofString "a_1"))) "a_1" none true) between = ran := ⟨_, rfl⟩
  have first : AcceptedExport savePicture "a" .blankLine 1 { input := [10] } between result :=
    .run similarKeys {} .asked none true ⟨rfl, by decide, "\n", by decide, by decide⟩ ran
  have second : AcceptedExport savePicture "a_1" .enterKey 1 between after otherResult :=
    .run similarKeys {} (.fixed (some (.ofString "a_1"))) none true
      (show (ExportPrompt.start .png "a_1").press .enter = _ by decide) again
  have few : ¬ Acceptance.Clashes .blankLine "a" 1 .enterKey "a_1" 1 := by
    rintro ⟨name, again, named, also, _, _, same | ⟨number, _, _, _⟩ | ⟨number, _, _, _⟩⟩
    · cases named
      cases also
      revert same
      decide
    · omega
    · omega
  obtain ⟨_, pictures, _, wrote, _, _, _, _, _, kept⟩ :=
    accepted_exports_disjoint_iff savesPictures_savePicture (by decide) (by decide) first second
  exact ⟨result, between, otherResult, after, ran, again, pictures, wrote, kept few⟩

/-- A key that has the extension of pictures already goes to the file of the key without it. -/
theorem similar_keys_share_file :
    ∃ destination other, (ExportPrompt.start .png "a").press .enter = .inl destination ∧
      (ExportPrompt.start .png "a.png").press .enter = .inl other ∧
      ∃ between after,
        Run.exec (asImage similarKeys {} destination "a" none true) {}
          = (.ok (.written [.ofString "a.png"]), between) ∧
        Run.exec (asImage similarKeys {} other "a.png" none true) between
          = (.ok (.written [.ofString "a.png"]), after) := by
  have fine : ∀ key world blocks,
      ¬ FaultyBlocks (comparedRoster similarKeys key none world) blocks := by
    intro key world blocks faulty
    obtain ⟨_, _, _, _, _, found, _⟩ := faulty
    cases found
  have takes : TakesPictures ({} : World).files [.ofString "a.png"] :=
    List.forall_mem_singleton.2 ⟨by decide, _, rfl⟩
  obtain ⟨pictures, between, first, _, wrote⟩ : ∃ (pictures : List Picture) (between : World),
      Run.exec (asImage similarKeys {} (.fixed (some (.ofString "a"))) "a" none true) {}
        = (.ok (.written [.ofString "a.png"]), between) ∧ _ ∧
      Wrote {} between (pictures.zip [.ofString "a.png"]) :=
    exec_asImage_written (fine _ _ _) rfl rfl takes
  obtain ⟨_, after, second, _⟩ : ∃ (pictures : List Picture) (after : World),
      Run.exec (asImage similarKeys {} (.fixed (some (.ofString "a.png"))) "a.png" none true)
        between = (.ok (.written [.ofString "a.png"]), after) ∧ _ :=
    exec_asImage_written (fine _ _ _) rfl rfl (wrote.takesPictures takes)
  exact ⟨_, _, by decide, by decide, between, after, first, second⟩

end Export

end GuildRoster
