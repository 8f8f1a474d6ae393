import GuildRoster.Proofs.BlockDrawing
import GuildRoster.Proofs.BlockFiles
import GuildRoster.Proofs.Runs

/-!
# Exports of pictures

What an export of a roster as pictures leaves behind. The pictures are drawn one after the other and
then written to paths that lead to different places, so when writing stops, the files written so far
hold their pictures and all other files are as they were. An export stops with a fault only when a
change between two snapshots of a player is no number of 64 bits.
-/

set_option autoImplicit false

namespace GuildRoster

namespace Export

/-! ## What exports leave behind -/

/-- The files after a run that wrote pictures to some paths and otherwise only logged. -/
structure Wrote (before after : World) (pictures : List (Picture × Path)) : Prop where
  log : after.log = before.log
  workDirectory : after.files.workDirectory = before.files.workDirectory
  directory : ∀ place, after.files.get? place = some .directory ↔
    before.files.get? place = some .directory
  elsewhere : ∀ place, (∀ entry ∈ pictures, before.files.locate entry.2 ≠ .ok place) →
    before.logFile ≠ some place → after.files.get? place = before.files.get? place
  kept : ∀ place picture, (∀ entry ∈ pictures, before.files.locate entry.2 ≠ .ok place) →
    before.files.get? place = some (.file (.picture picture)) →
    after.files.get? place = some (.file (.picture picture))
  written : ∀ entry ∈ pictures, after.files.find entry.2 = .ok (.file (.picture entry.1))

namespace Wrote

theorem refl (world : World) : Wrote world world [] :=
  ⟨rfl, rfl, fun _ => Iff.rfl, fun _ _ _ => rfl, fun _ _ _ held => held, by simp⟩

theorem of_eq {before after : World} (files : after.files = before.files)
    (log : after.log = before.log) : Wrote before after [] := by
  refine ⟨log, by rw [files], fun place => by rw [files], fun place _ _ => by rw [files],
    fun place picture _ held => by rw [files, held], by simp⟩

theorem keepsDirectories {before after : World} {pictures : List (Picture × Path)}
    (wrote : Wrote before after pictures) :
    before.files.KeepsDirectories after.files ∧ after.files.KeepsDirectories before.files :=
  ⟨⟨wrote.workDirectory, fun place => (wrote.directory place).2⟩,
    wrote.workDirectory.symm, fun place => (wrote.directory place).1⟩

theorem locate_iff {before after : World} {pictures : List (Picture × Path)}
    (wrote : Wrote before after pictures) {path : Path} {place : Location} :
    after.files.locate path = .ok place ↔ before.files.locate path = .ok place :=
  ⟨wrote.keepsDirectories.2.locate, wrote.keepsDirectories.1.locate⟩

/-- What can be written to before can be written to afterwards. -/
theorem opened {before after : World} {pictures : List (Picture × Path)}
    (wrote : Wrote before after pictures) {path : Path} {place : Location}
    (opening : before.files.opened path = .ok place) : after.files.opened path = .ok place := by
  obtain ⟨_, _, notDirectory⟩ := FileTree.opened_eq_ok_iff.1 opening
  exact wrote.keepsDirectories.1.opened opening fun directory =>
    notDirectory ((wrote.directory place).1 directory)

theorem apart {before after : World} {pictures : List (Picture × Path)}
    (wrote : Wrote before after pictures) {path other : Path}
    (separate : before.files.Apart path other) : after.files.Apart path other :=
  fun place located same => separate place (wrote.locate_iff.1 located) (wrote.locate_iff.1 same)

theorem trans {first second third : World} {pictures others : List (Picture × Path)}
    (earlier : Wrote first second pictures) (later : Wrote second third others)
    (apart : ∀ entry ∈ pictures, ∀ other ∈ others, first.files.Apart entry.2 other.2) :
    Wrote first third (pictures ++ others) := by
  have sameLog : second.logFile = first.logFile := by simp only [World.logFile, earlier.log]
  refine ⟨later.log.trans earlier.log, later.workDirectory.trans earlier.workDirectory,
    fun place => (later.directory place).trans (earlier.directory place), ?_, ?_, ?_⟩
  · intro place free notLog
    have inSecond : ∀ entry ∈ others, second.files.locate entry.2 ≠ .ok place :=
      fun entry member located =>
        free entry (List.mem_append_right _ member) (earlier.locate_iff.1 located)
    rw [later.elsewhere place inSecond (sameLog ▸ notLog)]
    exact earlier.elsewhere place
      (fun entry member => free entry (List.mem_append_left _ member)) notLog
  · intro place picture free held
    have inSecond : ∀ entry ∈ others, second.files.locate entry.2 ≠ .ok place :=
      fun entry member located =>
        free entry (List.mem_append_right _ member) (earlier.locate_iff.1 located)
    apply later.kept place picture inSecond
    exact earlier.kept place picture
      (fun entry member => free entry (List.mem_append_left _ member)) held
  · intro entry member
    rcases List.mem_append.1 member with before | after
    · obtain ⟨place, located, held⟩ := FileTree.find_eq_file_iff.1 (earlier.written entry before)
      have inFirst := earlier.locate_iff.1 located
      have untouched : ∀ other ∈ others, second.files.locate other.2 ≠ .ok place :=
        fun other found same =>
          apart entry before other found place inFirst (earlier.locate_iff.1 same)
      exact FileTree.find_eq_file_iff.2
        ⟨place, later.locate_iff.2 located, later.kept place entry.1 untouched held⟩
    · exact later.written entry after

end Wrote

/-! ## Logging -/

/-- Appending puts a file in place of nothing or of a file that is no picture. -/
private theorem append_cases (tree : FileTree) (location : Location) (text : String) :
    tree.append location text = tree ∨
      ∃ content, tree.get? location ≠ some .directory ∧
        (∀ picture, tree.get? location ≠ some (.file (.picture picture))) ∧
        tree.append location text = tree.put location (.file content) := by
  unfold FileTree.append
  split
  next characters held => exact .inr ⟨_, by simp [held], by simp [held], rfl⟩
  next values held => exact .inr ⟨_, by simp [held], by simp [held], rfl⟩
  next => exact .inl rfl
  next => exact .inl rfl
  next missing => exact .inr ⟨_, by simp [missing], by simp [missing], rfl⟩

theorem wrote_record (world : World) (entry : LogEntry) : Wrote world (world.record entry) [] := by
  unfold World.record
  split
  next sink logged =>
    unfold LogSink.record
    split
    next =>
      obtain same | ⟨content, notDirectory, notPicture, changed⟩ :=
        append_cases world.files sink.location (sink.line entry)
      · rw [same]
        exact Wrote.refl world
      · rw [changed]
        refine ⟨rfl, rfl, fun place => ?_, fun place _ notLog => ?_, fun place picture _ held => ?_,
          by simp⟩
        · constructor
          · exact (world.files.keepsDirectories_of_put_file sink.location content).directory place
          · exact (FileTree.keepsDirectories_put_file notDirectory content).directory place
        · apply FileTree.get?_put_of_ne
          intro equal
          subst equal
          exact notLog (by rw [World.logFile, logged, Option.map_some])
        · rw [← held]
          apply FileTree.get?_put_of_ne
          intro equal
          subst equal
          exact notPicture picture held
    next => exact Wrote.refl world
  next => exact Wrote.refl world

theorem wrote_recordAll (world : World) (entries : List LogEntry) :
    Wrote world (world.recordAll entries) [] := by
  induction entries generalizing world with
  | nil => exact Wrote.refl world
  | cons entry entries ih =>
    exact (wrote_record world entry).trans (ih (world.record entry)) (by simp)

/-! ## Writing pictures -/

/-- What must hold of a way to keep pictures: a picture is put where its path leads, in place of
nothing or of a file, and nothing else changes. -/
def SavesPictures (save : PictureWriter) : Prop :=
  ∀ picture path tree written, save picture path tree = .ok written →
    ∃ location, tree.locate path = .ok location ∧ tree.get? location ≠ some .directory ∧
      written.workDirectory = tree.workDirectory ∧
      ∀ place, written.get? place =
        if place = location then some (.file (.picture picture)) else tree.get? place

theorem savesPictures_savePicture : SavesPictures savePicture := by
  intro picture path tree written saved
  unfold savePicture at saved
  split at saved
  next =>
    split at saved
    next changed writing =>
      cases saved
      exact FileTree.puts_of_write writing
    next => cases saved
  next => cases saved

theorem wrote_save {save : PictureWriter} (saves : SavesPictures save) {world : World}
    {picture : Picture} {path : Path} {files : FileTree}
    (saved : save picture path world.files = .ok files) :
    Wrote world { world with files } [(picture, path)] := by
  have puts : world.files.Puts path (.picture picture) files := saves _ _ _ _ saved
  have kept := puts.keepsDirectories
  have found := puts.find
  obtain ⟨location, located, _, workDirectory, changed⟩ := puts
  have elsewhere : ∀ place, (∀ entry ∈ [(picture, path)],
      world.files.locate entry.2 ≠ .ok place) → files.get? place = world.files.get? place := by
    intro place free
    rw [changed, if_neg]
    intro equal
    subst equal
    exact free (picture, path) List.mem_cons_self located
  refine ⟨rfl, workDirectory, fun place => ⟨kept.2.directory place, kept.1.directory place⟩,
    fun place free _ => elsewhere place free,
    fun place picture free held => (elsewhere place free).trans held, ?_⟩
  intro entry member
  obtain rfl := List.mem_singleton.1 member
  exact found

/-- Writing pictures to paths that lead to different places ends behind the last picture, or at one
that is refused, with exactly the pictures before it written. -/
theorem exec_writeAll {save : PictureWriter} (saves : SavesPictures save) (world : World)
    {entries : List (Picture × Path)}
    (apart : entries.Pairwise fun entry other => world.files.Apart entry.2 other.2) :
    ∃ after count, Wrote world after (entries.take count) ∧
      ((Run.exec (writeAll save entries) world = (.ok none, after) ∧ count = entries.length) ∨
        ∃ picture path fault, entries[count]? = some (picture, path) ∧
          save picture path after.files = .error fault ∧
          Run.exec (writeAll save entries) world = (.ok (some fault), after)) := by
  induction entries generalizing world with
  | nil => exact ⟨world, 0, Wrote.refl world, .inl ⟨rfl, rfl⟩⟩
  | cons entry entries ih =>
    obtain ⟨picture, path⟩ := entry
    rw [writeAll, Run.exec_bind_ok (Run.exec_get world)]
    cases saved : save picture path world.files with
    | error fault =>
      exact ⟨world, 0, Wrote.refl world, .inr ⟨picture, path, fault, rfl, saved, rfl⟩⟩
    | ok files =>
      obtain ⟨fromFirst, fromOthers⟩ := List.pairwise_cons.1 apart
      -- The line that is logged after a picture leaves that picture and all others alone.
      have first := (wrote_save saves saved).trans (wrote_record { world with files }
        ⟨.information, imagePart, "Wrote roster image " ++ path.text⟩) (by simp)
      have still := fromOthers.imp fun separate => first.apart separate
      obtain ⟨after, count, others, outcome⟩ := ih _ still
      have whole := first.trans others fun entry member other later => by
        obtain rfl := List.mem_singleton.1 member
        exact fromFirst other (List.mem_of_mem_take later)
      refine ⟨after, count + 1, whole, ?_⟩
      dsimp only
      rw [Run.exec_bind_ok (Run.exec_modify _ world), Run.exec_bind_ok (Run.exec_record _ _)]
      rcases outcome with ⟨done, all⟩ | ⟨next, place, fault, listed, refused, stopped⟩
      · exact .inl ⟨done, by rw [all, List.length_cons]⟩
      · exact .inr ⟨next, place, fault, listed, refused, stopped⟩

/-! ## Drawing -/

/-- Some player of some block has a change that is no number of 64 bits. -/
def FaultyBlocks (compare : Option Roster) (blocks : List Roster) : Prop :=
  ∃ block ∈ blocks, ∃ player ∈ block, Row.FaultyIn compare player

theorem render_small_failsJust (config : Config) (compare : Option Roster) {block : Roster}
    (small : block.length ≤ Block.capacity) :
    FailsJust Row.changeFault (∃ player ∈ block, Row.FaultyIn compare player)
      (Block.render config compare block) := by
  have capacity : Block.capacity = 50 := rfl
  have range := rangeSize_32
  exact Block.render_failsJust config compare (by omega)

theorem exec_drawAll (config : Config) (compare : Option Roster) {blocks : List Roster}
    (small : ∀ block ∈ blocks, block.length ≤ Block.capacity) (world : World) :
    (FaultyBlocks compare blocks ∧
      ∃ after, Run.exec (drawAll config compare blocks) world = (.error Row.changeFault, after)) ∨
    (¬ FaultyBlocks compare blocks ∧
      ∃ pictures after, Run.exec (drawAll config compare blocks) world = (.ok pictures, after) ∧
        blocks.map (Block.render config compare) = pictures.map .ok ∧ Wrote world after []) := by
  induction blocks generalizing world with
  | nil => exact .inr ⟨by simp [FaultyBlocks], [], world, rfl, rfl, Wrote.refl world⟩
  | cons block blocks ih =>
    have render := render_small_failsJust config compare (small block List.mem_cons_self)
    have logged := wrote_record world
      ⟨.debug, imagePart, s!"Rendering block of {block.length} players"⟩
    have step := Run.exec_ofExcept (Block.render config compare block)
      (world.record ⟨.debug, imagePart, s!"Rendering block of {block.length} players"⟩)
    rw [drawAll, Run.exec_bind_ok (Run.exec_record _ world)]
    by_cases faulty : ∃ player ∈ block, Row.FaultyIn compare player
    · rw [render.fails faulty] at step ⊢
      exact .inl ⟨⟨block, List.mem_cons_self, faulty⟩, _, Run.exec_bind_error step⟩
    · obtain ⟨picture, drawn⟩ := render.succeeds faulty
      rw [drawn] at step ⊢
      rw [Run.exec_bind_ok step]
      obtain ⟨others, after, failed⟩ | ⟨others, pictures, after, done, same, wrote⟩ :=
        ih (fun other member => small other (List.mem_cons_of_mem block member)) (world.record _)
      · refine .inl ⟨?_, after, ?_⟩
        · obtain ⟨other, member, player⟩ := others
          exact ⟨other, List.mem_cons_of_mem block member, player⟩
        · exact Run.exec_bind_error failed
      · refine .inr ⟨?_, picture :: pictures, after, ?_, ?_, logged.trans wrote (by simp)⟩
        · intro assumed
          rcases assumed with ⟨other, member, player⟩
          cases member with
          | head => exact faulty player
          | tail _ later => exact others ⟨other, later, player⟩
        · rw [Run.exec_bind_ok done]
          rfl
        · rw [List.map_cons, List.map_cons, drawn, same]

/-! ## Whole exports -/

theorem exec_writeAll_ok (save : PictureWriter) (entries : List (Picture × Path))
    (world : World) :
    ∃ outcome after, Run.exec (writeAll save entries) world = (.ok outcome, after) := by
  induction entries generalizing world with
  | nil => exact ⟨none, world, rfl⟩
  | cons entry entries ih =>
    obtain ⟨picture, path⟩ := entry
    rw [writeAll, Run.exec_bind_ok (Run.exec_get world)]
    cases save picture path world.files with
    | error fault => exact ⟨some fault, world, rfl⟩
    | ok files =>
      dsimp only
      rw [Run.exec_bind_ok (Run.exec_modify _ world), Run.exec_bind_ok (Run.exec_record _ _)]
      exact ih _

/-- What follows the drawing of all pictures. -/
def report (save : PictureWriter) (entries : List (Picture × Path)) (paths : List Path) :
    Run ExportOutcome := do
  match ← writeAll save entries with
  | some fault => ExportOutcome.ofFault fault
  | none => return .written paths

theorem exec_exportBlocks (save : PictureWriter) (config : Config) (key : String)
    (compare : Option Roster) {blocks : List Roster}
    (small : ∀ block ∈ blocks, block.length ≤ Block.capacity) (chosen : Path) (world : World) :
    (FaultyBlocks compare blocks ∧ ∃ after,
      Run.exec (exportBlocks save config key compare blocks chosen) world
        = (.error Row.changeFault, after)) ∨
    (¬ FaultyBlocks compare blocks ∧ ∃ (pictures : List Picture) (drawn : World),
      blocks.map (Block.render config compare) = pictures.map .ok ∧ Wrote world drawn [] ∧
        Run.exec (exportBlocks save config key compare blocks chosen) world =
          Run.exec (report save (pictures.zip (blockPaths chosen blocks.length))
            (blockPaths chosen blocks.length)) drawn) := by
  obtain ⟨faulty, after, failed⟩ | ⟨fine, pictures, after, done, same, wrote⟩ :=
    exec_drawAll config compare small world
  · exact .inl ⟨faulty, after, Run.exec_bind_error failed⟩
  · have count : pictures.length = blocks.length := by
      simpa using (congrArg List.length same).symm
    rw [← count]
    by_cases empty : pictures.isEmpty
    · have logged := wrote_record after
        ⟨.warning, imagePart, s!"Roster '{key}' is empty, no image written"⟩
      refine .inr ⟨fine, pictures, _, same, wrote.trans logged (by simp), ?_⟩
      rw [exportBlocks, Run.exec_bind_ok done, if_pos empty]
      rfl
    · refine .inr ⟨fine, pictures, after, same, wrote, ?_⟩
      rw [exportBlocks, Run.exec_bind_ok done, if_neg empty]
      rfl

/-- The blocks of which an export makes pictures. -/
def exportedBlocks (source : Source) (key : String) (onlyMembers : Bool) (world : World) :
    List Roster :=
  Block.plan (source.roster key world.files).1 onlyMembers

/-- The roster that an export compares with. The source is asked for it after the exported one. -/
def comparedRoster (source : Source) (key : String) (compareKey : Option String) (world : World) :
    Option Roster :=
  compareKey.map fun other =>
    (source.roster other (world.recordAll (source.roster key world.files).2).files).1

end Export

/-- The path that a destination gives when the user types some input. -/
def Destination.choice (name : String) (kind : FileKind) (input : List UInt8) :
    Destination → Option Path
  | fixed path => path.map kind.complete
  | asked => answer kind (kind.complete (.ofString name)) (takeLine input).1

theorem Destination.exec_choose (destination : Destination) (title name : String)
    (kind : FileKind) (world : World) :
    ∃ after, Run.exec (destination.choose title name kind) world
        = (.ok (destination.choice name kind world.input), after) ∧
      after.files = world.files ∧ after.log = world.log := by
  cases destination with
  | fixed path => exact ⟨world, rfl, rfl, rfl⟩
  | asked => exact ⟨_, rfl, rfl, rfl⟩

namespace Export

theorem input_recordAll (world : World) (entries : List LogEntry) :
    (world.recordAll entries).input = world.input := by
  induction entries generalizing world with
  | nil => rfl
  | cons entry entries ih =>
    have one : (world.record entry).input = world.input := by
      unfold World.record
      split <;> rfl
    exact (ih (world.record entry)).trans one

/-- Before anything is drawn, an export only asks and logs. -/
theorem exec_asImageWith (save : PictureWriter) (source : Source) (config : Config)
    (destination : Destination) (key : String) (compareKey : Option String) (onlyMembers : Bool)
    (world : World) :
    ∃ asked, Wrote world asked [] ∧
      Run.exec (asImageWith save source config destination key compareKey onlyMembers) world =
        match destination.choice key .png world.input with
        | none => (.ok .cancelled, asked)
        | some chosen =>
          Run.exec (exportBlocks save config key (comparedRoster source key compareKey world)
            (exportedBlocks source key onlyMembers world) chosen) asked := by
  have first := source.exec_askRoster key world
  have logged := wrote_recordAll world (source.roster key world.files).2
  have input := input_recordAll world (source.roster key world.files).2
  have compared : ∃ between, Wrote world between [] ∧ between.input = world.input ∧
      Run.exec (askCompared source compareKey) (world.recordAll (source.roster key world.files).2)
        = (.ok (comparedRoster source key compareKey world), between) := by
    cases compareKey with
    | none => exact ⟨_, logged, input, rfl⟩
    | some other =>
      have second := source.exec_askRoster other
        (world.recordAll (source.roster key world.files).2)
      exact ⟨_, logged.trans (wrote_recordAll _ _) (by simp), (input_recordAll _ _).trans input,
        Run.exec_map_ok second some⟩
  obtain ⟨between, wrote, sameInput, second⟩ := compared
  obtain ⟨asked, third, files, log⟩ :=
    destination.exec_choose "Save as" key .png between
  rw [sameInput] at third
  have untouched := wrote.trans (Wrote.of_eq files log) (by simp)
  rw [asImageWith, Run.exec_bind_ok first, Run.exec_bind_ok second, Run.exec_bind_ok third]
  cases destination.choice key .png world.input with
  | none => exact ⟨_, untouched.trans (wrote_record asked _) (by simp), rfl⟩
  | some chosen => exact ⟨asked, untouched, rfl⟩

/-! ## When exports fail -/

theorem small_exportedBlocks (source : Source) (key : String) (onlyMembers : Bool) (world : World) :
    ∀ block ∈ exportedBlocks source key onlyMembers world, block.length ≤ Block.capacity :=
  fun _ member => Block.length_plan_le member

private theorem report_ok (save : PictureWriter) (entries : List (Picture × Path))
    (paths : List Path) (world : World) :
    ∃ outcome after, Run.exec (report save entries paths) world = (.ok outcome, after) := by
  obtain ⟨fault, after, done⟩ := exec_writeAll_ok save entries world
  rw [report, Run.exec_bind_ok done]
  cases fault with
  | none => exact ⟨_, after, rfl⟩
  | some fault => exact ⟨_, _, rfl⟩

theorem asImageWith_failsJust (save : PictureWriter) (source : Source) (config : Config)
    (destination : Destination) (key : String) (compareKey : Option String) (onlyMembers : Bool)
    (world : World) :
    FailsJust Row.changeFault
      ((destination.choice key .png world.input).isSome ∧
        FaultyBlocks (comparedRoster source key compareKey world)
          (exportedBlocks source key onlyMembers world))
      (Run.exec (asImageWith save source config destination key compareKey onlyMembers)
        world).1 := by
  obtain ⟨asked, _, done⟩ :=
    exec_asImageWith save source config destination key compareKey onlyMembers world
  rw [done]
  cases destination.choice key .png world.input with
  | none => exact ⟨by simp, fun _ => ⟨_, rfl⟩⟩
  | some chosen =>
    dsimp only
    obtain ⟨faulty, after, failed⟩ | ⟨fine, pictures, drawn, _, _, others⟩ :=
      exec_exportBlocks save config key (comparedRoster source key compareKey world)
        (small_exportedBlocks source key onlyMembers world) chosen asked
    · rw [failed]
      exact ⟨fun _ => rfl, fun fine => absurd ⟨rfl, faulty⟩ fine⟩
    · obtain ⟨outcome, after, ended⟩ := report_ok save
        (pictures.zip (blockPaths chosen (exportedBlocks source key onlyMembers world).length))
        (blockPaths chosen (exportedBlocks source key onlyMembers world).length) drawn
      rw [others, ended]
      exact ⟨fun faulty => absurd faulty.2 fine, fun _ => ⟨outcome, rfl⟩⟩

/-- An export of pictures stops with a fault just when it is not cancelled and one of the players
that it draws has changed, since the first player of the same name in the roster to compare with,
by more than 64 bits can hold; and the fault is always the same. -/
theorem asImageWith_fault_iff (save : PictureWriter) (source : Source) (config : Config)
    (destination : Destination) (key : String) (compareKey : Option String) (onlyMembers : Bool)
    (world : World) (fault : Fault) :
    (Run.exec (asImageWith save source config destination key compareKey onlyMembers) world).1
        = .error fault ↔
      ((destination.choice key .png world.input).isSome ∧
        ∃ block ∈ exportedBlocks source key onlyMembers world, ∃ player ∈ block, ∃ before,
          ((comparedRoster source key compareKey world).bind
            fun roster => roster.findByName? player.name) = some before ∧
          Row.Faulty before player) ∧
      fault = .overflow .subtraction :=
  (asImageWith_failsJust save source config destination key compareKey onlyMembers
    world).eq_error_iff

/-- Two rosters, each of one player of the same name. -/
def distantRosters : Source :=
  .ofRosters [("now", [{ name := "A", level := 9223372036854775807 }]),
    ("before", [{ name := "A", level := -1 }])]

theorem asImage_can_fail :
    (Run.exec (asImage distantRosters {} (.fixed (some ⟨['o', '.', 'p', 'n', 'g']⟩)) "now"
      (some "before") false) {}).1 = .error (.overflow .subtraction) := by
  apply (asImageWith_failsJust savePicture distantRosters {} _ "now" (some "before") false {}).fails
  refine ⟨rfl, [{ name := "A", level := 9223372036854775807 }], ?_,
    { name := "A", level := 9223372036854775807 }, List.mem_cons_self,
    { name := "A", level := -1 }, rfl, .inl (by decide)⟩
  simp [exportedBlocks, distantRosters, Source.ofRosters, Block.plan, Block.chunks]

/-! ## What exports write -/

/-- How an export of some blocks to a chosen path can end, with the world before and after it: all
pictures are written, or one of them is refused, which is reported. Then those before it are
written, and the files of that one and of the others are as before. -/
inductive Exported (save : PictureWriter) (config : Config) (compare : Option Roster)
    (blocks : List Roster) (chosen : Path) (before after : World) : ExportOutcome → Prop where
  | written {pictures : List Picture}
      (drawn : blocks.map (Block.render config compare) = pictures.map .ok)
      (wrote : Wrote before after (pictures.zip (blockPaths chosen blocks.length))) :
      Exported save config compare blocks chosen before after
        (.written (blockPaths chosen blocks.length))
  | failed {pictures : List Picture} {picture : Picture} {path : Path} {fault : ExportFault}
      {count : Nat} {between : World}
      (drawn : blocks.map (Block.render config compare) = pictures.map .ok)
      (fewer : count < blocks.length)
      (stopped : (pictures.zip (blockPaths chosen blocks.length))[count]? = some (picture, path))
      (logged : Wrote before between
        ((pictures.zip (blockPaths chosen blocks.length)).take count))
      (refused : save picture path between.files = .error fault)
      (wrote : Wrote before after ((pictures.zip (blockPaths chosen blocks.length)).take count))
      (untouched : ∀ path ∈ (blockPaths chosen blocks.length).drop count, ∀ place,
        before.files.locate path = .ok place → before.logFile ≠ some place →
        after.files.get? place = before.files.get? place) :
      Exported save config compare blocks chosen before after (.failed fault.message)

private theorem mem_zip_drop_apart {pictures : List Picture} {paths : List Path} {tree : FileTree}
    (apart : paths.Pairwise tree.Apart) {count : Nat} {entry : Picture × Path} {path : Path}
    (early : entry ∈ (pictures.zip paths).take count) (late : path ∈ paths.drop count) :
    tree.Apart entry.2 path := by
  rw [List.zip_eq_zipWith, List.take_zipWith, ← List.zip_eq_zipWith] at early
  rw [← List.take_append_drop count paths, List.pairwise_append] at apart
  exact apart.2.2 entry.2 (List.of_mem_zip early).2 path late

theorem exported_report {save : PictureWriter} (saves : SavesPictures save)
    {config : Config} {compare : Option Roster} {blocks : List Roster} {chosen : Path}
    {before drawn : World} {pictures : List Picture}
    (same : blocks.map (Block.render config compare) = pictures.map .ok)
    (logged : Wrote before drawn []) :
    ∃ outcome after, Run.exec (report save (pictures.zip (blockPaths chosen blocks.length))
        (blockPaths chosen blocks.length)) drawn = (.ok outcome, after) ∧
      Exported save config compare blocks chosen before after outcome := by
  have count : pictures.length = blocks.length := by
    simpa using (congrArg List.length same).symm
  have whole : (pictures.zip (blockPaths chosen blocks.length)).length = blocks.length := by
    rw [List.length_zip, length_blockPaths, count, Nat.min_self]
  have apart : ∀ tree : FileTree, (pictures.zip (blockPaths chosen blocks.length)).Pairwise
      fun entry other => tree.Apart entry.2 other.2 := by
    intro tree
    have paths : (pictures.zip (blockPaths chosen blocks.length)).map Prod.snd
        = blockPaths chosen blocks.length :=
      List.map_snd_zip (Nat.le_of_eq (by rw [length_blockPaths, count]))
    rw [← List.pairwise_map, paths]
    exact blockPaths_apart tree chosen blocks.length
  obtain ⟨after, number, wrote, outcome⟩ := exec_writeAll saves drawn (apart drawn.files)
  have all := logged.trans wrote (by simp)
  rcases outcome with ⟨done, complete⟩ | ⟨picture, path, fault, listed, refused, stopped⟩
  · refine ⟨_, after, ?_, .written same ?_⟩
    · rw [report, Run.exec_bind_ok done]
      rfl
    · rw [complete, List.take_length] at all
      exact all
  · have reported := wrote_record after
      ⟨.error, "sfroster::export", "Export failed: " ++ fault.message⟩
    have final := all.trans reported (by simp)
    rw [List.nil_append, List.append_nil] at final
    have ended : Run.exec (report save (pictures.zip (blockPaths chosen blocks.length))
        (blockPaths chosen blocks.length)) drawn = (.ok (.failed fault.message),
          after.record ⟨.error, "sfroster::export", "Export failed: " ++ fault.message⟩) := by
      rw [report, Run.exec_bind_ok stopped]
      exact ExportOutcome.exec_ofFault fault after
    have fewer := (List.getElem?_eq_some_iff.1 listed).1
    refine ⟨_, _, ended, .failed same (whole ▸ fewer) listed all refused final ?_⟩
    intro path late place located notLog
    apply final.elsewhere place _ notLog
    intro entry early held
    exact mem_zip_drop_apart (blockPaths_apart before.files chosen blocks.length) early late
      place held located

/-- Whether or not all pictures can be drawn, drawing them only logs. -/
private theorem wrote_drawAll (config : Config) (compare : Option Roster) (blocks : List Roster)
    (world : World) : Wrote world (Run.exec (drawAll config compare blocks) world).2 [] := by
  induction blocks generalizing world with
  | nil => exact Wrote.refl world
  | cons block blocks ih =>
    have logged := wrote_record world
      ⟨.debug, imagePart, s!"Rendering block of {block.length} players"⟩
    rw [drawAll, Run.exec_bind_ok (Run.exec_record _ world), Run.exec_bind, Run.exec_ofExcept]
    cases Block.render config compare block with
    | error fault => exact logged
    | ok picture =>
      have others := logged.trans (ih (world.record _)) (by simp)
      dsimp only
      rw [Run.exec_bind]
      cases done : Run.exec (drawAll config compare blocks) (world.record _) with
      | mk result after =>
        rw [done] at others
        cases result with
        | ok pictures => exact others
        | error fault => exact others

/-- The paths that pictures were written to are the first few paths of the blocks, and all of them
if the export says so. -/
theorem Exported.paths {save : PictureWriter} {config : Config} {compare : Option Roster}
    {blocks : List Roster} {chosen : Path} {before after : World} {outcome : ExportOutcome}
    (exported : Exported save config compare blocks chosen before after outcome) :
    ∃ pictures, Wrote before after pictures ∧
      pictures.map Prod.snd <+: blockPaths chosen blocks.length ∧
      ∀ paths, outcome = .written paths →
        paths = blockPaths chosen blocks.length ∧ pictures.map Prod.snd = paths := by
  have all : ∀ pictures : List Picture, blocks.map (Block.render config compare)
      = pictures.map .ok → (pictures.zip (blockPaths chosen blocks.length)).map Prod.snd
        = blockPaths chosen blocks.length := by
    intro pictures drawn
    have count : pictures.length = blocks.length := by
      simpa using (congrArg List.length drawn).symm
    exact List.map_snd_zip (Nat.le_of_eq (by rw [length_blockPaths, count]))
  cases exported with
  | written drawn wrote =>
    refine ⟨_, wrote, ⟨[], by rw [List.append_nil, all _ drawn]⟩, ?_⟩
    intro paths same
    cases same
    exact ⟨rfl, all _ drawn⟩
  | failed drawn _ _ _ _ wrote _ =>
    refine ⟨_, wrote, ?_, by simp⟩
    rw [List.map_take, all _ drawn]
    exact List.take_prefix _ _

/-- An export whose rows can all be built ends with an outcome. -/
theorem exec_asImageWith_ends {save : PictureWriter} (saves : SavesPictures save)
    (source : Source) (config : Config) (destination : Destination) (key : String)
    (compareKey : Option String) (onlyMembers : Bool) (world : World)
    (fine : ¬ FaultyBlocks (comparedRoster source key compareKey world)
      (exportedBlocks source key onlyMembers world)) :
    ∃ outcome after,
      Run.exec (asImageWith save source config destination key compareKey onlyMembers) world
        = (.ok outcome, after) ∧
      match destination.choice key .png world.input with
      | none => outcome = .cancelled ∧ Wrote world after []
      | some chosen => Exported save config (comparedRoster source key compareKey world)
          (exportedBlocks source key onlyMembers world) chosen world after outcome := by
  obtain ⟨asked, logged, done⟩ :=
    exec_asImageWith save source config destination key compareKey onlyMembers world
  rw [done]
  cases destination.choice key .png world.input with
  | none => exact ⟨.cancelled, asked, rfl, rfl, logged⟩
  | some chosen =>
    obtain ⟨faulty, _⟩ | ⟨_, pictures, drawn, same, wrote, others⟩ :=
      exec_exportBlocks save config key (comparedRoster source key compareKey world)
        (small_exportedBlocks source key onlyMembers world) chosen asked
    · exact absurd faulty fine
    · obtain ⟨outcome, after, ended, exported⟩ :=
        exported_report saves same (logged.trans wrote (by simp))
      exact ⟨outcome, after, others.trans ended, exported⟩

/-- However an export of pictures ends, it wrote pictures to the first few paths that belong to its
destination, to all of them if it says so, and otherwise only logged. -/
theorem asImageWith_wrote {save : PictureWriter} (saves : SavesPictures save) (source : Source)
    (config : Config) (destination : Destination) (key : String) (compareKey : Option String)
    (onlyMembers : Bool) (world : World) :
    let ran :=
      Run.exec (asImageWith save source config destination key compareKey onlyMembers) world
    let paths := ((destination.choice key .png world.input).map (blockPaths ·
      (exportedBlocks source key onlyMembers world).length)).getD []
    ∃ pictures, Wrote world ran.2 pictures ∧ pictures.map Prod.snd <+: paths ∧
      ∀ written, ran.1 = .ok (.written written) →
        written = paths ∧ pictures.map Prod.snd = written := by
  by_cases faulty : FaultyBlocks (comparedRoster source key compareKey world)
    (exportedBlocks source key onlyMembers world)
  · obtain ⟨asked, logged, done⟩ :=
      exec_asImageWith save source config destination key compareKey onlyMembers world
    dsimp only
    rw [done]
    cases destination.choice key .png world.input with
    | none => exact ⟨[], logged, List.nil_prefix, by simp⟩
    | some chosen =>
      have drawing := wrote_drawAll config (comparedRoster source key compareKey world)
        (exportedBlocks source key onlyMembers world) asked
      obtain ⟨_, after, failed⟩ | ⟨fine, _⟩ :=
        exec_drawAll config (comparedRoster source key compareKey world)
          (small_exportedBlocks source key onlyMembers world) asked
      · rw [failed] at drawing
        dsimp only
        rw [exportBlocks, Run.exec_bind_error failed]
        exact ⟨[], logged.trans drawing (by simp), List.nil_prefix, by simp⟩
      · exact absurd faulty fine
  · obtain ⟨outcome, after, done, ended⟩ := exec_asImageWith_ends saves source config destination
      key compareKey onlyMembers world faulty
    dsimp only
    rw [done]
    cases choice : destination.choice key .png world.input with
    | none =>
      rw [choice] at ended
      exact ⟨[], ended.2, List.nil_prefix, by simp [ended.1]⟩
    | some chosen =>
      rw [choice] at ended
      obtain ⟨written, left, early, whole⟩ := ended.paths
      exact ⟨written, left, early, fun paths same => whole paths (by simpa using same)⟩

/-- Paths of files that can be opened, and whose names tell that they are for pictures. -/
def TakesPictures (tree : FileTree) (paths : List Path) : Prop :=
  ∀ path ∈ paths, path.extension? = some FileKind.png.extension ∧
    ∃ place, tree.opened path = .ok place

theorem Wrote.takesPictures {before after : World} {pictures : List (Picture × Path)}
    (wrote : Wrote before after pictures) {paths : List Path}
    (takes : TakesPictures before.files paths) : TakesPictures after.files paths := by
  intro path member
  obtain ⟨extension, place, opening⟩ := takes path member
  exact ⟨extension, place, wrote.opened opening⟩

/-- No picture is refused by a file that takes pictures. -/
theorem Exported.written_of_takesPictures {config : Config} {compare : Option Roster}
    {blocks : List Roster} {chosen : Path} {before after : World} {outcome : ExportOutcome}
    (exported : Exported savePicture config compare blocks chosen before after outcome)
    (takes : TakesPictures before.files (blockPaths chosen blocks.length)) :
    outcome = .written (blockPaths chosen blocks.length) ∧
      ∃ pictures : List Picture,
        blocks.map (Block.render config compare) = pictures.map .ok ∧
        Wrote before after (pictures.zip (blockPaths chosen blocks.length)) := by
  cases exported with
  | written drawn wrote => exact ⟨rfl, _, drawn, wrote⟩
  | @failed _ picture path _ _ between _ _ stopped logged refused _ _ =>
    have listed := (List.of_mem_zip (List.mem_of_getElem? stopped)).2
    obtain ⟨extension, place, opening⟩ := logged.takesPictures takes path listed
    have written : between.files.write path (.picture picture)
        = .ok (between.files.put place (.file (.picture picture))) :=
      FileTree.write_eq_ok_iff.2 ⟨place, opening, rfl⟩
    rw [savePicture, if_pos extension, written] at refused
    cases refused

/-- An export writes all its pictures if its rows can be built and its files take pictures. -/
theorem exec_asImage_written {source : Source} {config : Config} {destination : Destination}
    {key : String} {compareKey : Option String} {onlyMembers : Bool} {world : World}
    {chosen : Path} {paths : List Path}
    (fine : ¬ FaultyBlocks (comparedRoster source key compareKey world)
      (exportedBlocks source key onlyMembers world))
    (choice : destination.choice key .png world.input = some chosen)
    (named : blockPaths chosen (exportedBlocks source key onlyMembers world).length = paths)
    (takes : TakesPictures world.files paths) :
    ∃ (pictures : List Picture) (after : World),
      Run.exec (asImage source config destination key compareKey onlyMembers) world
        = (.ok (.written paths), after) ∧
      (exportedBlocks source key onlyMembers world).map
          (Block.render config (comparedRoster source key compareKey world)) = pictures.map .ok ∧
      Wrote world after (pictures.zip paths) := by
  subst named
  obtain ⟨outcome, after, done, ended⟩ := exec_asImageWith_ends savesPictures_savePicture source
    config destination key compareKey onlyMembers world fine
  rw [choice] at ended
  obtain ⟨rfl, pictures, drawn, wrote⟩ := ended.written_of_takesPictures takes
  exact ⟨pictures, after, done, drawn, wrote⟩

/-- An export of pictures whose rows can be built is cancelled and writes nothing, or it ends as
`Exported` says, for the blocks of the roster. -/
theorem asImageWith_writes_blocks {save : PictureWriter} (saves : SavesPictures save)
    (source : Source) (config : Config) (destination : Destination) (key : String)
    (compareKey : Option String) (onlyMembers : Bool) (world : World)
    (rows : ∀ block ∈ exportedBlocks source key onlyMembers world, ∀ player ∈ block,
      ∃ cells, Row.build config player ((comparedRoster source key compareKey world).bind
        fun roster => roster.findByName? player.name) = .ok cells) :
    (onlyMembers = false →
      (exportedBlocks source key onlyMembers world).flatten = (source.roster key world.files).1 ∧
      (∀ block ∈ (exportedBlocks source key onlyMembers world).dropLast, block.length = 50) ∧
      ∀ block ∈ exportedBlocks source key onlyMembers world, block ≠ [] ∧ block.length ≤ 50) ∧
    (onlyMembers = true → exportedBlocks source key onlyMembers world =
      [((source.roster key world.files).1.take 50).filter (·.isMember)]) ∧
    ∃ outcome after,
      Run.exec (asImageWith save source config destination key compareKey onlyMembers) world
        = (.ok outcome, after) ∧
      match destination.choice key .png world.input with
      | none => outcome = .cancelled ∧ Wrote world after []
      | some chosen => Exported save config (comparedRoster source key compareKey world)
          (exportedBlocks source key onlyMembers world) chosen world after outcome := by
  refine ⟨?all, ?members, ?ending⟩
  case all =>
    intro equal
    subst equal
    refine ⟨Block.flatten_chunks _ _, ?_, ?_⟩
    · intro block member
      exact Block.length_chunk_of_dropLast (by decide) member
    · intro block member
      exact ⟨Block.chunks_ne_nil member, Block.length_plan_le member⟩
  case members =>
    intro equal
    subst equal
    rfl
  case ending =>
    apply exec_asImageWith_ends saves
    rintro ⟨block, member, player, inBlock, faulty⟩
    exact (Row.build_failsJust config player _).succeeds_iff.1
      (rows block member player inBlock) faulty

/-- A roster of one player more than a picture has room for, and an earlier one. -/
def crowdedRosters : Source :=
  .ofRosters [("now", List.replicate 50 { name := "A", level := 3 } ++ [{ name := "B" }]),
    ("before", [{ name := "A", level := 1 }])]

/-- The player behind the first fifty goes into a second picture. -/
theorem asImage_writes_two_blocks :
    ∃ first second after,
      Run.exec (asImage crowdedRosters {} (.fixed (some ⟨['o']⟩)) "now" (some "before") false) {}
        = (.ok (.written [.ofString "o.png", .ofString "o_1.png"]), after) ∧
      Block.render {} (some [{ name := "A", level := 1 }])
        (List.replicate 50 { name := "A", level := 3 }) = .ok first ∧
      Block.render {} (some [{ name := "A", level := 1 }]) [{ name := "B" }] = .ok second ∧
      after.files.find (.ofString "o.png") = .ok (.file (.picture first)) ∧
      after.files.find (.ofString "o_1.png") = .ok (.file (.picture second)) := by
  have blocks : exportedBlocks crowdedRosters "now" false {}
      = [List.replicate 50 { name := "A", level := 3 }, [{ name := "B" }]] := by
    change Block.chunks 50 (List.replicate 50 ({ name := "A", level := 3 } : Player)
      ++ [{ name := "B" }]) = _
    rw [Block.chunks_append (by decide) List.length_replicate]
    simp [Block.chunks]
  have rows : ∀ block ∈ exportedBlocks crowdedRosters "now" false {}, ∀ player ∈ block,
      ∃ cells, Row.build {} player ((comparedRoster crowdedRosters "now" (some "before") {}).bind
        fun roster => roster.findByName? player.name) = .ok cells := by
    intro block member player inBlock
    apply (Row.build_failsJust {} player _).succeeds
    rw [blocks, List.mem_cons, List.mem_singleton] at member
    rcases member with rfl | rfl
    · obtain ⟨_, rfl⟩ := List.mem_replicate.1 inBlock
      decide
    · obtain rfl := List.mem_singleton.1 inBlock
      decide
  obtain ⟨_, _, outcome, after, done, ended⟩ :=
    asImageWith_writes_blocks savesPictures_savePicture crowdedRosters {} (.fixed (some ⟨['o']⟩))
      "now" (some "before") false {} rows
  rw [blocks] at ended
  have paths : blockPaths (.ofString "o.png") 2 = [.ofString "o.png", .ofString "o_1.png"] := by
    decide
  have takes : TakesPictures ({} : World).files (blockPaths (.ofString "o.png") 2) := by
    rw [paths, TakesPictures, List.forall_mem_cons, List.forall_mem_singleton]
    exact ⟨⟨by decide, _, rfl⟩, by decide, _, rfl⟩
  obtain ⟨rfl, pictures, drawn, wrote⟩ := Exported.written_of_takesPictures ended takes
  rw [List.map_cons, List.map_cons, List.map_nil] at drawn
  obtain ⟨first, _, rfl, one, rest⟩ := List.map_eq_cons_iff.1 drawn.symm
  obtain ⟨second, _, rfl, two, none⟩ := List.map_eq_cons_iff.1 rest
  obtain rfl := List.map_eq_nil_iff.1 none
  exact ⟨first, second, after, done, one.symm, two.symm,
    wrote.written (first, .ofString "o.png") List.mem_cons_self,
    wrote.written (second, .ofString "o_1.png") (List.mem_cons_of_mem _ List.mem_cons_self)⟩

end Export

end GuildRoster
