import GuildRoster.Proofs.ImageExport
import GuildRoster.Proofs.Tables

/-!
# Exports of tables

What an export of a roster as a table leaves behind: the whole table at the chosen path and nothing
else, or nothing at all. The log is kept as well, and it may be kept in any file.
-/

set_option autoImplicit false

namespace GuildRoster.Export

/-- Logging leaves a text where it is; what it adds to it is nothing outside the file of the log. -/
theorem text_record {world : World} {place : Location} {characters : String}
    (held : world.files.get? place = some (.file (.text characters))) (entry : LogEntry) :
    ∃ logged, (world.record entry).files.get? place = some (.file (.text (characters ++ logged))) ∧
      (world.logFile ≠ some place → logged = "") := by
  by_cases apart : world.logFile ≠ some place
  · refine ⟨"", ?_, fun _ => rfl⟩
    rw [(wrote_record world entry).elsewhere place (by simp) apart, held, String.append_empty]
  · obtain ⟨sink, logged, rfl⟩ := Option.map_eq_some_iff.1 (not_not.1 apart)
    have notRoot : sink.location ≠ [] := by
      intro root
      rw [root, FileTree.get?_nil] at held
      cases held
    by_cases keeps : sink.keeps entry = true
    · refine ⟨sink.line entry, ?_, fun other => absurd other apart⟩
      simp only [World.record, logged, LogSink.record, if_pos keeps, FileTree.append, held]
      exact FileTree.get?_put_self _ notRoot _
    · refine ⟨"", ?_, fun _ => rfl⟩
      simp only [World.record, logged, LogSink.record, if_neg keeps, held, String.append_empty]

/-- What must hold of a way to keep tables: a text is put where its path leads, in place of nothing
or of a file, and nothing else changes. -/
def SavesTables (save : TableWriter) : Prop :=
  ∀ text path tree written, save text path tree = .ok written →
    tree.Puts path (.text text) written

theorem savesTables_saveTable : SavesTables saveTable := fun _ _ _ _ => FileTree.puts_of_write

/-- How an export of some players to a path can end, with the world before and after it: the whole
table is where the path leads, or it could not be saved and nothing has changed. Only the file of
the log may have grown as well. -/
inductive TableExported (save : TableWriter) (players : Roster) (path : Path)
    (before after : World) : ExportOutcome → Prop where
  | written {place : Location} {logged : String} (located : before.files.locate path = .ok place)
      (found : after.files.find path = .ok (.file (.text (Csv.header
        ++ String.join (players.map fun player => "\n" ++ Csv.row player) ++ logged))))
      (nothing : before.logFile ≠ some place → logged = "")
      (elsewhere : ∀ other, other ≠ place → before.logFile ≠ some other →
        after.files.get? other = before.files.get? other) :
      TableExported save players path before after (.written [path])
  | failed {asked : World} {cause : FileFault} (logged : Wrote before asked [])
      (refused : save (Csv.table players) path asked.files = .error cause)
      (untouched : Wrote before after []) :
      TableExported save players path before after
        (.failed (ExportFault.table path cause).message)

/-- A table that has been saved is where it belongs, also when that is logged. -/
theorem tableExported_record {save : TableWriter} {players : Roster} {path : Path}
    {before asked saved : World} (logged : Wrote before asked []) (sameLog : saved.log = asked.log)
    (puts : asked.files.Puts path (.text (Csv.table players)) saved.files) (entry : LogEntry) :
    TableExported save players path before (saved.record entry) (.written [path]) := by
  have kept := puts.keepsDirectories.1
  obtain ⟨place, located, _, _, changed⟩ := puts
  have logFile : saved.logFile = before.logFile := by
    rw [World.logFile, World.logFile, sameLog, logged.log]
  have recorded := wrote_record saved entry
  have held : saved.files.get? place = some (.file (.text (Csv.table players))) := by
    rw [changed, if_pos rfl]
  obtain ⟨added, holds, nothing⟩ := text_record held entry
  rw [Csv.table, Csv.write_eq] at holds
  refine .written (logged.locate_iff.1 located) ?found (logFile ▸ nothing) ?elsewhere
  case found =>
    exact FileTree.find_eq_file_iff.2
      ⟨place, recorded.locate_iff.2 (kept.locate located), holds⟩
  case elsewhere =>
    intro other apart notLog
    rw [recorded.elsewhere other (by simp) (logFile ▸ notLog), changed, if_neg apart,
      logged.elsewhere other (by simp) notLog]

/-- However an export of a table ends, it ends with an outcome. -/
theorem exec_asCsvWith {save : TableWriter} (saves : SavesTables save) (source : Source)
    (destination : Destination) (key : String) (onlyMembers : Bool) (world : World) :
    ∃ outcome after,
      Run.exec (asCsvWith save source destination key onlyMembers) world = (.ok outcome, after) ∧
      match destination.choice key .csv world.input with
      | none => outcome = .cancelled ∧ Wrote world after []
      | some path =>
        TableExported save (Csv.exported onlyMembers (source.roster key world.files).1) path world
          after outcome := by
  obtain ⟨asked, chosen, sameFiles, sameLog⟩ := destination.exec_choose "Save as" key .csv world
  have untouched := Wrote.of_eq sameFiles sameLog
  rw [asCsvWith, Run.exec_bind_ok chosen]
  cases destination.choice key .csv world.input with
  | none => exact ⟨_, _, rfl, rfl, untouched.trans (wrote_record asked _) (by simp)⟩
  | some path =>
    generalize answered : asked.recordAll (source.roster key asked.files).2 = told
    have logged : Wrote world told [] :=
      answered ▸ untouched.trans (wrote_recordAll asked _) (by simp)
    dsimp only
    rw [Run.exec_bind_ok (source.exec_askRoster key asked), answered, sameFiles,
      Run.exec_bind_ok (Run.exec_get told)]
    cases saving : save _ path told.files with
    | ok files =>
      exact ⟨_, _, rfl, @tableExported_record save _ path world told { told with files } logged rfl
        (saves _ _ _ _ saving) _⟩
    | error cause =>
      exact ⟨_, _, rfl, .failed logged saving (logged.trans (wrote_record told _) (by simp))⟩

/-- An export of a roster as a table is cancelled and changes nothing, or it ends as `TableExported`
says, for all players of the roster or for its members, in their order. The table is written with
the number of its rows. -/
theorem asCsvWith_writes_table {save : TableWriter} (saves : SavesTables save) (source : Source)
    (destination : Destination) (key : String) (onlyMembers : Bool) (world : World) :
    let roster := (source.roster key world.files).1
    let players := if onlyMembers then roster.filter (·.isMember) else roster
    Csv.write (Csv.exported onlyMembers roster) = ⟨Csv.header
      ++ String.join (players.map fun player => "\n" ++ Csv.row player), players.length⟩ ∧
    ∃ outcome after,
      Run.exec (asCsvWith save source destination key onlyMembers) world = (.ok outcome, after) ∧
      match destination.choice key .csv world.input with
      | none => outcome = .cancelled ∧ Wrote world after []
      | some path => TableExported save players path world after outcome := by
  have players : Csv.exported onlyMembers (source.roster key world.files).1
      = if onlyMembers then (source.roster key world.files).1.filter (·.isMember)
        else (source.roster key world.files).1 := by
    cases onlyMembers <;> simp [Csv.exported]
  dsimp only
  rw [← players]
  exact ⟨Csv.write_eq _, exec_asCsvWith saves source destination key onlyMembers world⟩

/-- A file that can be opened takes the table. -/
theorem TableExported.written_of_opened {players : Roster} {path : Path} {before after : World}
    {outcome : ExportOutcome}
    (exported : TableExported saveTable players path before after outcome) {place : Location}
    (opening : before.files.opened path = .ok place) :
    outcome = .written [path] ∧ ∃ logged, (before.logFile ≠ some place → logged = "") ∧
      after.files.find path = .ok (.file (.text (Csv.header
        ++ String.join (players.map fun player => "\n" ++ Csv.row player) ++ logged))) := by
  cases exported with
  | @written found logged located holds nothing _ =>
    have same : place = found :=
      Except.ok.inj ((FileTree.locate_of_opened opening).symm.trans located)
    exact ⟨rfl, logged, same ▸ nothing, holds⟩
  | @failed asked _ logged refused _ =>
    have written : saveTable (Csv.table players) path asked.files
        = .ok (asked.files.put place (.file (.text (Csv.table players)))) :=
      FileTree.write_eq_ok_iff.2 ⟨place, logged.opened opening, rfl⟩
    rw [written] at refused
    cases refused

/-- A member of a guild with a name and nothing else. -/
def namedMember : Player := { name := "B", membership := some { role := .member } }

theorem row_namedMember : Csv.row namedMember =
    "B;0;0;;;;" ++ Binary64.fixed 6 (albumFraction 0)
      ++ ";0;0;0;0;0;0;0;0;0;0;0;0;0;0;0;0;0;0;0;0;0;0;0" := by
  have zero : Figures.plain 0 = "0" := by decide
  have unnamed : Labels.className 0 = "" ∧ Labels.raceName 0 = "" ∧ Labels.sexName 0 = "" := by
    decide
  have fields : Csv.fields namedMember =
      ["B", "0", "0", "", "", "", Binary64.fixed 6 (albumFraction 0),
        "0", "0", "0", "0", "0", "0", "0", "0", "0", "0", "0", "0", "0", "0", "0", "0", "0", "0",
        "0", "0", "0", "0", "0"] := by
    simp [Csv.fields, namedMember, zero, unnamed, Csv.guildFields, PotionBelt.toList]
  rw [← String.toList_inj, Csv.row, Csv.toList_intercalate_fields, fields]
  simp

/-- Only the second player of the roster is a member. -/
theorem asCsv_writes_second_player :
    let source := Source.ofRosters [("now", [{ name := "A" }, namedMember])]
    SavesTables saveTable ∧
    (Csv.write (Csv.exported true (source.roster "now" {}).1)).rows = 1 ∧
    ∃ after,
      Run.exec (asCsv source (.fixed (some ⟨['o']⟩)) "now" true) {}
        = (.ok (.written [.ofString "o.csv"]), after) ∧
      TableExported saveTable [namedMember] (.ofString "o.csv") {} after
        (.written [.ofString "o.csv"]) ∧
      after.files.find (.ofString "o.csv") = .ok (.file (.text (Csv.header ++ "\n"
        ++ "B;0;0;;;;" ++ Binary64.fixed 6 (albumFraction 0)
        ++ ";0;0;0;0;0;0;0;0;0;0;0;0;0;0;0;0;0;0;0;0;0;0;0"))) := by
  intro source
  obtain ⟨table, outcome, after, done, ended⟩ := asCsvWith_writes_table savesTables_saveTable source
    (.fixed (some ⟨['o']⟩)) "now" true {}
  have exported : TableExported saveTable [namedMember] (.ofString "o.csv") {} after outcome :=
    ended
  obtain ⟨rfl, logged, nothing, found⟩ := exported.written_of_opened rfl
  refine ⟨savesTables_saveTable, congrArg Csv.Written.rows table, after, done, exported, ?_⟩
  rw [found, nothing (by decide), List.map_singleton, row_namedMember]
  simp only [String.join_cons, String.join_nil, String.append_assoc, String.append_empty]

end GuildRoster.Export
