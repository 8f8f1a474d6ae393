import GuildRoster.Program
import GuildRoster.Proofs.CommandLines
import GuildRoster.Proofs.Runs

/-!
# The log of a run

A run opens its log at most once, before it carries anything out, and nothing that it does later
closes the log or moves it. Where the log goes is decided by the options that are given and by the
configuration; an option given the value that stands for its absence counts as not given.
-/

set_option autoImplicit false

namespace GuildRoster

/-! ## Runs that leave the log where it is -/

namespace World

theorem log_record (world : World) (entry : LogEntry) : (world.record entry).log = world.log := by
  cases opened : world.log <;> simp [record, opened]

theorem log_recordAll (world : World) (entries : List LogEntry) :
    (world.recordAll entries).log = world.log := by
  induction entries generalizing world with
  | nil => rfl
  | cons entry entries ih => exact (ih (world.record entry)).trans (world.log_record entry)

end World

/-- A run that neither opens nor closes nor moves the log. -/
def Run.KeepsLog {α : Type} (run : Run α) : Prop := ∀ world, (exec run world).2.log = world.log

namespace Run.KeepsLog

variable {α β : Type} {run : Run α} {next : α → Run β}

theorem pure (value : α) : KeepsLog (pure value) := fun _ => rfl

theorem get : KeepsLog get := fun _ => rfl

theorem setFiles (files : FileTree) : KeepsLog (modify fun world => { world with files }) :=
  fun _ => rfl

theorem ofExcept (computation : Except Fault α) : KeepsLog (ofExcept computation) := by
  intro world
  rw [exec_ofExcept]

theorem bind (first : KeepsLog run) (rest : ∀ value, KeepsLog (next value)) :
    KeepsLog (run >>= next) := by
  intro world
  have before := first world
  rw [exec_bind]
  cases done : exec run world with
  | mk result after =>
    rw [done] at before
    cases result with
    | error fault => exact before
    | ok value => exact (rest value after).trans before

theorem map (first : KeepsLog run) (change : α → β) : KeepsLog (change <$> run) := by
  rw [map_eq_pure_bind]
  exact first.bind fun value => .pure (change value)

theorem record (entry : LogEntry) : KeepsLog (record entry) := fun world => world.log_record entry

theorem print (text : String) : KeepsLog (print text) := fun _ => rfl

theorem tell (text : String) : KeepsLog (tell text) := fun _ => rfl

theorem askKeys (source : Source) : KeepsLog source.askKeys := by
  intro world
  rw [source.exec_askKeys]
  exact world.log_recordAll _

theorem askRoster (source : Source) (key : String) : KeepsLog (source.askRoster key) := by
  intro world
  rw [source.exec_askRoster]
  exact world.log_recordAll _

/-! ### Exports -/

theorem choose (destination : Destination) (title name : String) (kind : FileKind) :
    KeepsLog (destination.choose title name kind) := by
  cases destination with
  | fixed path => exact pure _
  | asked =>
    have setInput : ∀ input, KeepsLog (modify fun world => { world with input }) :=
      fun _ _ => rfl
    exact (tell _).bind fun _ => get.bind fun world => (setInput _).bind fun _ => pure _

theorem ofFault (fault : ExportFault) : KeepsLog (ExportOutcome.ofFault fault) :=
  (record _).bind fun _ => pure _

theorem asCsv (source : Source) (destination : Destination) (key : String) (onlyMembers : Bool) :
    KeepsLog (Export.asCsv source destination key onlyMembers) := by
  refine (choose _ _ _ _).bind fun chosen => ?_
  cases chosen with
  | none => exact (record _).bind fun _ => pure _
  | some path =>
    refine (askRoster source key).bind fun roster => get.bind fun world => ?_
    split
    next => exact ofFault _
    next => exact (setFiles _).bind fun _ => (record _).bind fun _ => pure _

theorem drawAll (config : Config) (compare : Option Roster) (blocks : List Roster) :
    KeepsLog (Export.drawAll config compare blocks) := by
  induction blocks with
  | nil => exact pure _
  | cons block blocks ih =>
    exact (record _).bind fun _ => (ofExcept _).bind fun _ => ih.bind fun _ => pure _

theorem writeAll (save : Export.PictureWriter) (pictures : List (Picture × Path)) :
    KeepsLog (Export.writeAll save pictures) := by
  induction pictures with
  | nil => exact pure _
  | cons first pictures ih =>
    refine get.bind fun world => ?_
    split
    next => exact pure _
    next => exact (setFiles _).bind fun _ => (record _).bind fun _ => ih

theorem exportBlocks (config : Config) (key : String)
    (compare : Option Roster) (blocks : List Roster) (chosen : Path) :
    KeepsLog (Export.exportBlocks Export.savePicture config key compare blocks chosen) := by
  refine (drawAll config compare blocks).bind fun pictures => ?_
  have written : KeepsLog (Export.writeAll Export.savePicture
      (pictures.zip (Export.blockPaths chosen pictures.length))) := writeAll _ _
  split
  next =>
    refine (record _).bind fun _ => written.bind fun fault => ?_
    cases fault with
    | some fault => exact ofFault fault
    | none => exact pure _
  next =>
    refine written.bind fun fault => ?_
    cases fault with
    | some fault => exact ofFault fault
    | none => exact pure _

theorem asImage (source : Source) (config : Config) (destination : Destination) (key : String)
    (compareKey : Option String) (onlyMembers : Bool) :
    KeepsLog (Export.asImage source config destination key compareKey onlyMembers) := by
  have compared : KeepsLog (Export.askCompared source compareKey) := by
    cases compareKey with
    | none => exact pure _
    | some key => exact (askRoster source key).map _
  refine (askRoster source key).bind fun roster => compared.bind fun compare => ?_
  refine (choose _ _ _ _).bind fun chosen => ?_
  cases chosen with
  | none => exact (record _).bind fun _ => pure _
  | some path => exact exportBlocks _ _ _ _ _

theorem report (outcome : ExportOutcome) : KeepsLog (Commands.report outcome) := by
  cases outcome with
  | failed message => exact pure _
  | cancelled => exact (print _).bind fun _ => pure _
  | written paths => exact (print _).bind fun _ => pure _

/-! ### Commands -/

theorem openSource (environment : Environment) (config : Config) (directory : Option Path)
    (samples : Bool) : KeepsLog (Commands.openSource environment config directory samples) := by
  unfold Commands.openSource
  split
  next => exact pure _
  next =>
    split
    next => exact pure _
    next => exact (record _).bind fun _ => pure _

theorem listLines (source : Source) (keys : List String) :
    KeepsLog (Commands.listLines source keys) := by
  induction keys with
  | nil => exact pure _
  | cons key keys ih => exact (askRoster source key).bind fun _ => ih.bind fun _ => pure _

theorem list (source : Source) : KeepsLog (Commands.list source) := by
  have lines : KeepsLog (Commands.rosterList source) :=
    (askKeys source).bind fun keys => (listLines source keys).bind fun _ => pure _
  exact lines.bind fun text => print text

theorem printSheets (config : Config) (set : DrawingSet) (first : Bool) (roster : Roster) :
    KeepsLog (Commands.printSheets config set first roster) := by
  induction roster generalizing first with
  | nil => exact pure _
  | cons player players ih =>
    have rest : KeepsLog (do
        let sheet ← Run.ofExcept (Sheet.build config player)
        Run.print (sheet.printed set)
        Commands.printSheets config set false players) :=
      (ofExcept _).bind fun sheet => (print _).bind fun _ => ih false
    cases first with
    | true => exact rest
    | false => exact (print _).bind fun _ => rest

theorem showPlayers (source : Source) (config : Config) (key : String) (name : Option String)
    (set : DrawingSet) : KeepsLog (Commands.showPlayers source config key name set) := by
  refine (askRoster source key).bind fun roster => ?_
  split
  next => exact pure _
  next =>
    cases name with
    | none => exact (printSheets _ _ _ _).map _
    | some name =>
      dsimp only
      split
      next => exact pure _
      next => exact (printSheets _ _ _ _).map _

theorem saveAll (store : Store) (rosters : List (String × Roster)) :
    KeepsLog (Commands.saveAll store rosters) := by
  induction rosters with
  | nil => exact pure _
  | cons first rosters ih =>
    obtain ⟨key, roster⟩ := first
    refine get.bind fun world => ?_
    generalize store.save world.files key roster = saved
    obtain ⟨files, result⟩ := saved
    refine (setFiles files).bind fun _ => ?_
    cases result with
    | error cause => exact pure _
    | ok path =>
      refine ih.bind fun others => ?_
      cases others with
      | error fault => exact pure _
      | ok paths => exact pure _

theorem reportPaths (paths : List Path) : KeepsLog (Commands.reportPaths paths) := by
  induction paths with
  | nil => exact pure _
  | cons path paths ih => exact (record _).bind fun _ => (print _).bind fun _ => ih

theorem demo (directory : Path) : KeepsLog (Commands.demo directory) := by
  refine (saveAll _ _).bind fun saved => ?_
  cases saved with
  | error fault => exact pure _
  | ok paths => exact (reportPaths paths).map _

theorem withSource (config : Config) (source : Source) (command : Command) :
    KeepsLog (Program.withSource config source command) := by
  cases command with
  | exportImage => exact (asImage _ _ _ _ _ _).bind report
  | exportCsv => exact (asCsv _ _ _ _).bind report
  | showPlayers => exact showPlayers _ _ _ _ _
  | list => exact (list source).map _
  | demo => exact pure _
  | config => exact pure _

theorem carryOut (environment : Environment) (config : Config) (line : CommandLine)
    (command : Command) : KeepsLog (Program.carryOut environment config line command) := by
  unfold Program.carryOut
  split
  next => exact (get.bind fun _ => print _).map _
  next =>
    split
    next => exact demo _
    next => exact pure _
  next =>
    refine (openSource _ _ _ _).bind fun opened => ?_
    cases opened with
    | error fault => exact pure _
    | ok source => exact withSource config source _

theorem reportFailure (fault : CommandFault) : KeepsLog (Program.reportFailure fault) :=
  (tell _).bind fun _ => (record _).bind fun _ => pure _

theorem interactive (environment : Environment) (config : Config) (line : CommandLine) :
    KeepsLog (Program.interactive environment config line) :=
  (openSource _ _ _ _).bind fun _ => (tell _).bind fun _ => pure _

end Run.KeepsLog

namespace Program

/-! ## The log that a run opens -/

/-- What a run without a log yet logs to: nothing if the file is the one that stands for no log or
if it cannot be opened. -/
def logTo (files : FileTree) (time level file : String) : Option LogSink :=
  if file = defaultLogFile then none
  else
    match files.opened (.ofString file) with
    | .ok location => some { location, level := .ofName level, time }
    | .error _ => none

/-- A setting with an option for it: the value that is given, unless that is the default, and
otherwise what is configured. -/
def setting (default : String) (given : Option String) (configured : String) : String :=
  match given with
  | some value => if value = default then configured else value
  | none => configured

/-- An option wins over the configuration unless it asks for the default in place of something
else. -/
theorem setting_eq_getD_iff {default configured : String} {given : Option String} :
    setting default given configured = given.getD configured ↔
      (given = some default → configured = default) := by
  cases given with
  | none => simp [setting]
  | some value =>
    by_cases same : value = default
    · simp [setting, same]
    · simp [setting, same]

theorem setting_getD (default configured : String) (given : Option String) :
    (if given.getD default = default then configured else given.getD default)
      = setting default given configured := by
  cases given with
  | none => simp [setting]
  | some value => simp [setting]

/-- What a run does once it has opened its log. -/
def proceed (environment : Environment) (config : Config) (line : CommandLine) :
    Run ExitStatus := do
  match line.command with
  | none => interactive environment config line
  | some command =>
    match ← carryOut environment config line command with
    | .ok () => return .success
    | .error fault => reportFailure fault

theorem proceed_keepsLog (environment : Environment) (config : Config) (line : CommandLine) :
    (proceed environment config line).KeepsLog := by
  unfold proceed
  split
  next => exact .interactive _ _ _
  next command =>
    refine (Run.KeepsLog.carryOut _ _ _ _).bind fun result => ?_
    cases result with
    | ok nothing => exact .pure _
    | error fault => exact .reportFailure fault

variable {environment : Environment} {time : String} {arguments : List String} {world : World}
  {config : Config} {line : CommandLine}

theorem log_openLog (closed : world.log = none) {level file : String}
    (wanted : file ≠ defaultLogFile) :
    ∃ opened, Run.exec (openLog time level file) world = (.ok (), opened) ∧
      opened.log = logTo world.files time level file := by
  unfold openLog logTo
  rw [if_neg wanted, Run.exec_bind_ok (Run.exec_get world)]
  cases world.files.opened (.ofString file) with
  | error fault => exact ⟨_, rfl, closed⟩
  | ok location => exact ⟨_, rfl, rfl⟩

theorem log_run (loaded : Config.load environment world.files = .ok config)
    (done : CommandLine.read arguments = .ok line) (closed : world.log = none) :
    (Run.exec (run environment time arguments) world).2.log =
      logTo world.files time (logChoice line config).1 (logChoice line config).2 := by
  have loading : Run.exec (Run.ofExcept (Config.load environment world.files)) world
      = (.ok config, world) := by
    rw [Run.exec_ofExcept, loaded]
  unfold run
  rw [Run.exec_bind_ok (Run.exec_get world), Run.exec_bind_ok loading, done]
  dsimp only
  obtain ⟨level, file⟩ := logChoice line config
  change (Run.exec (if file ≠ defaultLogFile then
    openLog time level file >>= fun _ => proceed environment config line
    else proceed environment config line) world).2.log = logTo world.files time level file
  by_cases wanted : file = defaultLogFile
  · rw [if_neg (not_not_intro wanted), proceed_keepsLog, closed, logTo, if_pos wanted]
  · obtain ⟨opened, opening, sink⟩ := log_openLog closed wanted
    rw [if_pos wanted, Run.exec_bind_ok opening, proceed_keepsLog, sink]

/-- What a command line gives for an option. Given on both sides of the command, the value behind it
counts. -/
def lastGiven (before after : Given) (name : String) : Option String :=
  after.options.lookup name <|> before.options.lookup name

theorem logChoice_assemble (before after : Given) (command : Option Command) (config : Config) :
    logChoice (CommandLine.assemble before after command) config =
      (setting defaultLogLevel (lastGiven before after "log-level") config.logLevel,
        setting defaultLogFile (lastGiven before after "log-file") config.logFile) := by
  rw [← setting_getD, ← setting_getD]
  rfl

private theorem level_known :
    ({ name := "log-level", letter := some 'L', form := .text } : OptionSpec) ∈
      CommandLine.globalSpecs := by
  decide

private theorem file_known :
    ({ name := "log-file", letter := some 'F', form := .text } : OptionSpec) ∈
      CommandLine.globalSpecs := by
  decide

/-- A command behind one option. -/
theorem spelled_list {spec : OptionSpec} {letter : Char} {value : String}
    (known : spec ∈ CommandLine.globalSpecs) (named : spec.letter = some letter)
    (takes : spec.form ≠ .switch) (plain : CommandLine.looksLikeOption value = false) :
    CommandLine.Spelled ["-" ++ String.ofList [letter], value, "list"]
      { options := [(spec.name, value)] } {} := by
  have group : CommandLine.SpellsLetters CommandLine.globalSpecs [letter] [value, "list"]
      [(spec.name, value)] ["list"] := .next known named takes plain
  have first := CommandLine.Spells.more (.letters (List.cons_ne_nil letter []) group) .done
  rw [CommandLine.both_nothing] at first
  have listed : ({ name := "list", make := fun _ _ => .list } : CommandLine.CommandSpec) ∈
      CommandLine.commandSpecs := by
    simp [CommandLine.commandSpecs]
  exact .command first rfl listed .done

/-- The log of a run goes where the options say that its arguments spell, and for what they do not
say, where the configuration says. An option loses to the configuration in one case: when it asks
for the default and something else is configured. -/
theorem log_of_options (environment : Environment) (time : String) (arguments : List String)
    (world : World) (config : Config) (line : CommandLine)
    (loaded : Config.load environment world.files = .ok config)
    (done : CommandLine.read arguments = .ok line) (closed : world.log = none) :
    (∃ before after, CommandLine.Spelled arguments before after) ∧
    ∀ before after, CommandLine.Spelled arguments before after → ∀ level file,
      lastGiven before after "log-level" = level → lastGiven before after "log-file" = file →
      (Run.exec (run environment time arguments) world).2.log =
        logTo world.files time (setting defaultLogLevel level config.logLevel)
          (setting defaultLogFile file config.logFile) ∧
      (setting defaultLogLevel level config.logLevel = level.getD config.logLevel ↔
        (level = some defaultLogLevel → config.logLevel = defaultLogLevel)) ∧
      (setting defaultLogFile file config.logFile = file.getD config.logFile ↔
        (file = some defaultLogFile → config.logFile = defaultLogFile)) := by
  refine ⟨CommandLine.spelled_of_read done, fun before after spelled level file given names => ?_⟩
  subst given names
  refine ⟨?_, setting_eq_getD_iff, setting_eq_getD_iff⟩
  rw [log_run loaded done closed, CommandLine.read_of_spelled done spelled, logChoice_assemble]

theorem log_of_options_own :
    (Run.exec (run {} "now" ["-F", "own.log", "list"]) {}).2.log =
      logTo {} "now" "info" "own.log" := by
  have spelled : CommandLine.Spelled ["-F", "own.log", "list"]
      { options := [("log-file", "own.log")] } {} :=
    spelled_list file_known rfl (by decide) rfl
  obtain ⟨_, each⟩ := log_of_options {} "now" ["-F", "own.log", "list"] {} {}
    { logFile := "own.log", command := some .list } rfl rfl rfl
  exact (each _ _ spelled _ _ rfl rfl).1

/-- Files with a configuration that asks for a log of errors. -/
def configuredTree : FileTree where
  entries := [(["sfroster".toList], .directory),
    (["sfroster".toList, "config.toml".toList],
      .file (.text "log_level = \"error\"\nlog_file = \"run.log\"\n"))]

/-- The level `info` and the file `/dev/null` are given, and those of the configuration are used. -/
theorem options_can_lose :
    CommandLine.Spelled ["-L", "info", "list"] { options := [("log-level", "info")] } {} ∧
    (Run.exec (run { configHome := some ⟨[]⟩ } "" ["-L", "info", "list"])
      { files := configuredTree }).2.log.map (·.level) = some .error ∧
    CommandLine.Spelled ["-F", "/dev/null", "list"] { options := [("log-file", "/dev/null")] } {} ∧
    (Run.exec (run { configHome := some ⟨[]⟩ } "" ["-F", "/dev/null", "list"])
      { files := configuredTree }).2.log.map (·.location) = some ["run.log".toList] := by
  refine ⟨?_, by decide +kernel, ?_, by decide +kernel⟩
  · exact spelled_list level_known rfl (by decide) rfl
  · exact spelled_list file_known rfl (by decide) rfl

end Program

end GuildRoster
