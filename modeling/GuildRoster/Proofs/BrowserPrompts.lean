import GuildRoster.Proofs.BrowserRuns

/-!
# Export prompts

From the key that opens a prompt to the one that closes it, the browser only takes text. What the
prompt was opened for is exported when it is closed, and nothing else that the browser does changes
a file other than the log.
-/

set_option autoImplicit false

namespace GuildRoster

/-- A world after something that at most added to the log. -/
structure World.OnlyLogged (before after : World) : Prop where
  entries : ∃ entries, after = before.recordAll entries
  files : ∀ place, before.logFile ≠ some place →
    after.files.get? place = before.files.get? place
  unlogged : before.log = none → after = before

theorem World.onlyLogged_recordAll (world : World) (entries : List LogEntry) :
    world.OnlyLogged (world.recordAll entries) := by
  refine ⟨⟨entries, rfl⟩, fun place notLog => ?_, fun unlogged => ?_⟩
  · exact (Export.wrote_recordAll world entries).elsewhere place (by simp) notLog
  · induction entries with
    | nil => rfl
    | cons entry entries ih =>
      have same : world.record entry = world := by
        unfold record
        rw [unlogged]
      change (world.record entry).recordAll entries = world
      rw [same, ih]

/-! ## Typing -/

/-- The key that asks for an export. -/
def FileKind.key : FileKind → KeyPress
  | png => .character 'i'
  | csv => .character 'c'

namespace ExportPrompt

/-- A text after a key: a character is added at its end, backspace removes the last one. -/
def edited (text : List Char) : KeyPress → List Char
  | .character value => text ++ [value]
  | .backspace => text.dropLast
  | _ => text

/-- The text that a prompt about a roster holds after some keys. -/
def typedText (roster : String) (typing : List KeyPress) : List Char :=
  typing.foldl edited roster.toList

/-- A prompt about a roster after some keys. -/
def afterKeys (kind : FileKind) (roster : String) (typing : List KeyPress) : ExportPrompt :=
  ⟨kind, roster, String.ofList (typedText roster typing)⟩

theorem toList_typed_afterKeys (kind : FileKind) (roster : String) (typing : List KeyPress) :
    (afterKeys kind roster typing).typed.toList = typedText roster typing := String.toList_ofList

/-- Keys other than enter and escape leave a prompt open and at most edit its text. -/
theorem press_eq_inr (prompt : ExportPrompt) {key : KeyPress}
    (typing : key ≠ .enter ∧ key ≠ .escape) :
    prompt.press key =
      .inr { prompt with typed := String.ofList (edited prompt.typed.toList key) } := by
  have retyped : ∀ {text}, text = String.ofList (edited prompt.typed.toList key) →
      (.inr { prompt with typed := text } : Destination ⊕ ExportPrompt) =
        .inr { prompt with typed := String.ofList (edited prompt.typed.toList key) } :=
    fun same => by rw [same]
  cases key with
  | enter => exact absurd rfl typing.1
  | escape => exact absurd rfl typing.2
  | character value =>
    refine @retyped (prompt.typed.push value) ?_
    rw [← String.toList_inj, String.toList_push, String.toList_ofList]
    rfl
  | backspace => rfl
  | _ => exact retyped String.ofList_toList.symm

theorem closes (prompt : ExportPrompt) {key : KeyPress}
    (closing : ¬ (key ≠ .enter ∧ key ≠ .escape)) :
    ∃ destination, prompt.press key = .inl destination := by
  by_cases enter : key = .enter
  · exact ⟨prompt.destination, by rw [enter, press]⟩
  · have escape : key = .escape := Decidable.of_not_not fun different => closing ⟨enter, different⟩
    exact ⟨.fixed none, by rw [escape, press]⟩

theorem press_cancelling {prompt : ExportPrompt} {key : KeyPress}
    (cancels : key = .escape ∨ key = .enter ∧ Text.trim prompt.typed.toList = []) :
    prompt.press key = .inl (.fixed none) := by
  rcases cancels with rfl | ⟨rfl, blank⟩
  · rfl
  · simp only [press, destination, blank]

theorem press_exporting {prompt : ExportPrompt} (text : Text.trim prompt.typed.toList ≠ []) :
    prompt.press .enter = .inl (.fixed (some ⟨Text.trim prompt.typed.toList⟩)) := by
  simp only [press, destination]

end ExportPrompt

/-! ## Cancelled exports -/

namespace Export

theorem exec_asImage_cancelled (source : Source) (config : Config) (key : String)
    (compareKey : Option String) (onlyMembers : Bool) (world : World) :
    ∃ entries, Run.exec (asImage source config (.fixed none) key compareKey onlyMembers) world
      = (.ok .cancelled, world.recordAll entries) := by
  have compared : ∃ roster more, Run.exec (askCompared source compareKey)
      (world.recordAll (source.roster key world.files).2)
        = (.ok roster, (world.recordAll (source.roster key world.files).2).recordAll more) := by
    cases compareKey with
    | none => exact ⟨none, [], rfl⟩
    | some other => exact ⟨_, _, Run.exec_map_ok (source.exec_askRoster other _) some⟩
  obtain ⟨roster, more, done⟩ := compared
  refine ⟨(source.roster key world.files).2 ++ more
    ++ [⟨.debug, imagePart, s!"Image export of '{key}' cancelled"⟩], ?_⟩
  rw [asImage, asImageWith, Run.exec_bind_ok (source.exec_askRoster key world),
    Run.exec_bind_ok done, World.recordAll_append, World.recordAll_append]
  rfl

theorem exec_asCsv_cancelled (source : Source) (key : String) (onlyMembers : Bool)
    (world : World) :
    ∃ entries, Run.exec (asCsv source (.fixed none) key onlyMembers) world
      = (.ok .cancelled, world.recordAll entries) :=
  ⟨[⟨.debug, csvPart, s!"CSV export of '{key}' cancelled"⟩], rfl⟩

/-- An export of one kind or the other. -/
def ofKind (source : Source) (config : Config) (kind : FileKind) (destination : Destination)
    (key : String) (compareKey : Option String) (onlyMembers : Bool) : Run ExportOutcome :=
  match kind with
  | .png => asImage source config destination key compareKey onlyMembers
  | .csv => asCsv source destination key onlyMembers

theorem exec_ofKind_cancelled (source : Source) (config : Config) (kind : FileKind) (key : String)
    (compareKey : Option String) (onlyMembers : Bool) (world : World) :
    ∃ entries, Run.exec (ofKind source config kind (.fixed none) key compareKey onlyMembers) world
      = (.ok .cancelled, world.recordAll entries) := by
  cases kind with
  | png => exact exec_asImage_cancelled source config key compareKey onlyMembers world
  | csv => exact exec_asCsv_cancelled source key onlyMembers world

end Export

namespace Browser

variable {source : Source} {config : Config} {browser : Browser} {world : World} {key : KeyPress}

/-! ## Keys with a prompt -/

theorem press_typing {prompt : ExportPrompt} (opened : browser.prompt = some prompt)
    (typing : key ≠ .enter ∧ key ≠ .escape) :
    press source config browser key = pure ({ browser with
      prompt := some { prompt with
        typed := String.ofList (ExportPrompt.edited prompt.typed.toList key) } }, false) := by
  unfold press
  rw [opened]
  simp only [prompt.press_eq_inr typing]

theorem press_closing {prompt : ExportPrompt} (source : Source) (config : Config)
    (opened : browser.prompt = some prompt) {destination : Destination}
    (closing : prompt.press key = .inl destination) :
    press source config browser key =
      (fun outcome : ExportOutcome =>
        ({ browser with prompt := none, status := some outcome.summary }, false)) <$>
      Export.ofKind source config prompt.kind destination prompt.roster browser.compared
        browser.onlyMembers := by
  unfold press
  rw [opened]
  simp only [closing, finishExport]
  cases prompt.kind with
  | png => simp [Export.ofKind]
  | csv => simp [Export.ofKind]

theorem exec_press_cancelling {prompt : ExportPrompt} (source : Source) (config : Config)
    (opened : browser.prompt = some prompt) (closing : prompt.press key = .inl (.fixed none))
    (world : World) :
    ∃ entries, Run.exec (press source config browser key) world =
      (.ok ({ browser with prompt := none, status := some "Export cancelled" }, false),
        world.recordAll entries) := by
  obtain ⟨entries, cancelled⟩ := Export.exec_ofKind_cancelled source config prompt.kind
    prompt.roster browser.compared browser.onlyMembers world
  rw [press_closing source config opened closing, Run.exec_map_ok cancelled]
  exact ⟨entries, rfl⟩

/-! ## Keys without a prompt -/

theorem press_quit (closed : browser.prompt = none) :
    press source config browser (.character 'q') = pure (browser, true) := by
  unfold press
  rw [closed]
  rfl

theorem press_free (closed : browser.prompt = none) (stays : key ≠ .character 'q') :
    press source config browser key = (·, false) <$> pressFree source config browser key := by
  unfold press
  rw [closed]
  simp only [if_neg stays]
  simp

theorem press_export (closed : browser.prompt = none) (kind : FileKind) :
    press source config browser kind.key = pure (browser.startExport kind, false) := by
  cases kind with
  | png =>
    rw [FileKind.key, press_free closed (by decide)]
    rfl
  | csv =>
    rw [FileKind.key, press_free closed (by decide)]
    rfl

theorem browse_quiet (source : Source) (config : Config) (roster : String) :
    Run.Quiet (Details.browse source config roster) fun _ => True := by
  unfold Details.browse
  refine (Run.Quiet.askRoster source roster).bind fun players _ => ?_
  exact (Run.Quiet.record _).bind fun _ _ => .ofExcept fun _ _ => trivial

theorem pressOnRosters_quiet (closed : browser.prompt = none) :
    Run.Quiet (pressOnRosters source config browser key) (·.prompt = none) := by
  unfold pressOnRosters
  split
  case h_1 => exact .pure closed
  case h_2 => exact .pure closed
  case h_3 =>
    split
    next => exact .pure closed
    next roster _ => exact (browse_quiet source config roster).bind fun _ _ => .pure closed
  case h_4 =>
    refine .pure ?_
    unfold toggleCompared
    split
    next => exact closed
    next =>
      split
      next => exact closed
      next => exact closed
  case h_5 => exact .pure closed

theorem pressOnPlayers_quiet (closed : browser.prompt = none) :
    Run.Quiet (pressOnPlayers config browser key) (·.prompt = none) := by
  have selected : ∀ computation : Except Fault Details,
      Run.Quiet (Run.ofExcept computation) fun _ => True := fun _ => .ofExcept fun _ _ => trivial
  unfold pressOnPlayers
  split
  case h_1 => exact (selected _).bind fun _ _ => .pure closed
  case h_2 => exact (selected _).bind fun _ _ => .pure closed
  case h_3 => exact .pure closed

/-- Without a prompt, a key that asks for no export opens none and at most logs. -/
theorem pressFree_quiet (closed : browser.prompt = none)
    (other : ∀ kind : FileKind, key ≠ kind.key) :
    Run.Quiet (pressFree source config browser key) (·.prompt = none) := by
  unfold pressFree
  split
  case h_1 => exact .pure closed
  case h_2 => exact .pure closed
  case h_3 => exact .pure closed
  case h_4 => exact .pure closed
  case h_5 => exact absurd rfl (other .png)
  case h_6 => exact absurd rfl (other .csv)
  case h_7 => exact .pure closed
  case h_8 => exact .pure closed
  case h_9 =>
    split
    next => exact pressOnRosters_quiet closed
    next => exact pressOnPlayers_quiet closed

/-! ## Open prompts -/

/-- A browser after the key of an export opened a prompt and some text was typed. `before` is the
browser right before that key. -/
structure Prompting (before : Browser) (kind : FileKind) (roster : String)
    (typing : List KeyPress) (browser : Browser) : Prop where
  closed : before.prompt = none
  current : before.currentRoster? = some roster
  openKeys : ∀ key ∈ typing, key ≠ .enter ∧ key ≠ .escape
  opened : browser = { before with prompt := some (.afterKeys kind roster typing) }

namespace Prompting

variable {before : Browser} {kind : FileKind} {roster : String} {typing : List KeyPress}

theorem start (kind : FileKind) (closed : browser.prompt = none)
    (current : browser.currentRoster? = some roster) :
    Prompting browser kind roster [] (browser.startExport kind) := by
  refine ⟨closed, current, by simp, ?_⟩
  simp [startExport, current, ExportPrompt.start, ExportPrompt.afterKeys, ExportPrompt.typedText]

theorem prompt (prompting : Prompting before kind roster typing browser) :
    browser.prompt = some (.afterKeys kind roster typing) := by
  rw [prompting.opened]

/-- What a browser is after its prompt is closed. -/
theorem close (prompting : Prompting before kind roster typing browser) (status : String) :
    { browser with prompt := none, status := some status } =
      { before with status := some status } := by
  rw [prompting.opened, ← prompting.closed]

/-- A key that does not close the prompt changes only what was typed. -/
theorem press_eq (source : Source) (config : Config)
    (prompting : Prompting before kind roster typing browser)
    (more : key ≠ .enter ∧ key ≠ .escape) :
    ∃ next, press source config browser key = pure (next, false) ∧
      Prompting before kind roster (typing ++ [key]) next := by
  refine ⟨_, press_typing prompting.prompt more, prompting.closed, prompting.current, ?_, ?_⟩
  · intro pressed member
    rcases List.mem_append.1 member with typed | last
    · exact prompting.openKeys pressed typed
    · obtain rfl := List.mem_singleton.1 last
      exact more
  · rw [prompting.opened]
    simp [ExportPrompt.afterKeys, ExportPrompt.typedText]

/-- Opening a prompt and typing into it changes nothing but the prompt. -/
theorem presses (source : Source) (config : Config)
    (prompting : Prompting before kind roster typing browser) (world : World) :
    Presses source config before world (kind.key :: typing)
      (List.replicate (typing.length + 1) false) browser world := by
  induction typing using List.reverseRecOn generalizing browser with
  | nil =>
    have opening : Run.exec (press source config before kind.key) world
        = (.ok (before.startExport kind, false), world) := by
      rw [press_export prompting.closed kind]
      rfl
    have start := Prompting.start kind prompting.closed prompting.current
    rw [prompting.opened, ← start.opened]
    exact Presses.nil.snoc opening
  | append_singleton typing key ih =>
    have earlier : Prompting before kind roster typing
        { before with prompt := some (.afterKeys kind roster typing) } :=
      ⟨prompting.closed, prompting.current,
        fun pressed typed => prompting.openKeys pressed (List.mem_append_left _ typed), rfl⟩
    obtain ⟨next, pressed, after⟩ := earlier.press_eq source config
      (prompting.openKeys key (List.mem_append_right _ List.mem_cons_self))
    rw [prompting.opened, ← after.opened, List.length_append, List.length_singleton,
      List.replicate_succ']
    refine (ih earlier).snoc ?_
    rw [pressed]
    rfl

end Prompting

/-- What a browser does while a prompt is open, and when the prompt is closed, from a world on: the
keys up to here have changed nothing but the text of the prompt; escape cancels, and so does enter
after blank text; enter after any other text exports what the prompt was opened for. -/
structure TakesText (source : Source) (config : Config) (before : Browser) (kind : FileKind)
    (roster : String) (typing : List KeyPress) (browser : Browser) (world : World) : Prop where
  untouched : Presses source config before world (kind.key :: typing)
    (List.replicate (typing.length + 1) false) browser world
  cancelled : ∀ key, key = .escape ∨
      key = .enter ∧ Text.trim (ExportPrompt.typedText roster typing) = [] →
    ∃ after, Run.exec (press source config browser key) world =
        (.ok ({ before with status := some "Export cancelled" }, false), after) ∧
      world.OnlyLogged after
  exported : Text.trim (ExportPrompt.typedText roster typing) ≠ [] →
    press source config browser .enter =
      (fun outcome : ExportOutcome => ({ before with status := some outcome.summary }, false)) <$>
      Export.ofKind source config kind
        (.fixed (some ⟨Text.trim (ExportPrompt.typedText roster typing)⟩)) roster before.compared
        before.onlyMembers

theorem Prompting.takesText (source : Source) (config : Config) {before : Browser}
    {kind : FileKind} {roster : String} {typing : List KeyPress}
    (prompting : Prompting before kind roster typing browser) (world : World) :
    TakesText source config before kind roster typing browser world := by
  constructor
  case untouched => exact prompting.presses source config world
  case cancelled =>
    intro key cancels
    rw [← ExportPrompt.toList_typed_afterKeys kind] at cancels
    obtain ⟨entries, done⟩ := exec_press_cancelling source config prompting.prompt
      (ExportPrompt.press_cancelling cancels) world
    refine ⟨_, ?_, world.onlyLogged_recordAll entries⟩
    rw [done, prompting.close]
  case exported =>
    intro text
    rw [← ExportPrompt.toList_typed_afterKeys kind] at text ⊢
    have exporting := press_closing source config prompting.prompt
      (ExportPrompt.press_exporting text)
    simp only [prompting.close] at exporting
    rw [exporting, prompting.opened]
    rfl

/-! ## Whole runs -/

/-- Without a prompt, a key that asks for no export opens none, at most logs, and leaves the browser
just if it is the one for that. -/
theorem press_quiet (source : Source) (config : Config) (closed : browser.prompt = none)
    (other : ∀ kind : FileKind, key ≠ kind.key) :
    Run.Quiet (press source config browser key)
      fun result => result.1.prompt = none ∧ (result.2 = true ↔ key = .character 'q') := by
  by_cases quit : key = .character 'q'
  · subst quit
    rw [press_quit closed]
    exact .pure ⟨closed, by simp⟩
  · rw [press_free closed quit, map_eq_pure_bind]
    exact (pressFree_quiet closed other).bind fun next still => .pure ⟨still, by simp [quit]⟩

/-- A key that closes a prompt leaves the browser open. -/
theorem closing_ends {prompt : ExportPrompt} (opened : browser.prompt = some prompt)
    {destination : Destination} (closing : prompt.press key = .inl destination) :
    Run.Ends (press source config browser key) world
      (fun result => result.1.prompt = none ∧ result.2 = false) fun _ => True := by
  rw [press_closing source config opened closing, map_eq_pure_bind]
  have exported : Run.Ends (Export.ofKind source config prompt.kind destination prompt.roster
      browser.compared browser.onlyMembers) world (fun _ => True) fun _ => True :=
    .of_forall (fun _ => trivial) fun _ => trivial
  exact exported.bind fun _ _ _ _ => .pure ⟨rfl, rfl⟩

theorem leaves_iff {next : Browser} {answer : Bool} {after : World}
    (pressed : Run.exec (press source config browser key) world = (.ok (next, answer), after)) :
    answer = true ↔ browser.prompt = none ∧ key = .character 'q' := by
  cases opened : browser.prompt with
  | some prompt =>
    have stays : answer = false := by
      by_cases typing : key ≠ .enter ∧ key ≠ .escape
      · rw [press_typing opened typing] at pressed
        cases pressed
        rfl
      · obtain ⟨destination, closing⟩ := prompt.closes typing
        exact ((closing_ends opened closing).returned pressed).2
    simp [stays]
  | none =>
    by_cases opening : ∃ kind : FileKind, key = kind.key
    · obtain ⟨kind, rfl⟩ := opening
      rw [press_export opened kind] at pressed
      cases pressed
      cases kind with
      | png => decide
      | csv => decide
    · have quiet := press_quiet source config opened fun kind same => opening ⟨kind, same⟩
      simpa using ((quiet world).2.returned pressed).2

/-- Files other than the log change only when enter closes a prompt with a text that is not
blank. -/
theorem onlyLogged_press (source : Source) (config : Config) (browser : Browser) (key : KeyPress)
    (world : World) :
    world.OnlyLogged (Run.exec (press source config browser key) world).2 ∨
      key = .enter ∧ ∃ prompt, browser.prompt = some prompt ∧
        Text.trim prompt.typed.toList ≠ [] := by
  have still := world.onlyLogged_recordAll []
  cases opened : browser.prompt with
  | some prompt =>
    have cancelled : key = .escape ∨ key = .enter ∧ Text.trim prompt.typed.toList = [] →
        world.OnlyLogged (Run.exec (press source config browser key) world).2 := by
      intro cancels
      obtain ⟨entries, done⟩ := exec_press_cancelling source config opened
        (ExportPrompt.press_cancelling cancels) world
      rw [done]
      exact world.onlyLogged_recordAll entries
    by_cases enter : key = .enter
    · by_cases blank : Text.trim prompt.typed.toList = []
      · exact .inl (cancelled (.inr ⟨enter, blank⟩))
      · exact .inr ⟨enter, prompt, rfl, blank⟩
    · by_cases escape : key = .escape
      · exact .inl (cancelled (.inl escape))
      · rw [press_typing opened ⟨enter, escape⟩]
        exact .inl still
  | none =>
    left
    by_cases opening : ∃ kind : FileKind, key = kind.key
    · obtain ⟨kind, rfl⟩ := opening
      rw [press_export opened kind]
      exact still
    · have quiet := press_quiet source config opened fun kind same => opening ⟨kind, same⟩
      obtain ⟨entries, logged⟩ := (quiet world).1
      rw [logged]
      exact world.onlyLogged_recordAll entries

/-- An open prompt was opened by the key of an export, and only text was typed since. -/
theorem Presses.prompting {first : Browser} {keys : List KeyPress} {answers : List Bool}
    {now : World} {prompt : ExportPrompt} (closed : first.prompt = none)
    (presses : Presses source config first world keys answers browser now)
    (opened : browser.prompt = some prompt) :
    ∃ earlier typing earlierAnswers before kind roster, keys = earlier ++ kind.key :: typing ∧
      Presses source config first world earlier earlierAnswers before now ∧
      Prompting before kind roster typing browser := by
  -- The last key was typed into a prompt that was open already, or it opened this one: nothing else
  -- leaves a prompt open.
  induction presses generalizing prompt with
  | nil =>
    rw [closed] at opened
    cases opened
  | @snoc keys answers last next now after key answer before pressed ih =>
    cases openBefore : last.prompt with
    | some shown =>
      obtain ⟨earlier, typing, earlierAnswers, start, kind, roster, rfl, run, prompting⟩ :=
        ih openBefore
      by_cases more : key ≠ .enter ∧ key ≠ .escape
      · obtain ⟨same, pressing, still⟩ := prompting.press_eq source config more
        rw [pressing] at pressed
        cases pressed
        exact ⟨earlier, typing ++ [key], earlierAnswers, start, kind, roster, by simp, run, still⟩
      · obtain ⟨destination, closing⟩ := shown.closes more
        have shut := ((closing_ends openBefore closing).returned pressed).1
        rw [shut] at opened
        cases opened
    | none =>
      by_cases opening : ∃ kind : FileKind, key = kind.key
      · obtain ⟨kind, rfl⟩ := opening
        rw [press_export openBefore kind] at pressed
        cases pressed
        cases current : last.currentRoster? with
        | none => simp [startExport, current, openBefore] at opened
        | some roster =>
          exact ⟨keys, [], answers, last, kind, roster, rfl, before,
            .start kind openBefore current⟩
      · have quiet := press_quiet source config openBefore fun kind same => opening ⟨kind, same⟩
        have shut := ((quiet now).2.returned pressed).1
        rw [shut] at opened
        cases opened

/-- What the browser does at any moment of a run: a prompt that is open was opened by the key of an
export and takes text since; the browser is left just by its key for that, without a prompt; and
files other than the log change only by an export, when enter closes a prompt. -/
structure Guarded (source : Source) (config : Config) (first : Browser) (world : World)
    (keys : List KeyPress) (browser : Browser) (now : World) : Prop where
  prompting : ∀ prompt, browser.prompt = some prompt →
    ∃ earlier typing answers before kind roster, keys = earlier ++ kind.key :: typing ∧
      Presses source config first world earlier answers before now ∧
      Prompting before kind roster typing browser
  leaves : ∀ key next answer after,
    Run.exec (press source config browser key) now = (.ok (next, answer), after) →
    (answer = true ↔ browser.prompt = none ∧ key = .character 'q')
  files : ∀ key, now.OnlyLogged (Run.exec (press source config browser key) now).2 ∨
    key = .enter ∧ ∃ before kind roster typing, Prompting before kind roster typing browser ∧
      Text.trim (ExportPrompt.typedText roster typing) ≠ []

theorem Presses.guarded {first : Browser} {keys : List KeyPress} {answers : List Bool}
    {now : World} (closed : first.prompt = none)
    (presses : Presses source config first world keys answers browser now) :
    Guarded source config first world keys browser now := by
  constructor
  case prompting => exact fun prompt opened => presses.prompting closed opened
  case leaves => exact fun key next answer after pressed => leaves_iff pressed
  case files =>
    intro key
    obtain logged | ⟨rfl, prompt, opened, text⟩ := onlyLogged_press source config browser key now
    · exact .inl logged
    · obtain ⟨earlier, typing, _, before, kind, roster, _, _, prompting⟩ :=
        presses.prompting closed opened
      refine .inr ⟨rfl, before, kind, roster, typing, prompting, ?_⟩
      obtain rfl := Option.some.inj (opened.symm.trans prompting.prompt)
      rwa [ExportPrompt.toList_typed_afterKeys] at text

/-- A prompt that was opened only takes text, and exports what it was opened for when it is closed,
if at all. In all runs of the browser nothing else changes files, and a prompt keeps the browser
from being left. -/
theorem prompts_are_modal (source : Source) (config : Config) :
    (∀ before kind roster typing browser world, Prompting before kind roster typing browser →
      TakesText source config before kind roster typing browser world) ∧
    ∀ first world keys answers browser now, first.prompt = none →
      Presses source config first world keys answers browser now →
      Guarded source config first world keys browser now := by
  constructor
  · intro before kind roster typing browser world prompting
    exact prompting.takesText source config world
  · intro first world keys answers browser now closed presses
    exact presses.guarded closed

theorem smallRosters_prompts_are_modal :
    TakesText smallRosters {} smallStart .csv "full" [.character 'q', .backspace, .character 'x']
      { smallStart with prompt := some ⟨.csv, "full", "fullx"⟩ } {} ∧
    Guarded smallRosters {} smallStart {}
      [.character 'c', .character 'q', .backspace, .character 'x']
      { smallStart with prompt := some ⟨.csv, "full", "fullx"⟩ } {} := by
  have prompting : Prompting smallStart .csv "full" [.character 'q', .backspace, .character 'x']
      { smallStart with prompt := some ⟨.csv, "full", "fullx"⟩ } :=
    ⟨rfl, rfl, by decide, rfl⟩
  exact ⟨(prompts_are_modal smallRosters {}).1 _ _ _ _ _ {} prompting,
    (prompts_are_modal smallRosters {}).2 _ {} _ _ _ _ rfl
      (prompting.presses smallRosters {} {})⟩

end Browser

end GuildRoster
