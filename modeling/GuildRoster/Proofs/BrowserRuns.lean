import GuildRoster.Browser
import GuildRoster.Proofs.TableExport

/-!
# Runs of the browser

What the browser looks like after any sequence of keys. The list of rosters, the browsed roster, the
selected player and the stat sheet belong together in every state, as long as the source keeps to
its answers. A run only stops where a stat sheet or a picture has a fault.
-/

set_option autoImplicit false

namespace GuildRoster

/-- The keys and rosters that a source answers with when there are some files. -/
structure Source.Answers (source : Source) (known : List String) (rosters : String → Roster)
    (files : FileTree) : Prop where
  keys : (source.keys files).1 = known
  roster : ∀ key, (source.roster key files).1 = rosters key

/-! ## The list of rosters -/

namespace RosterList

/-- The selected position is one of the keys, or the first one when there are none. -/
def Valid (list : RosterList) : Prop :=
  list.position < list.keys.length ∨ list.keys = [] ∧ list.position = 0

variable {list : RosterList}

theorem valid_start (keys : List String) : Valid { keys } := by
  cases keys with
  | nil => exact .inr ⟨rfl, rfl⟩
  | cons key keys => exact .inl (Nat.succ_pos _)

theorem Valid.up (valid : list.Valid) : list.up.Valid := by
  rcases valid with inside | ⟨none, first⟩
  · exact .inl (Nat.lt_of_le_of_lt (Nat.sub_le _ _) inside)
  · exact .inr ⟨none, by rw [RosterList.up, first]⟩

theorem keys_down (list : RosterList) : list.down.keys = list.keys := by
  unfold down
  split
  · rfl
  · rfl

theorem Valid.down (valid : list.Valid) : list.down.Valid := by
  unfold RosterList.down
  split
  next inside => exact .inl inside
  next => exact valid

theorem mem_of_selected? {key : String} (selected : list.selected? = some key) :
    key ∈ list.keys :=
  List.mem_of_getElem? selected

end RosterList

/-! ## The browsed roster -/

namespace Details

/-- The details of a browser that show what they should: nothing, an empty roster, or a roster, one
of its players and the stat sheet of that player. -/
inductive Coherent (config : Config) (known : List String) (rosters : String → Roster) :
    Details → Prop where
  | closed : Coherent config known rosters {}
  | empty {key : String} (listed : key ∈ known) (nobody : rosters key = []) :
      Coherent config known rosters { key := some key, players := rosters key }
  | shown {key : String} {position : Nat} {player : Player} {sheet : Sheet} (listed : key ∈ known)
      (found : (rosters key)[position]? = some player)
      (built : Sheet.build config player = .ok sheet) :
      Coherent config known rosters
        { key := some key, players := rosters key, position := some position
          sheet := some sheet }

variable {config : Config} {known : List String} {rosters : String → Roster}
  {details next : Details} {position : Nat} {fault : Fault}

/-- Selecting a player changes nothing where there is none, and shows the stat sheet of the player
otherwise. -/
theorem select_eq_ok_iff : select config position details = .ok next ↔
    (details.players[position]? = none ∧ next = details) ∨
      ∃ player sheet, details.players[position]? = some player ∧
        Sheet.build config player = .ok sheet ∧
        next = { details with position := some position, sheet := some sheet } := by
  unfold select
  cases found : details.players[position]? with
  | none => simp [eq_comm]
  | some player =>
    dsimp only
    rw [except_bind_eq_ok_iff]
    simp [pure, Except.pure, eq_comm]

theorem select_eq_error (failed : select config position details = .error fault) :
    ∃ player ∈ details.players, Sheet.build config player = .error fault := by
  unfold select at failed
  split at failed
  next => cases failed
  next player found =>
    cases built : Sheet.build config player with
    | ok sheet =>
      rw [built] at failed
      cases failed
    | error cause =>
      rw [built] at failed
      cases failed
      exact ⟨player, List.mem_of_getElem? found, built⟩

theorem Coherent.select (coherent : Coherent config known rosters details)
    (selected : details.select config position = .ok next) :
    Coherent config known rosters next := by
  obtain ⟨_, rfl⟩ | ⟨player, sheet, found, built, rfl⟩ := select_eq_ok_iff.1 selected
  · exact coherent
  · cases coherent with
    | closed => cases found
    | empty listed nobody =>
      rw [nobody] at found
      cases found
    | shown listed _ _ => exact .shown listed found built

/-- Browsing a roster starts with its first player. -/
theorem coherent_of_select {key : String} (listed : key ∈ known)
    (selected : select config 0 { key := some key, players := rosters key } = .ok next) :
    Coherent config known rosters next := by
  obtain ⟨missing, rfl⟩ | ⟨player, sheet, found, built, rfl⟩ := select_eq_ok_iff.1 selected
  · exact .empty listed (List.eq_nil_of_length_eq_zero (Nat.eq_zero_of_le_zero
      (List.getElem?_eq_none_iff.1 missing)))
  · exact .shown listed found built

/-- All players of coherent details are players of one listed roster. -/
theorem Coherent.player_listed (coherent : Coherent config known rosters details) {player : Player}
    (member : player ∈ details.players) : ∃ key ∈ known, player ∈ rosters key := by
  cases coherent with
  | closed => cases member
  | empty listed _ => exact ⟨_, listed, member⟩
  | shown listed _ _ => exact ⟨_, listed, member⟩

end Details

/-! ## The prompt -/

namespace ExportPrompt

variable {prompt next : ExportPrompt} {key : KeyPress} {destination : Destination}

/-- A prompt is closed by the enter and the escape key alone, and escape cancels. -/
theorem press_eq_inl (closing : prompt.press key = .inl destination) :
    key = .enter ∨ key = .escape ∧ destination = .fixed none := by
  cases key with
  | enter => exact .inl rfl
  | escape =>
    cases closing
    exact .inr ⟨rfl, rfl⟩
  | _ => cases closing

/-- A prompt that stays open is still about the same roster. -/
theorem roster_of_press (typing : prompt.press key = .inr next) : next.roster = prompt.roster := by
  cases key with
  | enter => cases typing
  | escape => cases typing
  | _ =>
    cases typing
    rfl

end ExportPrompt

namespace Browser

/-! ## Coherent states -/

/-- The parts of the browser that do not depend on an open prompt show what they should. -/
structure Steady (config : Config) (known : List String) (rosters : String → Roster)
    (browser : Browser) : Prop where
  keys : browser.rosters.keys = known
  position : browser.rosters.Valid
  details : browser.details.Coherent config known rosters
  compared : ∀ key, browser.compared = some key → key ∈ known

/-- A state of the browser that shows what it should, for the keys and rosters of its source. An
open prompt is about the roster that exports are about. -/
structure Coherent (config : Config) (known : List String) (rosters : String → Roster)
    (browser : Browser) : Prop extends Steady config known rosters browser where
  prompt : ∀ prompt, browser.prompt = some prompt → browser.currentRoster? = some prompt.roster

/-- Why a key stops the browser: the stat sheet of a player cannot be built, or a picture cannot be
drawn. -/
inductive Stops (config : Config) (known : List String) (rosters : String → Roster)
    (browser : Browser) : KeyPress → Fault → Prop where
  | sheet {press : KeyPress} {fault : Fault} {key : String} {player : Player} (listed : key ∈ known)
      (member : player ∈ rosters key) (failed : Sheet.build config player = .error fault) :
      Stops config known rosters browser press fault
  | picture {fault : Fault} {prompt : ExportPrompt} (opened : browser.prompt = some prompt)
      (kind : prompt.kind = .png) : Stops config known rosters browser .enter fault

variable {source : Source} {config : Config} {known : List String} {rosters : String → Roster}
  {browser : Browser} {world : World}

theorem Steady.coherent (steady : browser.Steady config known rosters)
    (closed : browser.prompt = none) : browser.Coherent config known rosters := by
  refine ⟨steady, fun prompt opened => ?_⟩
  rw [closed] at opened
  cases opened

/-- Neither the tab nor the options, the status or a prompt have a part in it. -/
theorem Steady.update (steady : browser.Steady config known rosters) (tab : Tab)
    (onlyMembers : Bool) (status : Option String) (prompt : Option ExportPrompt) :
    Steady config known rosters { browser with tab, onlyMembers, status, prompt } :=
  ⟨steady.keys, steady.position, steady.details, steady.compared⟩

theorem steady_start (config : Config) (known : List String) (rosters : String → Roster) :
    Steady config known rosters { rosters := { keys := known } } :=
  ⟨rfl, RosterList.valid_start known, .closed, by simp⟩

/-! ## One key -/

theorem startExport_coherent (steady : browser.Steady config known rosters)
    (closed : browser.prompt = none) (kind : FileKind) :
    (browser.startExport kind).Coherent config known rosters := by
  unfold startExport
  cases current : browser.currentRoster? with
  | none => exact (steady.update _ _ _ _).coherent closed
  | some roster =>
    refine ⟨steady.update _ _ _ _, fun prompt opened => ?_⟩
    cases opened
    exact current

theorem toggleCompared_coherent (steady : browser.Steady config known rosters)
    (closed : browser.prompt = none) :
    browser.toggleCompared.Coherent config known rosters := by
  unfold toggleCompared
  split
  next => exact steady.coherent closed
  next roster selected =>
    split
    next => exact Steady.coherent ⟨steady.keys, steady.position, steady.details, by simp⟩ closed
    next =>
      refine Steady.coherent ⟨steady.keys, steady.position, steady.details, ?_⟩ closed
      intro key compared
      cases compared
      exact steady.keys ▸ RosterList.mem_of_selected? selected

theorem browse_ends (steady : browser.Steady config known rosters)
    (answers : source.Answers known rosters world.files) {roster : String}
    (selected : browser.rosters.selected? = some roster) (press : KeyPress) :
    Run.Ends (Details.browse source config roster) world (·.Coherent config known rosters)
      (Stops config known rosters browser press) := by
  have listed : roster ∈ known := steady.keys ▸ RosterList.mem_of_selected? selected
  unfold Details.browse Run.Ends
  rw [Run.exec_bind_ok (source.exec_askRoster roster world), answers.roster,
    Run.exec_bind_ok (Run.exec_record _ _)]
  refine Run.Ends.ofExcept (fun details browsed => Details.coherent_of_select listed browsed) ?_
  intro fault failed
  obtain ⟨player, member, unbuilt⟩ := Details.select_eq_error failed
  exact .sheet listed member unbuilt

theorem pressOnRosters_ends (steady : browser.Steady config known rosters)
    (closed : browser.prompt = none) (answers : source.Answers known rosters world.files)
    (key : KeyPress) :
    Run.Ends (pressOnRosters source config browser key) world (·.Coherent config known rosters)
      (Stops config known rosters browser key) := by
  unfold pressOnRosters
  split
  case h_1 =>
    exact .pure (Steady.coherent
      ⟨steady.keys, steady.position.up, steady.details, steady.compared⟩ closed)
  case h_2 =>
    have keys := browser.rosters.keys_down.trans steady.keys
    exact .pure (Steady.coherent
      ⟨keys, steady.position.down, steady.details, steady.compared⟩ closed)
  case h_3 =>
    split
    next => exact .pure (steady.coherent closed)
    next roster selected =>
      refine (browse_ends steady answers selected _).bind fun details _ coherent _ => .pure ?_
      exact Steady.coherent ⟨steady.keys, steady.position, coherent, steady.compared⟩ closed
  case h_4 => exact .pure (toggleCompared_coherent steady closed)
  case h_5 => exact .pure (steady.coherent closed)

/-- Selecting another player of the browsed roster. -/
theorem reselect_ends (steady : browser.Steady config known rosters)
    (closed : browser.prompt = none) (position : Nat) (press : KeyPress) :
    Run.Ends (do return { browser with
        details := ← Run.ofExcept (browser.details.select config position) }) world
      (·.Coherent config known rosters) (Stops config known rosters browser press) := by
  have selected : Run.Ends (Run.ofExcept (browser.details.select config position)) world
      (·.Coherent config known rosters) (Stops config known rosters browser press) := by
    refine .ofExcept (fun details selected => steady.details.select selected) ?_
    intro fault failed
    obtain ⟨player, member, unbuilt⟩ := Details.select_eq_error failed
    obtain ⟨roster, listed, inRoster⟩ := steady.details.player_listed member
    exact .sheet listed inRoster unbuilt
  refine selected.bind fun details _ coherent _ => .pure ?_
  exact Steady.coherent ⟨steady.keys, steady.position, coherent, steady.compared⟩ closed

theorem pressOnPlayers_ends (steady : browser.Steady config known rosters)
    (closed : browser.prompt = none) (key : KeyPress) :
    Run.Ends (pressOnPlayers config browser key) world (·.Coherent config known rosters)
      (Stops config known rosters browser key) := by
  have still : browser.Coherent config known rosters := steady.coherent closed
  unfold pressOnPlayers
  split
  case h_1 =>
    unfold Details.up
    split
    next => exact .pure still
    next position _ => exact reselect_ends steady closed (position - 1) _
  case h_2 =>
    unfold Details.down
    split
    next => exact .pure still
    next position _ => exact reselect_ends steady closed (position + 1) _
  case h_3 => exact .pure still

theorem pressFree_ends (steady : browser.Steady config known rosters)
    (closed : browser.prompt = none) (answers : source.Answers known rosters world.files)
    (key : KeyPress) :
    Run.Ends (pressFree source config browser key) world (·.Coherent config known rosters)
      (Stops config known rosters browser key) := by
  have onTab : ∀ tab, Coherent config known rosters { browser with tab } :=
    fun tab => (steady.update tab _ _ _).coherent closed
  unfold pressFree
  split
  case h_1 => exact .pure (onTab _)
  case h_2 => exact .pure (onTab _)
  case h_3 => exact .pure (onTab _)
  case h_4 => exact .pure (onTab _)
  case h_5 => exact .pure (startExport_coherent steady closed .png)
  case h_6 => exact .pure (startExport_coherent steady closed .csv)
  case h_7 => exact .pure ((steady.update _ _ _ _).coherent closed)
  case h_8 =>
    exact .pure (Steady.coherent ⟨steady.keys, steady.position, .closed, steady.compared⟩ closed)
  case h_9 =>
    split
    next => exact pressOnRosters_ends steady closed answers key
    next => exact pressOnPlayers_ends steady closed key

theorem finishExport_ends (steady : browser.Steady config known rosters) {prompt : ExportPrompt}
    (opened : browser.prompt = some prompt) {key : KeyPress} {destination : Destination}
    (closing : prompt.press key = .inl destination) :
    Run.Ends (finishExport source config browser prompt destination) world
      (·.Coherent config known rosters) (Stops config known rosters browser key) := by
  have closed : ∀ status, Coherent config known rosters
      { browser with prompt := none, status := some status } :=
    fun status => (steady.update _ _ (some status) none).coherent rfl
  unfold finishExport
  cases kind : prompt.kind with
  | png =>
    have pictures : Run.Ends (Export.asImage source config destination prompt.roster
        browser.compared browser.onlyMembers) world (fun _ => True)
        (Stops config known rosters browser key) := by
      have just := Export.asImageWith_failsJust Export.savePicture source config destination
        prompt.roster browser.compared browser.onlyMembers world
      rcases ExportPrompt.press_eq_inl closing with rfl | ⟨rfl, rfl⟩
      · exact .of_forall (fun _ => trivial) fun _ => .picture opened kind
      · obtain ⟨outcome, done⟩ := just.succeeds (by simp [Destination.choice])
        exact .of_eq_ok done trivial
    exact pictures.bind fun outcome _ _ _ => .pure (closed _)
  | csv =>
    obtain ⟨outcome, after, done, _⟩ := Export.exec_asCsvWith Export.savesTables_saveTable source
      destination prompt.roster browser.onlyMembers world
    have table : Run.Ends (Export.asCsv source destination prompt.roster browser.onlyMembers) world
        (fun _ => True) (Stops config known rosters browser key) :=
      .of_eq_ok (congrArg Prod.fst done) trivial
    exact table.bind fun outcome _ _ _ => .pure (closed _)

theorem press_ends (coherent : browser.Coherent config known rosters)
    (answers : source.Answers known rosters world.files) (key : KeyPress) :
    Run.Ends (press source config browser key) world (·.1.Coherent config known rosters)
      (Stops config known rosters browser key) := by
  have steady := coherent.toSteady
  unfold press
  cases opened : browser.prompt with
  | some prompt =>
    dsimp only
    cases pressed : prompt.press key with
    | inl destination =>
      exact (finishExport_ends steady opened pressed).bind fun next _ after _ => .pure after
    | inr next =>
      refine .pure ⟨steady.update _ _ _ _, fun last same => ?_⟩
      cases same
      rw [ExportPrompt.roster_of_press pressed]
      exact coherent.prompt prompt opened
  | none =>
    dsimp only
    split
    next => exact .pure coherent
    next =>
      exact (pressFree_ends steady opened answers key).bind fun next _ after _ => .pure after

/-! ## Many keys -/

/-- Keys pressed one after the other, without a fault: the answers whether the browser is left, and
the state and the world at the end. -/
inductive Presses (source : Source) (config : Config) (browser : Browser) (world : World) :
    List KeyPress → List Bool → Browser → World → Prop where
  | nil : Presses source config browser world [] [] browser world
  | snoc {keys : List KeyPress} {answers : List Bool} {last next : Browser} {now after : World}
      {key : KeyPress} {answer : Bool}
      (before : Presses source config browser world keys answers last now)
      (pressed : Run.exec (press source config last key) now = (.ok (next, answer), after)) :
      Presses source config browser world (keys ++ [key]) (answers ++ [answer]) next after

theorem Presses.coherent {keys : List KeyPress} {answers : List Bool} {last : Browser}
    {now : World} (coherent : browser.Coherent config known rosters)
    (stable : ∀ front answers between now, front <+: keys →
      Presses source config browser world front answers between now →
      source.Answers known rosters now.files)
    (presses : Presses source config browser world keys answers last now) :
    last.Coherent config known rosters := by
  induction presses with
  | nil => exact coherent
  | snoc before pressed ih =>
    have earlier := ih fun front answers between now start =>
      stable front answers between now (start.trans (List.prefix_append _ _))
    have current := stable _ _ _ _ (List.prefix_append _ _) before
    exact (press_ends earlier current _).returned pressed

/-- Keys are pressed up to the last one, or up to one at which the browser stops. -/
theorem presses_or_stops (coherent : browser.Coherent config known rosters)
    {keys : List KeyPress}
    (stable : ∀ front answers between now, front <+: keys →
      Presses source config browser world front answers between now →
      source.Answers known rosters now.files) :
    (∃ answers last now, Presses source config browser world keys answers last now) ∨
      ∃ front key back answers last now fault after, keys = front ++ key :: back ∧
        Presses source config browser world front answers last now ∧
        Run.exec (press source config last key) now = (.error fault, after) ∧
        Stops config known rosters last key fault := by
  induction keys using List.reverseRecOn with
  | nil => exact .inl ⟨_, _, _, .nil⟩
  | append_singleton keys key ih =>
    have start : ∀ {front}, front <+: keys → front <+: keys ++ [key] :=
      fun inside => inside.trans (List.prefix_append _ _)
    obtain ⟨answers, last, now, presses⟩ | ⟨front, early, back, answers, last, now, fault, after,
      rfl, presses, failed, reason⟩ :=
      ih fun front answers between now inside => stable front answers between now (start inside)
    · have steady := presses.coherent coherent fun front answers between now inside =>
        stable front answers between now (start inside)
      have ends := press_ends steady (stable _ _ _ _ (List.prefix_append _ _) presses) key
      cases done : Run.exec (press source config last key) now with
      | mk result after =>
        cases result with
        | ok pair =>
          obtain ⟨next, answer⟩ := pair
          exact .inl ⟨_, _, _, presses.snoc done⟩
        | error fault =>
          exact .inr ⟨keys, key, [], answers, last, now, fault, after, rfl, presses, done,
            ends.stopped done⟩
    · refine .inr ⟨front, early, back ++ [key], answers, last, now, fault, after, ?_, presses,
        failed, reason⟩
      rw [List.append_assoc, List.cons_append]

theorem exec_start (source : Source) (world : World) :
    ∃ began, Run.exec (start source) world
      = (.ok { rosters := { keys := (source.keys world.files).1 } }, began) := by
  rw [start, Run.exec_bind_ok (source.exec_askKeys world), Run.exec_bind_ok (Run.exec_record _ _)]
  exact ⟨_, rfl⟩

/-- From its start on the browser is in a coherent state after each of some keys, if its source
keeps to its answers that long. The browser takes all the keys unless it stops at a stat sheet or at
a picture. -/
theorem coherent_throughout {source : Source} {config : Config} {known : List String}
    {rosters : String → Roster} {world began : World} {started : Browser} {keys : List KeyPress}
    (begun : Run.exec (start source) world = (.ok started, began))
    (first : source.Answers known rosters world.files)
    (stable : ∀ front answers browser now, front <+: keys →
      Presses source config started began front answers browser now →
      source.Answers known rosters now.files) :
    (∀ front answers browser now, front <+: keys →
      Presses source config started began front answers browser now →
      browser.Coherent config known rosters) ∧
    ((∃ answers browser now, Presses source config started began keys answers browser now) ∨
      ∃ front key back answers browser now fault after, keys = front ++ key :: back ∧
        Presses source config started began front answers browser now ∧
        Run.exec (press source config browser key) now = (.error fault, after) ∧
        Stops config known rosters browser key fault) := by
  have coherent : started.Coherent config known rosters := by
    obtain ⟨began, done⟩ := exec_start source world
    rw [done, first.keys] at begun
    cases begun
    exact (steady_start config known rosters).coherent rfl
  refine ⟨fun front answers browser now inside presses => ?_, presses_or_stops coherent stable⟩
  apply presses.coherent coherent
  intro earlier answers between now start
  exact stable earlier answers between now (start.trans inside)

/-- Two rosters, one of them without players. -/
def smallRosters : Source := .ofRosters [("full", [{ name := "A" }, { name := "B" }]), ("none", [])]

theorem smallRosters_answers (files : FileTree) : smallRosters.Answers ["full", "none"]
    (fun key => (smallRosters.roster key {}).1) files := by
  refine ⟨?_, fun key => rfl⟩
  change Source.sortKeys ["full", "none"] = ["full", "none"]
  exact List.mergeSort_of_pairwise (by decide)

def smallStart : Browser := { rosters := { keys := ["full", "none"] } }

/-- Browsing a roster, comparing with the other one and asking for an export of it. -/
def someKeys : List KeyPress :=
  [.enter, .down, .left, .down, .character 'x', .character 'i', .escape]

theorem smallRosters_coherent_throughout :
    (∀ front answers browser now, front <+: someKeys →
      Presses smallRosters {} smallStart {} front answers browser now →
      browser.Coherent {} ["full", "none"] fun key => (smallRosters.roster key {}).1) ∧
    ((∃ answers browser now, Presses smallRosters {} smallStart {} someKeys answers browser now) ∨
      ∃ front key back answers browser now fault after, someKeys = front ++ key :: back ∧
        Presses smallRosters {} smallStart {} front answers browser now ∧
        Run.exec (press smallRosters {} browser key) now = (.error fault, after) ∧
        Stops {} ["full", "none"] (fun key => (smallRosters.roster key {}).1) browser key
          fault) := by
  have keys : (smallRosters.keys {}).1 = ["full", "none"] := (smallRosters_answers {}).keys
  have begun : Run.exec (start smallRosters) {} = (.ok smallStart, {}) := by
    rw [smallStart, ← keys]
    rfl
  exact coherent_throughout begun (smallRosters_answers {}) fun _ _ _ now _ _ =>
    smallRosters_answers now.files

end Browser

end GuildRoster
