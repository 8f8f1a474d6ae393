import GuildRoster.Browser
import GuildRoster.Commands
import GuildRoster.Proofs.BlockDrawing
import GuildRoster.Proofs.Runs

/-!
# When players cannot be shown

A stat sheet has a fault just when the experience left to the next level is no number of 64 bits.
Printing stat sheets and moving through the browser stop just at the sheets of such players.
-/

set_option autoImplicit false

namespace GuildRoster

/-! ## Sheets -/

/-- The experience that a player lacks for the next level is no number of 64 bits. -/
def Player.Boundless (player : Player) : Prop := Row.Exceeds player.xp player.xpNext

instance (player : Player) : Decidable player.Boundless :=
  inferInstanceAs (Decidable (Row.Exceeds _ _))

theorem Sheet.build_failsJust (config : Config) (player : Player) :
    FailsJust (.overflow .subtraction) player.Boundless (Sheet.build config player) := by
  refine FailsJust.congr ((Row.exactDifference_failsJust player.xp player.xpNext).bind
    fun _ _ => .of_succeeds ⟨_, rfl⟩) ?_
  rw [or_false]
  rfl

/-! ## Runs with faults -/

namespace Run

variable {α β : Type} {fault : Fault} {condition other : Prop} {run : Run α} {next : α → Run β}
  {world : World}

theorem failsJust_pure (value : α) : FailsJust fault False (exec (pure value) world).1 :=
  .of_succeeds ⟨value, rfl⟩

theorem failsJust_ofExcept {computation : Except Fault α}
    (just : FailsJust fault condition computation) (world : World) :
    FailsJust fault condition (exec (ofExcept computation) world).1 := by
  rw [exec_ofExcept]
  exact just

theorem failsJust_bind (start : FailsJust fault condition (exec run world).1)
    (rest : ∀ value after, exec run world = (.ok value, after) →
      FailsJust fault other (exec (next value) after).1) :
    FailsJust fault (condition ∨ other) (exec (run >>= next) world).1 := by
  cases done : exec run world with
  | mk result after =>
    rw [done] at start
    rw [exec_bind, done]
    cases result with
    | ok value =>
      have fine : ¬ condition := by
        intro holds
        cases start.fails holds
      exact (rest value after done).congr (by simp [fine])
    | error found =>
      have stopped : condition := by
        by_contra fine
        obtain ⟨value, same⟩ := start.succeeds fine
        cases same
      have same : found = fault := by
        cases start.fails stopped
        rfl
      subst same
      exact ⟨fun _ => rfl, fun neither => absurd (.inl stopped) neither⟩

theorem failsJust_return (just : FailsJust fault condition (exec run world).1) (change : α → β) :
    FailsJust fault condition (exec (do return change (← run)) world).1 :=
  (failsJust_bind just fun value _ _ => failsJust_pure (change value)).congr (by simp)

theorem failsJust_map (just : FailsJust fault condition (exec run world).1) (change : α → β) :
    FailsJust fault condition (exec (change <$> run) world).1 := by
  rw [map_eq_pure_bind]
  exact failsJust_return just change

end Run

/-! ## Printing sheets -/

namespace Commands

/-- Sheets are printed up to the first one that has a fault. The induction is on the players; only
the first sheet has no empty line before it. -/
theorem printSheets_failsJust (config : Config) (set : DrawingSet) (first : Bool) (players : Roster)
    (world : World) :
    FailsJust (.overflow .subtraction) (∃ player ∈ players, player.Boundless)
      (Run.exec (printSheets config set first players) world).1 := by
  induction players generalizing first world with
  | nil => exact (Run.failsJust_pure ()).congr (by simp)
  | cons player players ih =>
    have sheets : ∀ world, FailsJust (.overflow .subtraction)
        (∃ other ∈ player :: players, other.Boundless)
        (Run.exec (do
          let sheet ← Run.ofExcept (Sheet.build config player)
          Run.print (sheet.printed set)
          printSheets config set false players) world).1 := by
      intro world
      have built := Run.failsJust_ofExcept (Sheet.build_failsJust config player) world
      have whole := Run.failsJust_bind built fun sheet after _ =>
        ih false { after with output := after.output ++ sheet.printed set }
      exact whole.congr (by simp)
    cases first with
    | true => exact sheets world
    | false => exact sheets _

/-- The players whose sheets are printed: all players of a roster, or the first one of a name. -/
def shown (source : Source) (key : String) (name : Option String) (world : World) : Roster :=
  match name with
  | none => (source.roster key world.files).1
  | some name => ((source.roster key world.files).1.findByName? name).toList

theorem showPlayers_failsJust (source : Source) (config : Config) (key : String)
    (name : Option String) (set : DrawingSet) (world : World) :
    FailsJust (.overflow .subtraction) (∃ player ∈ shown source key name world, player.Boundless)
      (Run.exec (showPlayers source config key name set) world).1 := by
  rw [showPlayers, Run.exec_bind_ok (source.exec_askRoster key world)]
  unfold shown
  generalize (source.roster key world.files).1 = roster
  by_cases empty : roster = []
  · subst empty
    rw [if_pos List.isEmpty_nil]
    refine (Run.failsJust_pure _).congr ?_
    cases name with
    | none => simp
    | some name => simp [Roster.findByName?]
  · rw [if_neg (by simpa using empty)]
    cases name with
    | none => exact Run.failsJust_map (printSheets_failsJust config set true roster _) Except.ok
    | some name =>
      dsimp only
      cases roster.findByName? name with
      | none => exact (Run.failsJust_pure _).congr (by simp)
      | some player =>
        exact Run.failsJust_map (printSheets_failsJust config set true [player] _) Except.ok

end Commands

/-! ## Browsing -/

namespace Details

theorem select_failsJust (config : Config) (position : Nat) (details : Details) :
    FailsJust (.overflow .subtraction)
      (∃ player, details.players[position]? = some player ∧ player.Boundless)
      (details.select config position) := by
  unfold select
  cases details.players[position]? with
  | none => exact (FailsJust.of_succeeds ⟨details, rfl⟩).congr (by simp)
  | some player =>
    have built := (Sheet.build_failsJust config player).bind
      fun sheet _ => FailsJust.of_succeeds
        ⟨{ details with position := some position, sheet := some sheet }, rfl⟩
    exact built.congr (by simp)

theorem up_failsJust (config : Config) (details : Details) :
    FailsJust (.overflow .subtraction)
      (∃ player, (details.position.bind fun position => details.players[position - 1]?)
        = some player ∧ player.Boundless)
      (details.up config) := by
  unfold up
  cases details.position with
  | none => exact (FailsJust.of_succeeds ⟨details, rfl⟩).congr (by simp)
  | some position => exact select_failsJust config (position - 1) details

theorem down_failsJust (config : Config) (details : Details) :
    FailsJust (.overflow .subtraction)
      (∃ player, (details.position.bind fun position => details.players[position + 1]?)
        = some player ∧ player.Boundless)
      (details.down config) := by
  unfold down
  cases details.position with
  | none => exact (FailsJust.of_succeeds ⟨details, rfl⟩).congr (by simp)
  | some position => exact select_failsJust config (position + 1) details

theorem browse_failsJust (source : Source) (config : Config) (key : String) (world : World) :
    FailsJust (.overflow .subtraction)
      (∃ player, (source.roster key world.files).1[0]? = some player ∧ player.Boundless)
      (Run.exec (browse source config key) world).1 := by
  rw [browse, Run.exec_bind_ok (source.exec_askRoster key world),
    Run.exec_bind_ok (Run.exec_record _ _)]
  exact Run.failsJust_ofExcept (select_failsJust config 0
    { key := some key, players := (source.roster key world.files).1 }) _

end Details

namespace Browser

/-- The player whose sheet a key asks for on the tab of rosters: the first one of the selected
roster. -/
def askedOnRosters? (source : Source) (browser : Browser) (files : FileTree) :
    KeyPress → Option Player
  | .enter => browser.rosters.selected?.bind fun roster => (source.roster roster files).1[0]?
  | _ => none

/-- The player whose sheet a key asks for on the tab of players: the neighbour of the selected
one. -/
def askedOnPlayers? (browser : Browser) : KeyPress → Option Player
  | .up => browser.details.position.bind fun position => browser.details.players[position - 1]?
  | .down => browser.details.position.bind fun position => browser.details.players[position + 1]?
  | _ => none

def asked? (source : Source) (browser : Browser) (key : KeyPress) (files : FileTree) :
    Option Player :=
  match browser.tab with
  | .rosters => askedOnRosters? source browser files key
  | .browse => browser.askedOnPlayers? key

theorem askedOnRosters?_of_ne {source : Source} {browser : Browser} {files : FileTree}
    {key : KeyPress} (other : key ≠ .enter) : askedOnRosters? source browser files key = none := by
  cases key with
  | enter => exact absurd rfl other
  | _ => rfl

theorem askedOnPlayers?_of_ne {browser : Browser} {key : KeyPress} (notUp : key ≠ .up)
    (notDown : key ≠ .down) : browser.askedOnPlayers? key = none := by
  cases key with
  | up => exact absurd rfl notUp
  | down => exact absurd rfl notDown
  | _ => rfl

theorem asked?_of_ne {source : Source} {browser : Browser} {files : FileTree} {key : KeyPress}
    (notUp : key ≠ .up) (notDown : key ≠ .down) (notEnter : key ≠ .enter) :
    browser.asked? source key files = none := by
  unfold asked?
  split
  · exact askedOnRosters?_of_ne notEnter
  · exact askedOnPlayers?_of_ne notUp notDown

/-- A run that asks for no sheet has an answer. -/
private theorem failsJust_unasked {α : Type} {fault : Fault} {asked : Option Player}
    (none : asked = none) (value : α) (world : World) :
    FailsJust fault (∃ player, asked = some player ∧ player.Boundless)
      (Run.exec (pure value) world).1 :=
  (Run.failsJust_pure value).congr (by simp [none])

theorem pressOnRosters_failsJust (source : Source) (config : Config) (browser : Browser)
    (key : KeyPress) (world : World) :
    FailsJust (.overflow .subtraction)
      (∃ player, askedOnRosters? source browser world.files key = some player ∧ player.Boundless)
      (Run.exec (browser.pressOnRosters source config key) world).1 := by
  unfold pressOnRosters
  split
  next => exact failsJust_unasked rfl _ world
  next => exact failsJust_unasked rfl _ world
  next =>
    unfold askedOnRosters?
    cases browser.rosters.selected? with
    | none => exact failsJust_unasked rfl _ world
    | some roster =>
      exact Run.failsJust_return (Details.browse_failsJust source config roster world)
        fun details => { browser with details, tab := .browse }
  next => exact failsJust_unasked rfl _ world
  next _ _ notEnter _ => exact failsJust_unasked (askedOnRosters?_of_ne notEnter) _ world

theorem pressOnPlayers_failsJust (config : Config) (browser : Browser) (key : KeyPress)
    (world : World) :
    FailsJust (.overflow .subtraction)
      (∃ player, browser.askedOnPlayers? key = some player ∧ player.Boundless)
      (Run.exec (browser.pressOnPlayers config key) world).1 := by
  unfold pressOnPlayers
  split
  next =>
    exact Run.failsJust_return (Run.failsJust_ofExcept (browser.details.up_failsJust config) world)
      fun details => { browser with details }
  next =>
    exact Run.failsJust_return
      (Run.failsJust_ofExcept (browser.details.down_failsJust config) world)
      fun details => { browser with details }
  next notUp notDown => exact failsJust_unasked (askedOnPlayers?_of_ne notUp notDown) _ world

theorem pressFree_failsJust (source : Source) (config : Config) (browser : Browser) (key : KeyPress)
    (world : World) :
    FailsJust (.overflow .subtraction)
      (∃ player, browser.asked? source key world.files = some player ∧ player.Boundless)
      (Run.exec (browser.pressFree source config key) world).1 := by
  have unasked : ∀ next : Browser, key ≠ .up → key ≠ .down → key ≠ .enter →
      FailsJust (.overflow .subtraction)
        (∃ player, browser.asked? source key world.files = some player ∧ player.Boundless)
        (Run.exec (pure next) world).1 :=
    fun next notUp notDown notEnter =>
      failsJust_unasked (asked?_of_ne notUp notDown notEnter) next world
  unfold pressFree
  split
  next => exact unasked _ (by simp) (by simp) (by simp)
  next => exact unasked _ (by simp) (by simp) (by simp)
  next => exact unasked _ (by simp) (by simp) (by simp)
  next => exact unasked _ (by simp) (by simp) (by simp)
  next => exact unasked _ (by simp) (by simp) (by simp)
  next => exact unasked _ (by simp) (by simp) (by simp)
  next => exact unasked _ (by simp) (by simp) (by simp)
  next => exact unasked _ (by simp) (by simp) (by simp)
  next =>
    unfold asked?
    cases browser.tab with
    | rosters => exact pressOnRosters_failsJust source config browser key world
    | browse => exact pressOnPlayers_failsJust config browser key world

/-- With no prompt open, a key stops the browser just when it asks for the sheet of a player that
has none. -/
theorem press_failsJust (source : Source) (config : Config) (browser : Browser) (key : KeyPress)
    (world : World) :
    FailsJust (.overflow .subtraction)
      (∃ player, browser.asked? source key world.files = some player ∧ player.Boundless)
      (Run.exec ({ browser with prompt := none }.press source config key) world).1 := by
  unfold press
  dsimp only
  split
  next quits =>
    exact failsJust_unasked (asked?_of_ne (by simp [quits]) (by simp [quits]) (by simp [quits])) _
      world
  next =>
    have free := pressFree_failsJust source config { browser with prompt := none } key world
    exact Run.failsJust_map free fun next => (next, false)

end Browser

/-! ## Showing players -/

namespace Sheet

/-- A sheet has a fault just when the experience missing for the next level is no number of 64 bits,
and this is the only fault of a sheet. Printing sheets stops just when one of the sheets to print
has it, and a key in the browser, with no prompt open, just when the sheet that it asks for has
it. -/
theorem showing_failsJust (config : Config) :
    (∀ player, FailsJust (.overflow .subtraction) player.Boundless (build config player)) ∧
    (∀ source key name set world,
      FailsJust (.overflow .subtraction)
        (∃ player ∈ Commands.shown source key name world, player.Boundless)
        (Run.exec (Commands.showPlayers source config key name set) world).1) ∧
    ∀ source browser key world,
      FailsJust (.overflow .subtraction)
        (∃ player, Browser.asked? source browser key world.files = some player ∧
          player.Boundless)
        (Run.exec (Browser.press source config { browser with prompt := none } key) world).1 :=
  ⟨build_failsJust config,
    fun source key name set world =>
      Commands.showPlayers_failsJust source config key name set world,
    fun source browser key world => browser.press_failsJust source config key world⟩

/-- A player below zero whose next level takes as much experience as a number can say. -/
def unreachable : Player := { name := "A", xp := -1, xpNext := 9223372036854775807 }

theorem showing_can_fail :
    build {} unreachable = .error (.overflow .subtraction) ∧
    (Run.exec (Commands.showPlayers (.ofRosters [("a", [unreachable])]) {} "a" none .plain)
      {}).1 = .error (.overflow .subtraction) ∧
    (Run.exec (Browser.press (.ofRosters [("a", [unreachable])]) {}
      { rosters := { keys := ["a"] } } .enter) {}).1 = .error (.overflow .subtraction) := by
  have beyond : unreachable.Boundless := by decide
  refine ⟨(build_failsJust {} unreachable).fails beyond, ?shown, ?pressed⟩
  case shown =>
    exact (Commands.showPlayers_failsJust _ {} "a" none _ {}).fails
      ⟨unreachable, List.mem_singleton_self _, beyond⟩
  case pressed =>
    exact (Browser.press_failsJust _ {} { rosters := { keys := ["a"] } } .enter {}).fails
      ⟨unreachable, rfl, beyond⟩

end Sheet

end GuildRoster
