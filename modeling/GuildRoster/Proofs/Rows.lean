import GuildRoster.Image.Row
import GuildRoster.Proofs.Faults
import Mathlib.Data.List.Nodup

/-!
# Rows of players

A row is built unless one of the changes that it shows is no number of 64 bits. Each change is put
into the cell of one column. Columns are distinct, so what a row shows of the changes is told column
by column, whatever order they were put in.
-/

set_option autoImplicit false

namespace GuildRoster.Row

/-! ## Differences -/

/-- The fault of a difference that leaves its range. -/
def changeFault : Fault := .overflow .subtraction

/-- The change between two numbers is no number of 64 bits. -/
def Exceeds (before now : Int64) : Prop :=
  now.toInt - before.toInt < -9223372036854775808 ∨
    9223372036854775807 < now.toInt - before.toInt

instance (before now : Int64) : Decidable (Exceeds before now) :=
  inferInstanceAs (Decidable (_ ∨ _))

/-- One of the changes that a row shows between two snapshots of a player is no number of 64
bits. -/
def Faulty (before now : Player) : Prop :=
  Exceeds before.level now.level ∨ Exceeds before.gearScore now.gearScore ∨
    Exceeds before.book now.book ∨
    ∃ figuresBefore figuresNow, before.membership = some figuresBefore ∧
      now.membership = some figuresNow ∧
      (Exceeds figuresBefore.pet figuresNow.pet ∨
        Exceeds figuresBefore.knights figuresNow.knights)

instance (before now : Player) : Decidable (Faulty before now) :=
  decidable_of_iff (Exceeds before.level now.level ∨ Exceeds before.gearScore now.gearScore ∨
    Exceeds before.book now.book ∨ before.membership.any (fun figuresBefore =>
      now.membership.any fun figuresNow => decide (Exceeds figuresBefore.pet figuresNow.pet ∨
        Exceeds figuresBefore.knights figuresNow.knights)) = true)
    (by simp only [Faulty, Option.any_eq_true, decide_eq_true_eq, exists_and_left])

/-- A change that a player's row shows since an earlier snapshot in the roster to compare with is
no number of 64 bits. -/
def FaultyIn (compare : Option Roster) (player : Player) : Prop :=
  ∃ before, (compare.bind fun roster => roster.findByName? player.name) = some before ∧
    Faulty before player

/-- How far a figure has moved, if that is a number of 64 bits. -/
def difference (before now : Int64) : Int64 := .ofInt (now.toInt - before.toInt)

theorem exactDifference_eq {before now : Int64} (sound : ¬ Exceeds before now) :
    exactDifference now before = .ok (difference before now) := by
  simp only [Exceeds] at sound
  exact if_pos (by omega)

theorem exactDifference_failsJust (before now : Int64) :
    FailsJust changeFault (Exceeds before now) (exactDifference now before) := by
  refine ⟨fun outside => ?_, fun sound => ⟨_, exactDifference_eq sound⟩⟩
  simp only [Exceeds] at outside
  exact if_neg (by omega)

theorem exceeds_self (number : Int64) : ¬ Exceeds number number := by
  simp only [Exceeds]
  omega

/-! ## When rows are built -/

theorem showChange_self (column : Grid.Column) (text : Int64 → String) (number : Int64)
    (cells : List RowCell) : showChange column text number number cells = .ok cells := if_pos rfl

theorem showChange_failsJust (column : Grid.Column) (text : Int64 → String) (before now : Int64)
    (cells : List RowCell) :
    FailsJust changeFault (Exceeds before now) (showChange column text before now cells) := by
  unfold showChange
  split
  next same => exact ⟨fun outside => absurd outside (same ▸ exceeds_self before), fun _ => ⟨_, rfl⟩⟩
  next =>
    have whole := (exactDifference_failsJust before now).bind fun difference _ =>
      FailsJust.of_succeeds ⟨annotate column (text difference) cells, rfl⟩
    exact whole.congr (by rw [or_false])

theorem showGuildChanges_failsJust (before now : Option Membership) (cells : List RowCell) :
    FailsJust changeFault (∃ figuresBefore figuresNow, before = some figuresBefore ∧
      now = some figuresNow ∧ (Exceeds figuresBefore.pet figuresNow.pet ∨
        Exceeds figuresBefore.knights figuresNow.knights))
      (showGuildChanges before now cells) := by
  cases before with
  | none => exact (FailsJust.of_succeeds ⟨cells, rfl⟩).congr (by simp)
  | some figuresBefore =>
    cases now with
    | none => exact (FailsJust.of_succeeds ⟨cells, rfl⟩).congr (by simp)
    | some figuresNow =>
      refine FailsJust.congr ((showChange_failsJust _ _ _ _ cells).bind fun cells _ =>
        showChange_failsJust _ _ _ _ cells) ?_
      simp

theorem showChanges_failsJust (before now : Player) (cells : List RowCell) :
    FailsJust changeFault (Faulty before now) (showChanges before now cells) :=
  (showChange_failsJust _ _ _ _ cells).bind fun cells _ =>
    (showChange_failsJust _ _ _ _ cells).bind fun cells _ =>
    (showChange_failsJust _ _ _ _ cells).bind fun cells _ =>
    showGuildChanges_failsJust _ _ cells

/-- A row is built unless one of its changes is no number of 64 bits. -/
theorem build_failsJust (config : Config) (player : Player) (previous : Option Player) :
    FailsJust changeFault (∃ before, previous = some before ∧ Faulty before player)
      (build config player previous) := by
  cases previous with
  | none => exact (FailsJust.of_succeeds ⟨_, rfl⟩).congr (by simp)
  | some before => exact (showChanges_failsJust before player _).congr (by simp)

/-! ## Columns -/

/-- The columns of the cells that every player has. -/
def generalColumns : List Grid.Column :=
  [.name, .level, .gear, .album, .mount, .awards] ++ (potionCells {}).map (·.column)

/-- The columns of the cells that only members have. -/
def guildColumns : List Grid.Column := [.treasure, .instructor, .pet, .knights]

theorem columns_plainCells (config : Config) (player : Player) :
    (plainCells config player).map (·.column) =
      generalColumns ++ if player.isMember then guildColumns else [] := by
  cases shape : player.membership with
  | none => simp [plainCells, Player.isMember, shape, potionCells, generalColumns]
  | some figures =>
    simp [plainCells, Player.isMember, shape, potionCells, guildCells, generalColumns, guildColumns]

theorem nodup_columns_plainCells (config : Config) (player : Player) :
    ((plainCells config player).map (·.column)).Nodup := by
  rw [columns_plainCells]
  cases player.isMember with
  | true => decide
  | false => decide

/-! ## Changes of columns -/

/-- Cells with the changes that their columns have. -/
def withChanges (changes : Grid.Column → Option String) (cells : List RowCell) : List RowCell :=
  cells.map fun cell => { cell with change := changes cell.column }

theorem withChanges_congr {changes others : Grid.Column → Option String} {cells : List RowCell}
    (same : ∀ cell ∈ cells, changes cell.column = others cell.column) :
    withChanges changes cells = withChanges others cells := by
  apply List.map_congr_left
  intro cell member
  rw [same cell member]

/-- A change that is put into a column replaces the one that the column has. -/
theorem annotate_withChanges {cells : List RowCell} (distinct : (cells.map (·.column)).Nodup)
    (changes : Grid.Column → Option String) (column : Grid.Column) (change : String) :
    annotate column change (withChanges changes cells)
      = withChanges (Function.update changes column (some change)) cells := by
  induction cells with
  | nil => rfl
  | cons cell rest ih =>
    obtain ⟨unique, distinct⟩ := List.nodup_cons.1 distinct
    rw [withChanges, List.map_cons, annotate]
    by_cases here : cell.column = column
    · subst here
      -- No other cell has this column, so the rest shows what it did.
      have others : ∀ other ∈ rest, changes other.column
          = Function.update changes cell.column (some change) other.column := by
        intro other member
        have apart : other.column ≠ cell.column := by
          intro same
          exact unique (List.mem_map.2 ⟨other, member, same⟩)
        rw [Function.update_of_ne apart]
      rw [if_pos rfl, withChanges, List.map_cons, Function.update_self, ← withChanges,
        ← withChanges, withChanges_congr others]
    · rw [if_neg here, withChanges, List.map_cons, Function.update_of_ne here, ← withChanges,
        ← withChanges, ih distinct]

/-- The text of a change between two figures, if there is one. -/
def change? (text : Int64 → String) (before now : Int64) : Option String :=
  if before = now then none else some (text (difference before now))

/-! ## What a row shows -/

/-- The figures of two snapshots of a player that a column compares. -/
def compared? (before now : Player) : Grid.Column → Option (Int64 × Int64)
  | .level => some (before.level, now.level)
  | .gear => some (before.gearScore, now.gearScore)
  | .album => some (before.book, now.book)
  | .pet => before.membership.bind fun figuresBefore =>
      now.membership.map fun figuresNow => (figuresBefore.pet, figuresNow.pet)
  | .knights => before.membership.bind fun figuresBefore =>
      now.membership.map fun figuresNow => (figuresBefore.knights, figuresNow.knights)
  | .name | .mount | .awards | .potion _ | .treasure | .instructor => none

/-- How the change of a column is written. -/
def changeText : Grid.Column → Int64 → String
  | .album => Figures.albumChange
  | _ => Figures.change

/-- The change that a column shows between two snapshots of a player. -/
def changeIn? (before now : Player) (column : Grid.Column) : Option String := do
  let figures ← compared? before now column
  change? (changeText column) figures.1 figures.2

theorem not_exceeds_of_compared {before now : Player} (sound : ¬ Faulty before now)
    {column : Grid.Column} {figures : Int64 × Int64}
    (compares : compared? before now column = some figures) : ¬ Exceeds figures.1 figures.2 := by
  simp only [Faulty, not_or, not_exists, not_and] at sound
  obtain ⟨level, gear, book, guild⟩ := sound
  cases column with
  | level => cases compares; exact level
  | gear => cases compares; exact gear
  | album => cases compares; exact book
  | pet =>
    obtain ⟨figuresBefore, member, compares⟩ := Option.bind_eq_some_iff.1 compares
    obtain ⟨figuresNow, alsoMember, compares⟩ := Option.map_eq_some_iff.1 compares
    cases compares
    exact (guild figuresBefore figuresNow member alsoMember).1
  | knights =>
    obtain ⟨figuresBefore, member, compares⟩ := Option.bind_eq_some_iff.1 compares
    obtain ⟨figuresNow, alsoMember, compares⟩ := Option.map_eq_some_iff.1 compares
    cases compares
    exact (guild figuresBefore figuresNow member alsoMember).2
  | name | mount | awards | potion | treasure | instructor => cases compares

theorem withChanges_none (config : Config) (player : Player) :
    withChanges (fun _ => none) (plainCells config player) = plainCells config player := by
  cases shape : player.membership with
  | none =>
    simp only [plainCells, shape]
    rfl
  | some figures =>
    simp only [plainCells, shape]
    rfl

/-- The changes that some columns show between two snapshots of a player. -/
def changesOf (before now : Player) (columns : List Grid.Column) (column : Grid.Column) :
    Option String :=
  if column ∈ columns then changeIn? before now column else none

/-- Comparing the figures of a column adds the change of that column to those of the others. -/
theorem showChange_withChanges {cells : List RowCell} (distinct : (cells.map (·.column)).Nodup)
    {before now : Player} (sound : ¬ Faulty before now) {columns : List Grid.Column}
    {column : Grid.Column} (new : column ∉ columns) {figures : Int64 × Int64}
    (compares : compared? before now column = some figures) :
    showChange column (changeText column) figures.1 figures.2
        (withChanges (changesOf before now columns) cells)
      = .ok (withChanges (changesOf before now (column :: columns)) cells) := by
  have added : changesOf before now (column :: columns)
      = Function.update (changesOf before now columns) column
        (change? (changeText column) figures.1 figures.2) := by
    funext other
    by_cases same : other = column
    · subst same
      simp [changesOf, changeIn?, compares]
    · simp [changesOf, same]
  rw [added]
  unfold showChange change?
  split
  next =>
    have free : changesOf before now columns column = none := if_neg new
    rw [← free, Function.update_eq_self]
  next =>
    rw [exactDifference_eq (not_exceeds_of_compared sound compares),
      ← annotate_withChanges distinct]
    rfl

/-- A column that compares nothing adds no change. -/
theorem changesOf_cons_of_none {before now : Player} {column : Grid.Column}
    (nothing : compared? before now column = none) (columns : List Grid.Column) :
    changesOf before now (column :: columns) = changesOf before now columns := by
  funext other
  by_cases same : other = column
  · subst same
    simp [changesOf, changeIn?, nothing]
  · simp [changesOf, same]

theorem changesOf_guild_of_none {before now : Player}
    (neither : before.membership = none ∨ now.membership = none) (columns : List Grid.Column) :
    changesOf before now (.knights :: .pet :: columns) = changesOf before now columns := by
  have pets : compared? before now .pet = none := by
    obtain missing | missing := neither <;> simp [compared?, missing]
  have knightly : compared? before now .knights = none := by
    obtain missing | missing := neither <;> simp [compared?, missing]
  rw [changesOf_cons_of_none knightly, changesOf_cons_of_none pets]

theorem showGuildChanges_withChanges {cells : List RowCell}
    (distinct : (cells.map (·.column)).Nodup) {before now : Player} (sound : ¬ Faulty before now)
    {columns : List Grid.Column} (pet : .pet ∉ columns) (knights : .knights ∉ .pet :: columns) :
    showGuildChanges before.membership now.membership
        (withChanges (changesOf before now columns) cells)
      = .ok (withChanges (changesOf before now (.knights :: .pet :: columns)) cells) := by
  cases memberBefore : before.membership with
  | none =>
    rw [changesOf_guild_of_none (.inl memberBefore)]
    rfl
  | some figuresBefore =>
    cases memberNow : now.membership with
    | none =>
      rw [changesOf_guild_of_none (.inr memberNow)]
      rfl
    | some figuresNow =>
      have pets : compared? before now .pet = some (figuresBefore.pet, figuresNow.pet) := by
        simp [compared?, memberBefore, memberNow]
      have knightly : compared? before now .knights
          = some (figuresBefore.knights, figuresNow.knights) := by
        simp [compared?, memberBefore, memberNow]
      exact except_bind_eq_ok_iff.2 ⟨_, showChange_withChanges distinct sound pet pets,
        showChange_withChanges distinct sound knights knightly⟩

theorem showChanges_withChanges {cells : List RowCell} (distinct : (cells.map (·.column)).Nodup)
    {before now : Player} (sound : ¬ Faulty before now) :
    showChanges before now (withChanges (fun _ => none) cells)
      = .ok (withChanges (changeIn? before now) cells) := by
  have step {columns : List Grid.Column} {column : Grid.Column} {figures : Int64 × Int64}
      (new : column ∉ columns) (compares : compared? before now column = some figures) :=
    showChange_withChanges distinct sound new compares
  have none : (fun _ => Option.none) = changesOf before now [] := rfl
  have all : changesOf before now [.knights, .pet, .album, .gear, .level]
      = changeIn? before now := by
    funext column
    cases column <;> rfl
  rw [none, ← all]
  refine except_bind_eq_ok_iff.2 ⟨_, @step _ .level (_, _) (by decide) rfl, ?_⟩
  refine except_bind_eq_ok_iff.2 ⟨_, @step _ .gear (_, _) (by decide) rfl, ?_⟩
  refine except_bind_eq_ok_iff.2 ⟨_, @step _ .album (_, _) (by decide) rfl, ?_⟩
  exact showGuildChanges_withChanges distinct sound (by decide) (by decide)

/-- A row without a fault shows in each column the change of that column. -/
theorem build_eq (config : Config) {player : Player} {previous : Option Player}
    (sound : ∀ before, previous = some before → ¬ Faulty before player) :
    build config player previous = .ok (withChanges
      (fun column => previous.bind fun before => changeIn? before player column)
      (plainCells config player)) := by
  cases previous with
  | none => exact congrArg Except.ok (withChanges_none config player).symm
  | some before =>
    have shown := showChanges_withChanges (nodup_columns_plainCells config player)
      (sound before rfl)
    rw [withChanges_none] at shown
    exact shown

theorem not_faulty_of_build {config : Config} {player : Player} {previous : Option Player}
    {cells : List RowCell} (built : build config player previous = .ok cells) :
    ∀ before, previous = some before → ¬ Faulty before player := by
  intro before found faulty
  exact (build_failsJust config player previous).succeeds_iff.1 ⟨cells, built⟩
    ⟨before, found, faulty⟩

theorem eq_of_build {config : Config} {player : Player} {previous : Option Player}
    {cells : List RowCell} (built : build config player previous = .ok cells) :
    cells = withChanges (fun column => previous.bind fun before => changeIn? before player column)
      (plainCells config player) := by
  rw [build_eq config (not_faulty_of_build built)] at built
  cases built
  rfl

end GuildRoster.Row
