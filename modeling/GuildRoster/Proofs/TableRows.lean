import GuildRoster.Proofs.Tables
import Mathlib.Data.List.Forall2

/-!
# Rows taken apart

Whatever a name holds, the last semicolons of a row stand in front of its other fields, so a row can
be cut at them into the name and one field for each of the other headings. Numbers read back from
their fields, and players with the same row agree in all that a row shows.
-/

set_option autoImplicit false

namespace GuildRoster

/-! ## Cutting at the last separators -/

namespace Text

/-- A text cut at the last `count` occurrences of a separator: what stands in front of all of them,
and the pieces that follow one each. A text with fewer of them is not cut. -/
def cutAtLast? (separator : Char) (count : Nat) (text : List Char) :
    Option (List Char × List (List Char)) :=
  let pieces := splitAt separator text
  let front := pieces.length - count
  if count < pieces.length then
    some ([separator].intercalate (pieces.take front), pieces.drop front)
  else none

/-- Pieces without the separator are what follows its last occurrences. -/
theorem cutAtLast?_append {separator : Char} (front : List Char) {pieces : List (List Char)}
    (clean : ∀ piece ∈ pieces, separator ∉ piece) :
    cutAtLast? separator pieces.length (front ++ pieces.flatMap (separator :: ·)) =
      some (front, pieces) := by
  have some : 0 < (splitAt separator front).length :=
    List.length_pos_of_ne_nil (splitAt_ne_nil separator front)
  have all := splitAt_append_pieces front clean
  simp only [cutAtLast?, all, List.length_append, Nat.add_sub_cancel, List.take_left,
    List.drop_left, intercalate_splitAt]
  rw [if_pos (by omega)]

end Text

namespace Csv

/-! ## Columns -/

/-- A column of a table: its heading, and what it shows of a player. -/
inductive Column where
  | number (heading : String) (figure : Player → Int64)
  /-- A figure that only players with a guild role have. -/
  | guild (heading : String) (figure : Membership → Int64)
  | words (heading : String) (text : Player → String)

namespace Column

def heading : Column → String
  | number heading _ => heading
  | guild heading _ => heading
  | words heading _ => heading

/-- A field shows a player as its column has it: numbers read back from it, and the field of a guild
figure is empty when the player has no guild role. -/
def Shows (player : Player) (field : String) : Column → Prop
  | number _ figure => Figures.read? field.toList = some (figure player).toInt
  | guild _ figure =>
    match player.membership with
    | some membership => Figures.read? field.toList = some (figure membership).toInt
    | none => field = ""
  | words _ text => field = text player

/-- What is written in a column for a player. -/
def field (player : Player) : Column → String
  | number _ figure => Figures.plain (figure player)
  | guild _ figure =>
    (player.membership.map fun membership => Figures.plain (figure membership)).getD ""
  | words _ text => text player

theorem shows_field (player : Player) (column : Column) :
    column.Shows player (column.field player) := by
  cases column with
  | number heading figure => exact Figures.read?_plain (figure player)
  | guild heading figure =>
    unfold Shows field
    cases player.membership with
    | none => rfl
    | some membership => exact Figures.read?_plain (figure membership)
  | words heading text => rfl

/-- Two players have the same in a column. -/
def Agrees (player other : Player) : Column → Prop
  | number _ figure => figure player = figure other
  | guild _ figure => player.membership.map figure = other.membership.map figure
  | words _ text => text player = text other

theorem agrees_of_shows {column : Column} {player other : Player} {field : String}
    (shown : column.Shows player field) (also : column.Shows other field) :
    column.Agrees player other := by
  cases column with
  | number heading figure =>
    have same : some (figure player).toInt = some (figure other).toInt := shown.symm.trans also
    exact Int64.toInt_inj.1 (Option.some.inj same)
  | guild heading figure =>
    unfold Shows at shown also
    unfold Agrees
    generalize player.membership = first at shown ⊢
    generalize other.membership = second at also ⊢
    cases first with
    | none =>
      cases second with
      | none => rfl
      | some membership =>
        dsimp only at shown also
        rw [shown, String.toList_empty, Figures.read?_nil] at also
        cases also
    | some membership =>
      cases second with
      | none =>
        dsimp only at shown also
        rw [also, String.toList_empty, Figures.read?_nil] at shown
        cases shown
      | some figures =>
        have same : some (figure membership).toInt = some (figure figures).toInt :=
          shown.symm.trans also
        exact congrArg some (Int64.toInt_inj.1 (Option.some.inj same))
  | words heading text => exact shown.symm.trans also

end Column

/-- The columns of a table behind the one for the names. -/
def columns : List Column := [
  .number "Level" (·.level),
  .number "GearScore" (·.gearScore),
  .words "Class" (Labels.className ·.characterClass),
  .words "Race" (Labels.raceName ·.race),
  .words "Sex" (Labels.sexName ·.sex),
  .words "Album" (Binary64.fixed 6 <| albumFraction ·.book),
  .number "Awards" (·.achievements),
  .number "Potion" (·.potions.first.duration),
  .number "Potion" (·.potions.second.duration),
  .number "Potion" (·.potions.third.duration),
  .guild "Treasure" (·.treasure),
  .guild "Instructor" (·.instructor),
  .guild "Pet" (·.pet),
  .guild "Knights" (·.knights),
  .number "PlayerRank" (·.rankings.playerRank),
  .number "PlayerHonor" (·.rankings.playerHonor),
  .number "FortressRank" (·.rankings.fortressRank),
  .number "FortressHonor" (·.rankings.fortressHonor),
  .number "Wall" (·.fortress.wall),
  .number "Warriors" (·.fortress.warriors),
  .number "Archers" (·.fortress.archers),
  .number "Mages" (·.fortress.mages),
  .number "Upgrades" (·.fortress.upgrades),
  .number "Strength" (·.strength),
  .number "Dexterity" (·.dexterity),
  .number "Intelligence" (·.intelligence),
  .number "Constitution" (·.constitution),
  .number "Luck" (·.luck),
  .number "Armor" (·.armor)]

theorem headings_eq : headings = "Name" :: columns.map Column.heading := rfl

theorem figureFields_eq (player : Player) :
    figureFields player = columns.map (·.field player) := by
  have guild : guildFields player.membership =
      [Membership.treasure, Membership.instructor, Membership.pet, Membership.knights].map
        fun figure => (player.membership.map fun membership =>
          Figures.plain (figure membership)).getD "" := by
    cases player.membership <;> rfl
  rw [figureFields, fields, guild]
  rfl

/-- The fields behind a name show the player column by column. -/
theorem columns_show (player : Player) :
    List.Forall₂ (fun column field => column.Shows player field) columns (figureFields player) := by
  rw [figureFields_eq, List.forall₂_map_right_iff, List.forall₂_same]
  exact fun column _ => column.shows_field player

/-! ## Rows -/

/-- A row cut at its last semicolons falls into the name and the fields of the other headings. -/
theorem cutAtLast?_row (player : Player) :
    Text.cutAtLast? ';' 29 (row player).toList =
      some (player.name.toList, (figureFields player).map String.toList) := by
  have count : ((figureFields player).map String.toList).length = 29 := by
    rw [List.length_map, length_figureFields]
  have text : (row player).toList =
      player.name.toList ++ ((figureFields player).map String.toList).flatMap (';' :: ·) := by
    rw [row, toList_intercalate_fields, fields_eq, List.map_cons, Text.intercalate_cons]
  rw [text, ← count]
  apply Text.cutAtLast?_append
  intro piece member
  obtain ⟨field, known, rfl⟩ := List.mem_map.1 member
  exact (unbroken_figureFields known).1

/-- Players with the same row have the same name and agree in every column. -/
theorem agree_of_row_eq {player other : Player} (same : row player = row other) :
    player.name = other.name ∧ ∀ column ∈ columns, column.Agrees player other := by
  have cut := cutAtLast?_row player
  rw [same, cutAtLast?_row other, Option.some.injEq, Prod.mk.injEq] at cut
  have written : columns.map (·.field other) = columns.map (·.field player) := by
    rw [← figureFields_eq, ← figureFields_eq]
    exact List.map_injective_iff.2 (fun _ _ => String.toList_injective) cut.2
  refine ⟨String.toList_injective cut.1.symm, fun column member => ?_⟩
  have shown := column.shows_field other
  rw [List.map_inj_left.1 written column member] at shown
  exact Column.agrees_of_shows (column.shows_field player) shown

theorem isMember_eq_of_agrees {player other : Player}
    (agree : ∀ column ∈ columns, column.Agrees player other) :
    player.isMember = other.isMember := by
  have treasure := agree (.guild "Treasure" (·.treasure)) (by simp [columns])
  simpa [Player.isMember] using congrArg Option.isSome treasure

/-- Whatever is in the name of a player, the row of the player cut at its last 29 semicolons is the
name and one field for each of the other headings, in their order. No such field holds a semicolon
or a line end, and it shows what the column has of the player. So players with the same row have the
same name, agree in every column, and are both members or both not. -/
theorem row_determines_player (player : Player) :
    headings = "Name" :: columns.map Column.heading ∧
    ∃ figures : List String,
      Text.cutAtLast? ';' 29 (row player).toList =
        some (player.name.toList, figures.map String.toList) ∧
      figures.length = 29 ∧
      (∀ field ∈ figures, ';' ∉ field.toList ∧ '\n' ∉ field.toList) ∧
      List.Forall₂ (fun column field => column.Shows player field) columns figures ∧
      ∀ other, row other = row player →
        other.name = player.name ∧ other.isMember = player.isMember ∧
          ∀ column ∈ columns, column.Agrees other player := by
  refine ⟨headings_eq, figureFields player, cutAtLast?_row player, length_figureFields player,
    fun field member => unbroken_figureFields member, columns_show player, ?_⟩
  intro other same
  obtain ⟨name, agree⟩ := agree_of_row_eq same
  exact ⟨name, isMember_eq_of_agrees agree, agree⟩

/-- Experience is in no column. -/
theorem row_determines_punctuated_member :
    let player : Player := { name := "A;B\n;", membership := some { role := .leader, pet := -3 } }
    row { player with xp := 1 } = row player ∧
      ∀ column ∈ columns, column.Agrees { player with xp := 1 } player := by
  intro player
  obtain ⟨_, _, _, _, _, _, determined⟩ := row_determines_player player
  exact ⟨rfl, (determined { player with xp := 1 } rfl).2.2⟩

end Csv

end GuildRoster
