import GuildRoster.Figures
import GuildRoster.Labels
import GuildRoster.Player

/-!
# Rosters as tables of text

One line for each player after a line of headings, fields divided by semicolons. Nothing is quoted,
so a name with a semicolon or a line end in it upsets the table.
-/

set_option autoImplicit false

namespace GuildRoster.Csv

def headings : List String :=
  ["Name", "Level", "GearScore", "Class", "Race", "Sex", "Album", "Awards", "Potion", "Potion",
    "Potion", "Treasure", "Instructor", "Pet", "Knights", "PlayerRank", "PlayerHonor",
    "FortressRank", "FortressHonor", "Wall", "Warriors", "Archers", "Mages", "Upgrades",
    "Strength", "Dexterity", "Intelligence", "Constitution", "Luck", "Armor"]

def header : String := ";".intercalate headings

/-- The guild figures of a player; the fields of players without a role are empty. -/
def guildFields : Option Membership → List String
  | some figures => [figures.treasure, figures.instructor, figures.pet, figures.knights].map
      Figures.plain
  | none => ["", "", "", ""]

def fields (player : Player) : List String :=
  [player.name, Figures.plain player.level, Figures.plain player.gearScore,
    Labels.className player.characterClass, Labels.raceName player.race,
    Labels.sexName player.sex, Binary64.fixed 6 (albumFraction player.book),
    Figures.plain player.achievements]
  ++ player.potions.toList.map (Figures.plain ·.duration)
  ++ guildFields player.membership
  ++ [player.rankings.playerRank, player.rankings.playerHonor, player.rankings.fortressRank,
      player.rankings.fortressHonor, player.fortress.wall, player.fortress.warriors,
      player.fortress.archers, player.fortress.mages, player.fortress.upgrades, player.strength,
      player.dexterity, player.intelligence, player.constitution, player.luck, player.armor].map
      Figures.plain

def row (player : Player) : String := ";".intercalate (fields player)

/-- The players that are exported: all of them, or those with a guild role. -/
def exported (onlyMembers : Bool) (roster : Roster) : Roster :=
  roster.filter fun player => !onlyMembers || player.isMember

/-- A part of a table: its text and the number of its rows. -/
structure Written where
  text : String
  rows : Nat
  deriving DecidableEq, Repr

/-- Adds the rows of some players, each behind a line end, and counts them. -/
def writeRows : Roster → Written → Written
  | [], written => written
  | player :: players, written =>
    writeRows players ⟨written.text ++ "\n" ++ row player, written.rows + 1⟩

/-- The header and the rows of some players. No line end follows the last row. -/
def write (players : Roster) : Written := writeRows players ⟨header, 0⟩

/-- The table of the exported players. -/
def table (players : Roster) : String := (write players).text

end GuildRoster.Csv
