import GuildRoster.Config
import GuildRoster.Figures
import GuildRoster.Labels
import GuildRoster.Player

/-!
# Stat sheets

Everything shown about one player, before it is laid out. Only the experience that is left to the
next level is computed with signed 64-bit numbers, so only there a sheet can have a fault.
-/

set_option autoImplicit false

namespace GuildRoster

namespace Sheet

structure Value where
  text : String
  standing : Option Standing := none
  deriving DecidableEq, Repr

structure Field where
  label : String
  value : Value
  deriving DecidableEq, Repr

structure Bar where
  fraction : Float
  caption : String
  standing : Option Standing := none

structure Potion where
  duration : String
  name : String
  deriving DecidableEq, Repr

structure Rank where
  label : String
  rank : Int64
  honor : Int64
  deriving DecidableEq, Repr

structure Group where
  position : String
  treasure : Int64
  instructor : Int64
  pet : Value
  knights : Value
  deriving DecidableEq, Repr

end Sheet

/-- The stat sheet of a player. -/
structure Sheet where
  title : String
  gear : String
  guild : Option String
  experience : Sheet.Bar
  mount : Sheet.Value
  potions : List Sheet.Potion
  book : Sheet.Bar
  achievements : Sheet.Bar
  rankings : List Sheet.Rank
  attributes : List Sheet.Field
  fortress : List Sheet.Field
  group : Option Sheet.Group

namespace Sheet

/-- The part that a value is of a total; nothing is a part of no total. -/
def fraction (value total : Int64) : Float :=
  if total ≤ 0 then 0 else Binary64.ofInt64 value / Binary64.ofInt64 total

def standingValue (number : Int64) (standing : Option Standing) : Value :=
  ⟨Figures.plain number, standing⟩

def field (label : String) (number : Int64) : Field := ⟨label, ⟨Figures.plain number, none⟩⟩

def potion (slot : PotionSlot) : Potion :=
  ⟨"+" ++ Figures.plain slot.duration ++ "%", Labels.potionName slot.kind⟩

def memberGroup (thresholds : TierThresholds) (membership : Membership) : Group where
  position := membership.role.label
  treasure := membership.treasure
  instructor := membership.instructor
  pet := standingValue membership.pet (thresholds.pet.standing true membership.pet)
  knights :=
    standingValue membership.knights (thresholds.knights.standing true membership.knights)

def isHighlighted (config : Config) (player : Player) : Bool :=
  player.isMember || config.highlightAll

def build (config : Config) (player : Player) : Except Fault Sheet := do
  let highlighted := isHighlighted config player
  let percent := Binary64.truncate (albumPercent player.book)
  let missing ← exactDifference player.xpNext player.xp
  return {
    title := player.name ++ " (" ++ Figures.plain player.level ++ ")"
    gear := "★ " ++ Figures.plain player.gearScore
    guild := player.guild
    experience := {
      fraction := fraction player.xp player.xpNext
      caption := Figures.grouped missing ++ " out of " ++ Figures.grouped player.xpNext
        ++ " XP left to next level" }
    mount := standingValue player.mount (config.thresholds.mount.standing highlighted player.mount)
    potions := player.activePotions.map potion
    book := {
      fraction := albumFraction player.book
      caption := Figures.plain player.book ++ " (" ++ Figures.plain percent ++ "%) out of "
        ++ Figures.plain albumTotal ++ " items collected"
      standing := config.thresholds.book.standing highlighted player.book }
    achievements := {
      fraction := fraction player.achievements achievementTotal
      caption := Figures.plain player.achievements ++ " out of "
        ++ Figures.plain achievementTotal ++ " achievements collected" }
    rankings := [
      ⟨"Player", player.rankings.playerRank, player.rankings.playerHonor⟩,
      ⟨"Fortress", player.rankings.fortressRank, player.rankings.fortressHonor⟩]
    attributes := [
      field "Strength" player.strength, field "Dexterity" player.dexterity,
      field "Intelligence" player.intelligence, field "Constitution" player.constitution,
      field "Luck" player.luck, field "Armor" player.armor]
    fortress := [
      field "Upgrades" player.fortress.upgrades, field "Wall" player.fortress.wall,
      field "Warriors" player.fortress.warriors, field "Archers" player.fortress.archers,
      field "Mages" player.fortress.mages]
    group := player.membership.map (memberGroup config.thresholds) }

end Sheet

end GuildRoster
