import GuildRoster.Datum.Reading
import GuildRoster.Json.Reader
import GuildRoster.Json.Writer
import GuildRoster.Player

/-!
# Roster documents

A roster is kept as a JSON list of players. Reading fills in what a player leaves out; writing
leaves nothing out.
-/

set_option autoImplicit false

namespace GuildRoster

/-! ## Reading -/

def GuildRole.read (datum : Datum) : Except ReadError GuildRole := do
  let index ← datum.readByte
  match GuildRole.ofIndex? index with
  | some role => return role
  | none => .error (.mismatch (.unknownRole index))

/-- The form of guild figures. The role is the one figure without a default. -/
def Membership.format : RecordFormat Membership where
  name := "GuildMembership"
  blank := { role := .member }
  fields := [
    .mandatory "role" GuildRole.read fun role figures => { figures with role },
    .optional "treasure" Datum.readSigned64 fun treasure figures => { figures with treasure },
    .optional "instructor" Datum.readSigned64 fun instructor figures => { figures with instructor },
    .optional "pet" Datum.readSigned64 fun pet figures => { figures with pet },
    .optional "knights" Datum.readSigned64 fun knights figures => { figures with knights }]

def PotionSlot.format : RecordFormat PotionSlot where
  name := "PotionSlot"
  blank := {}
  fields := [
    .mandatory "kind" Datum.readByte fun kind slot => { slot with kind },
    .mandatory "duration" Datum.readSigned64 fun duration slot => { slot with duration }]

def PotionBelt.read (surplus : Surplus) (datum : Datum) : Except ReadError PotionBelt := do
  let (first, second, third) ← datum.readTriple surplus (PotionSlot.format.read surplus)
  return { first, second, third }

def Rankings.format : RecordFormat Rankings where
  name := "Rankings"
  blank := {}
  fields := [
    .optional "player_rank" Datum.readSigned64 fun playerRank value => { value with playerRank },
    .optional "player_honor" Datum.readSigned64 fun playerHonor value => { value with playerHonor },
    .optional "fortress_rank" Datum.readSigned64
      fun fortressRank value => { value with fortressRank },
    .optional "fortress_honor" Datum.readSigned64
      fun fortressHonor value => { value with fortressHonor }]

def Fortress.format : RecordFormat Fortress where
  name := "Fortress"
  blank := {}
  fields := [
    .optional "wall" Datum.readSigned64 fun wall value => { value with wall },
    .optional "warriors" Datum.readSigned64 fun warriors value => { value with warriors },
    .optional "archers" Datum.readSigned64 fun archers value => { value with archers },
    .optional "mages" Datum.readSigned64 fun mages value => { value with mages },
    .optional "upgrades" Datum.readSigned64 fun upgrades value => { value with upgrades }]

/-- The form of a player. Every field may be left out; guild and guild figures may also be null. -/
def Player.format (surplus : Surplus) : RecordFormat Player where
  name := "Player"
  blank := {}
  fields := [
    .optional "name" (Datum.readText .string) fun name player => { player with name },
    .optional "guild" (Datum.readOptional (Datum.readText .string))
      fun guild player => { player with guild },
    .optional "membership" (Datum.readOptional (Membership.format.read surplus))
      fun membership player => { player with membership },
    .optional "level" Datum.readSigned64 fun level player => { player with level },
    .optional "xp" Datum.readSigned64 fun xp player => { player with xp },
    .optional "xp_next" Datum.readSigned64 fun xpNext player => { player with xpNext },
    .optional "book" Datum.readSigned64 fun book player => { player with book },
    .optional "achievements" Datum.readSigned64
      fun achievements player => { player with achievements },
    .optional "mount" Datum.readSigned64 fun mount player => { player with mount },
    .optional "class" Datum.readByte fun characterClass player => { player with characterClass },
    .optional "race" Datum.readByte fun race player => { player with race },
    .optional "sex" Datum.readByte fun sex player => { player with sex },
    .optional "strength" Datum.readSigned64 fun strength player => { player with strength },
    .optional "dexterity" Datum.readSigned64 fun dexterity player => { player with dexterity },
    .optional "intelligence" Datum.readSigned64
      fun intelligence player => { player with intelligence },
    .optional "constitution" Datum.readSigned64
      fun constitution player => { player with constitution },
    .optional "luck" Datum.readSigned64 fun luck player => { player with luck },
    .optional "armor" Datum.readSigned64 fun armor player => { player with armor },
    .optional "gear_score" Datum.readSigned64 fun gearScore player => { player with gearScore },
    .optional "potions" (PotionBelt.read surplus) fun potions player => { player with potions },
    .optional "rankings" (Rankings.format.read surplus)
      fun rankings player => { player with rankings },
    .optional "fortress" (Fortress.format.read surplus)
      fun fortress player => { player with fortress }]

def Player.read (surplus : Surplus) (datum : Datum) : Except ReadError Player :=
  (Player.format surplus).read surplus datum

/-- The roster that a document holds. Nothing may follow its list of players. -/
def Roster.read (document : String) : Except ReadError Roster := do
  let (datum, trailing) := Json.read document
  let roster ← datum.readList (Player.read .trailing)
  if trailing then .error (.document .trailingText) else return roster

/-! ## Writing -/

def Datum.ofMembers (members : List (String × Datum)) : Datum :=
  .record (members.map fun entry => (.ok entry.1, entry.2)) none

def Datum.ofSigned64 (number : Int64) : Datum := .integer number.toInt

def Datum.ofByte (number : UInt8) : Datum := .integer number.toNat

def Datum.ofOptional {α : Type} (datum : α → Datum) : Option α → Datum
  | some value => datum value
  | none => .null

def Membership.datum (figures : Membership) : Datum :=
  .ofMembers [("role", .ofByte figures.role.index), ("treasure", .ofSigned64 figures.treasure),
    ("instructor", .ofSigned64 figures.instructor), ("pet", .ofSigned64 figures.pet),
    ("knights", .ofSigned64 figures.knights)]

def PotionSlot.datum (slot : PotionSlot) : Datum :=
  .ofMembers [("kind", .ofByte slot.kind), ("duration", .ofSigned64 slot.duration)]

def Rankings.datum (rankings : Rankings) : Datum :=
  .ofMembers [("player_rank", .ofSigned64 rankings.playerRank),
    ("player_honor", .ofSigned64 rankings.playerHonor),
    ("fortress_rank", .ofSigned64 rankings.fortressRank),
    ("fortress_honor", .ofSigned64 rankings.fortressHonor)]

def Fortress.datum (fortress : Fortress) : Datum :=
  .ofMembers [("wall", .ofSigned64 fortress.wall), ("warriors", .ofSigned64 fortress.warriors),
    ("archers", .ofSigned64 fortress.archers), ("mages", .ofSigned64 fortress.mages),
    ("upgrades", .ofSigned64 fortress.upgrades)]

def Player.datum (player : Player) : Datum :=
  .ofMembers [("name", .text player.name), ("guild", .ofOptional .text player.guild),
    ("membership", .ofOptional Membership.datum player.membership),
    ("level", .ofSigned64 player.level), ("xp", .ofSigned64 player.xp),
    ("xp_next", .ofSigned64 player.xpNext), ("book", .ofSigned64 player.book),
    ("achievements", .ofSigned64 player.achievements), ("mount", .ofSigned64 player.mount),
    ("class", .ofByte player.characterClass), ("race", .ofByte player.race),
    ("sex", .ofByte player.sex), ("strength", .ofSigned64 player.strength),
    ("dexterity", .ofSigned64 player.dexterity), ("intelligence", .ofSigned64 player.intelligence),
    ("constitution", .ofSigned64 player.constitution), ("luck", .ofSigned64 player.luck),
    ("armor", .ofSigned64 player.armor), ("gear_score", .ofSigned64 player.gearScore),
    ("potions", .list (player.potions.toList.map PotionSlot.datum) none),
    ("rankings", player.rankings.datum), ("fortress", player.fortress.datum)]

def Roster.write (roster : Roster) : String :=
  Json.write (.list (roster.map Player.datum) none)

end GuildRoster
