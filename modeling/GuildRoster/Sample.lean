import GuildRoster.Fault
import GuildRoster.Figures
import GuildRoster.Player

/-!
# Sample rosters

Rosters to try the program with. Every figure of a sample player follows from one seed, so the same
sample always looks the same; a seed too large for the figures is a fault.
-/

set_option autoImplicit false

namespace GuildRoster.Sample

def names : List String :=
  ["Aldric", "Brynja", "Cassius", "Dagny", "Eldrin", "Freya", "Gorm", "Hilde", "Ivar", "Jorunn",
    "Kael", "Liv"]

/-- The remainder of a division that drops the fraction; it has the sign of the dividend. -/
def remainder (dividend : Int64) (divisor : Int) : Int64 :=
  Int64.ofInt (Int.tmod dividend.toInt divisor)

def lowByte (number : Int64) : UInt8 := UInt8.ofNat (number.toInt % 256).toNat

def grown (base : Int64) (seed factor : Int64) : Except Fault Int64 := do
  exactSum base (← exactProduct seed factor)

def wrapped (base : Int64) (seed factor : Int64) (modulus : Int) : Except Fault Int64 := do
  exactSum base (remainder (← exactProduct seed factor) modulus)

def shrunk (base : Int64) (seed factor : Int64) : Except Fault Int64 := do
  exactDifference base (← exactProduct seed factor)

/-- The potions of a sample player: the first `seed % 4` slots are in use. There is no such number
of slots for some negative seeds. -/
def potions (seed : Int64) : Except Fault PotionBelt :=
  let strength : PotionSlot := { kind := 1, duration := 25 }
  let constitution : PotionSlot := { kind := 4, duration := 15 }
  let eternalLife : PotionSlot := { kind := 6, duration := 3 }
  match (remainder seed 4).toInt with
  | 0 => .ok {}
  | 1 => .ok { first := strength }
  | 2 => .ok { first := strength, second := constitution }
  | 3 => .ok { first := strength, second := constitution, third := eternalLife }
  | _ => .error .outOfBounds

def role (seed : Int64) : GuildRole :=
  match (remainder seed 10).toInt with
  | 0 => .leader
  | 1 => .officer
  | 2 => .officer
  | _ => .member

def membership (seed : Int64) : Except Fault Membership := do
  let treasure ← exactSum 50 (remainder seed 150)
  let instructor ← exactSum 40 (remainder seed 160)
  let pet ← wrapped 20 seed 13 400
  return { role := role seed, treasure, instructor, pet, knights := remainder seed 21 }

def player (name : String) (seed : Int64) (member : Bool) : Except Fault Player := do
  let level ← wrapped 100 seed 7 300
  let guildFigures ← if member then some <$> membership seed else pure none
  let xp ← grown 1000000 seed 12345
  let book ← wrapped 0 seed 97 2160
  let achievements ← wrapped 0 seed 3 71
  let characterClass ← exactSum (remainder seed 8) 1
  let sex ← exactSum (remainder seed 2) 1
  let strength ← grown 1000 seed 41
  let dexterity ← grown 800 seed 37
  let intelligence ← grown 600 seed 29
  let constitution ← grown 1200 seed 53
  let luck ← grown 500 seed 17
  let armor ← grown 3000 seed 11
  let gearScore ← wrapped 1500 seed 23 900
  let belt ← potions seed
  let playerRank ← grown 1000 seed 31
  let playerHonor ← shrunk 9000 seed 5
  let fortressRank ← grown 2000 seed 19
  let fortressHonor ← shrunk 4000 seed 3
  return {
    name
    guild := if member then some "Iron Wolves" else none
    membership := guildFigures
    level, xp
    xpNext := 5000000
    book, achievements
    mount := remainder seed 5
    characterClass := lowByte characterClass
    race := lowByte characterClass
    sex := lowByte sex
    strength, dexterity, intelligence, constitution, luck, armor, gearScore
    potions := belt
    rankings := { playerRank, playerHonor, fortressRank, fortressHonor }
    fortress := {
      wall := remainder seed 16
      warriors := remainder seed 13
      archers := remainder seed 11
      mages := remainder seed 9
      upgrades := remainder seed 20 } }

/-- The name of the sample player at a position: the names in turn, from the second round on with
the number of the round. -/
def nameAt (position : Nat) : String :=
  let name := (names[position % names.length]?).getD ""
  if position < names.length then name else name ++ toString (position / names.length)

def roster (count members : Nat) : Except Fault Roster :=
  (List.range count).mapM fun position =>
    player (nameAt position) (Int64.ofNat (position + 1)) (position < members)

/-- A sample player some time later. Players at even positions gain a level and some gear, those at
every third position a knight. -/
def progressedPlayer (position : Nat) (before : Player) : Except Fault Player := do
  let level ← if position % 2 = 0 then exactSum before.level 1 else pure before.level
  let gearScore ← if position % 2 = 0 then exactSum before.gearScore 12 else pure before.gearScore
  let book ← exactSum before.book 9
  let guildFigures ← match before.membership with
    | some figures => do
      let pet ← exactSum figures.pet 3
      let knights ← if position % 3 = 0 then exactSum figures.knights 1 else pure figures.knights
      pure (some { figures with pet, knights })
    | none => pure none
  return { before with
    level, gearScore
    book := if albumTotal < book then albumTotal else book
    membership := guildFigures }

def progressedRoster (before : Roster) : Except Fault Roster :=
  before.zipIdx.mapM fun entry => progressedPlayer entry.2 entry.1

/-- The named rosters of the program's own samples. None of their seeds is too large, so a fault
leaves nothing out. -/
def rosters : List (String × Roster) :=
  match (do
    let week1 ← roster 40 30
    let week2 ← progressedRoster week1
    let hall ← roster 120 0
    return [("guild_week1", week1), ("guild_week2", week2), ("hall_of_fame", hall)]
      : Except Fault (List (String × Roster))) with
  | .ok named => named
  | .error _ => []

end GuildRoster.Sample
