/-!
# Players

A player is a snapshot of one character at one moment. Guild figures exist only for players who
hold a guild role.
-/

set_option autoImplicit false

namespace GuildRoster

inductive GuildRole where
  | leader
  | officer
  | member
  | invited
  deriving DecidableEq, Repr

def GuildRole.index : GuildRole → UInt8
  | .leader => 1
  | .officer => 2
  | .member => 3
  | .invited => 4

def GuildRole.ofIndex? (index : UInt8) : Option GuildRole :=
  if index = 1 then some .leader
  else if index = 2 then some .officer
  else if index = 3 then some .member
  else if index = 4 then some .invited
  else none

def GuildRole.label : GuildRole → String
  | .leader => "Leader"
  | .officer => "Officer"
  | .member => "Member"
  | .invited => "Invited"

@[simp] theorem GuildRole.ofIndex?_index (role : GuildRole) :
    GuildRole.ofIndex? role.index = some role := by
  cases role <;> decide

structure Membership where
  role : GuildRole
  treasure : Int64 := 0
  instructor : Int64 := 0
  pet : Int64 := 0
  knights : Int64 := 0
  deriving DecidableEq, Repr

/-- One potion slot. A slot without remaining duration is empty. -/
structure PotionSlot where
  kind : UInt8 := 0
  duration : Int64 := 0
  deriving DecidableEq, Repr

def PotionSlot.isActive (slot : PotionSlot) : Bool := slot.duration != 0

structure PotionBelt where
  first : PotionSlot := {}
  second : PotionSlot := {}
  third : PotionSlot := {}
  deriving DecidableEq, Repr

def PotionBelt.toList (belt : PotionBelt) : List PotionSlot :=
  [belt.first, belt.second, belt.third]

structure Rankings where
  playerRank : Int64 := 0
  playerHonor : Int64 := 0
  fortressRank : Int64 := 0
  fortressHonor : Int64 := 0
  deriving DecidableEq, Repr

structure Fortress where
  wall : Int64 := 0
  warriors : Int64 := 0
  archers : Int64 := 0
  mages : Int64 := 0
  upgrades : Int64 := 0
  deriving DecidableEq, Repr

/-- A player as a roster records it. -/
structure Player where
  name : String := ""
  guild : Option String := none
  membership : Option Membership := none
  level : Int64 := 0
  xp : Int64 := 0
  xpNext : Int64 := 0
  book : Int64 := 0
  achievements : Int64 := 0
  mount : Int64 := 0
  characterClass : UInt8 := 0
  race : UInt8 := 0
  sex : UInt8 := 0
  strength : Int64 := 0
  dexterity : Int64 := 0
  intelligence : Int64 := 0
  constitution : Int64 := 0
  luck : Int64 := 0
  armor : Int64 := 0
  gearScore : Int64 := 0
  potions : PotionBelt := {}
  rankings : Rankings := {}
  fortress : Fortress := {}
  deriving DecidableEq, Repr

abbrev Roster := List Player

namespace Player

def isMember (player : Player) : Bool := player.membership.isSome

def role? (player : Player) : Option GuildRole := player.membership.map (·.role)

def activePotions (player : Player) : List PotionSlot :=
  player.potions.toList.filter (·.isActive)

end Player

def Roster.findByName? (roster : Roster) (name : String) : Option Player :=
  roster.find? (·.name == name)

end GuildRoster
