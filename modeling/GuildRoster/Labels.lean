/-!
# Labels

Names for the small indices that players carry. Index zero stands for nothing recorded; an index
beyond a table is unknown.
-/

set_option autoImplicit false

namespace GuildRoster.Labels

def classes : List String :=
  ["", "Warrior", "Mage", "Scout", "Assassin", "Battle Mage", "Berserker", "Demon Hunter", "Druid"]

def races : List String :=
  ["", "Human", "Elf", "Dwarf", "Gnome", "Orc", "Dark Elf", "Goblin", "Demon"]

def sexes : List String := ["", "Male", "Female"]

def potions : List String :=
  ["", "Strength", "Dexterity", "Intelligence", "Constitution", "Luck", "Eternal Life"]

def lookUp (table : List String) (index : UInt8) : String :=
  (table[index.toNat]?).getD "Unknown"

def className (index : UInt8) : String := lookUp classes index

def raceName (index : UInt8) : String := lookUp races index

def sexName (index : UInt8) : String := lookUp sexes index

def potionName (index : UInt8) : String := lookUp potions index

end GuildRoster.Labels
