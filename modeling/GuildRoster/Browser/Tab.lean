/-!
# Tabs

The two tabs of the browser, numbered from one.
-/

set_option autoImplicit false

namespace GuildRoster

inductive Tab where
  | rosters
  | browse
  deriving DecidableEq, Repr

namespace Tab

def all : List Tab := [rosters, browse]

def label : Tab → String
  | rosters => "Rosters"
  | browse => "Browse players"

def number : Tab → Nat
  | rosters => 1
  | browse => 2

def ofNumber? (number : Nat) : Option Tab :=
  if number = 1 then some rosters else if number = 2 then some browse else none

def next : Tab → Tab
  | rosters => browse
  | browse => rosters

def previous : Tab → Tab
  | rosters => browse
  | browse => rosters

@[simp] theorem ofNumber?_number (tab : Tab) : ofNumber? tab.number = some tab := by
  cases tab <;> rfl

end Tab

end GuildRoster
