import GuildRoster.Player
import GuildRoster.World

/-!
# Sources of rosters

A source names rosters by keys. What it answers may depend on the files there are, and it may have
something to log about how it came to its answer. A key without a roster has an empty one.
-/

set_option autoImplicit false

namespace GuildRoster

/-- A source of rosters: its keys in ascending order, and the roster of each key. Both come with
the entries to log about them. -/
structure Source where
  keys : FileTree → List String × List LogEntry
  roster : String → FileTree → Roster × List LogEntry

namespace Source

def sortKeys (keys : List String) : List String :=
  keys.mergeSort fun left right => decide (left ≤ right)

/-- The source of given rosters. The first of several rosters under one key counts. -/
def ofRosters (rosters : List (String × Roster)) : Source where
  keys _ := (sortKeys (rosters.map (·.1)).eraseDups, [])
  roster key _ := ((rosters.lookup key).getD [], [])

def askKeys (source : Source) : Run (List String) := do
  let (keys, entries) := source.keys (← get).files
  Run.recordAll entries
  return keys

def askRoster (source : Source) (key : String) : Run Roster := do
  let (roster, entries) := source.roster key (← get).files
  Run.recordAll entries
  return roster

end Source

end GuildRoster
