import GuildRoster.Datum

/-!
# Tables of TOML

Tables while a document is read. A table comes into being as a step on the way to another, by keys
with dots, or by a heading of its own, and only in some of these cases more can be put into it
later. Entries keep the order in which they were made.
-/

set_option autoImplicit false

namespace GuildRoster.Toml

/-- How a table came into being. -/
inductive Origin where
  /-- As a step on the way to the table of a heading. -/
  | passage
  /-- As a step on the way to the value of a key with dots. -/
  | dotted
  /-- By a heading of its own. -/
  | heading
  deriving DecidableEq

inductive Entry where
  | value (datum : Datum)
  | table (origin : Origin) (entries : List (String × Entry))
  | tables (elements : List (List (String × Entry)))

abbrev Entries := List (String × Entry)

namespace Entries

def replace (entries : Entries) (key : String) (entry : Entry) : Entries :=
  entries.map fun other => if other.1 = key then (key, entry) else other

def remove (entries : Entries) (key : String) : Entries :=
  entries.filter fun other => other.1 != key

/-- Enters a value under a key with dots. A key is given once, and keys with dots lead neither
through finished values nor into tables that have headings. -/
def enter (value : Datum) : List String → Entries → Option Entries
  | [], _ => none
  | [key], entries =>
    match entries.lookup key with
    | some _ => none
    | none => some (entries ++ [(key, .value value)])
  | first :: next :: keys, entries =>
    match entries.lookup first with
    | none => do return entries ++ [(first, .table .dotted (← enter value (next :: keys) []))]
    | some (.table origin inner) =>
      if origin = .heading ∨ (keys = [] ∧ origin ≠ .dotted) then none
      else do return entries.replace first (.table origin (← enter value (next :: keys) inner))
    | some (.tables elements) =>
      match elements.reverse with
      | [] => none
      | last :: before =>
        if keys = [] then none
        else do
          let changed ← enter value (next :: keys) last
          return entries.replace first (.tables (changed :: before).reverse)
    | some (.value _) => none

/-- Changes the entries of the table that a path leads to and makes the tables that are missing on
the way. Of repeated tables the path leads through the last one. -/
def change {α : Type} (act : Entries → Option (Entries × α)) :
    List String → Entries → Option (Entries × α)
  | [], entries => act entries
  | key :: path, entries =>
    match entries.lookup key with
    | none => do
      let (inner, result) ← change act path []
      return (entries ++ [(key, .table .passage inner)], result)
    | some (.table origin inner) => do
      let (changed, result) ← change act path inner
      return (entries.replace key (.table origin changed), result)
    | some (.tables elements) =>
      match elements.reverse with
      | [] => none
      | last :: before => do
        let (changed, result) ← change act path last
        return (entries.replace key (.tables (changed :: before).reverse), result)
    | some (.value _) => none

end Entries

mutual

def Entry.datum : Entry → Datum
  | .value datum => datum
  | .table _ entries => .record (membersOf entries) none
  | .tables elements => .list (recordsOf elements) none

def membersOf : List (String × Entry) → List (Key × Datum)
  | [] => []
  | (key, entry) :: entries => (.ok key, entry.datum) :: membersOf entries

def recordsOf : List (List (String × Entry)) → List Datum
  | [] => []
  | entries :: elements => .record (membersOf entries) none :: recordsOf elements

end

/-- A document while it is read: the finished tables, and the table whose keys are being read with
its path. `repeated` tells that its heading has double brackets. -/
structure Draft where
  finished : Entries := []
  path : List String := []
  repeated : Bool := false
  current : Entries := []

namespace Draft

def finish (draft : Draft) : Option Entries :=
  match draft.path.reverse with
  | [] => some draft.current
  | key :: parents => do
    let (entries, _) ← Entries.change (fun entries =>
      match entries.lookup key with
      | none =>
        let entry := if draft.repeated then .tables [draft.current]
          else .table .heading draft.current
        some (entries ++ [(key, entry)], ())
      | some (.tables elements) =>
        if draft.repeated then
          some (entries.replace key (.tables (elements ++ [draft.current])), ())
        else none
      | some _ => none) parents.reverse draft.finished
    return entries

/-- Starts the table of a heading. A table has one heading; what was put into it on the way to
other tables stays, and it counts as made only now. -/
def openTable (draft : Draft) (path : List String) : Option Draft := do
  let finished ← draft.finish
  match path.reverse with
  | [] => none
  | key :: parents =>
    let (finished, current) ← Entries.change (fun entries =>
      match entries.lookup key with
      | none => some (entries, [])
      | some (.table .passage inner) => some (entries.remove key, inner)
      | some _ => none) parents.reverse finished
    return { finished, path, repeated := false, current }

def openElement (draft : Draft) (path : List String) : Option Draft := do
  let finished ← draft.finish
  match path.reverse with
  | [] => none
  | key :: parents =>
    let (finished, _) ← Entries.change (fun entries =>
      match entries.lookup key with
      | none => some (entries ++ [(key, .tables [])], ())
      | some (.tables _) => some (entries, ())
      | some _ => none) parents.reverse finished
    return { finished, path, repeated := true, current := [] }

def enter (draft : Draft) (keys : List String) (value : Datum) : Option Draft := do
  return { draft with current := ← Entries.enter value keys draft.current }

end Draft

end GuildRoster.Toml
