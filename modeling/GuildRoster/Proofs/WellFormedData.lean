import GuildRoster.Datum

/-!
# Data that make sense

A datum is well formed if nothing in it stops a reader that passes over it.
-/

set_option autoImplicit false

namespace GuildRoster

/-- The document of the datum makes sense as far as the datum reaches. -/
def Datum.WellFormed (datum : Datum) : Prop := datum.skipFault? = none

/-- A key is a text, or a flaw that can be passed over. -/
def Key.WellFormed (key : Key) : Prop := ∀ flaw, key = .error flaw → flaw.skipping = none

theorem Key.wellFormed_ok (name : String) : Key.WellFormed (.ok name) := by
  intro flaw same
  cases same

theorem skipItemsFault?_eq_none_iff {items : List Datum} :
    skipItemsFault? items = none ↔ ∀ item ∈ items, item.WellFormed := by
  induction items with
  | nil => simp [skipItemsFault?]
  | cons item items ih => simp [skipItemsFault?, Datum.WellFormed, ih]

theorem skipMembersFault?_eq_none_iff {members : List (Key × Datum)} :
    skipMembersFault? members = none ↔
      ∀ entry ∈ members, Key.WellFormed entry.1 ∧ entry.2.WellFormed := by
  induction members with
  | nil => simp [skipMembersFault?]
  | cons entry members ih =>
    obtain ⟨key, datum⟩ := entry
    cases key with
    | ok name => simp [skipMembersFault?, Datum.WellFormed, Key.WellFormed, ih]
    | error flaw => simp [skipMembersFault?, Datum.WellFormed, Key.WellFormed, ih, and_assoc]

namespace Datum

theorem wellFormed_list_iff {items : List Datum} {ending : Option Flaw} :
    (list items ending).WellFormed ↔
      (∀ item ∈ items, item.WellFormed) ∧ endingFault? ending = none := by
  simp [WellFormed, skipFault?, skipItemsFault?_eq_none_iff]

theorem wellFormed_record_iff {members : List (Key × Datum)} {ending : Option Flaw} :
    (record members ending).WellFormed ↔
      (∀ entry ∈ members, Key.WellFormed entry.1 ∧ entry.2.WellFormed) ∧
        endingFault? ending = none := by
  simp [WellFormed, skipFault?, skipMembersFault?_eq_none_iff]

end Datum

end GuildRoster
