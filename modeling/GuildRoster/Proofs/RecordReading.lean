import GuildRoster.Proofs.MemberOrder
import GuildRoster.Roster

/-!
# Reading complete records

A record written with all its fields in their own order reads as those fields entered one after the
other. Single data written by their own writers read back.
-/

set_option autoImplicit false

namespace GuildRoster

namespace RecordFormat

variable {α : Type}

/-- Data that stand for fields in their order, with the values of the record before the first and
after the last of them is entered. -/
inductive Fills : List (Field α) → List (String × Datum) → α → α → Prop where
  | nil {value : α} : Fills [] [] value value
  | cons {field : Field α} {fields : List (Field α)} {datum : Datum}
      {members : List (String × Datum)} {before between after : α}
      (read : field.read datum before = .ok between) (others : Fills fields members between after) :
      Fills (field :: fields) ((field.name, datum) :: members) before after

theorem Fills.optional {β : Type} {name : String} {read : Datum → Except ReadError β}
    {enter : β → α → α} {datum : Datum} {content : β} (found : read datum = .ok content)
    {fields : List (Field α)} {members : List (String × Datum)} {before after : α}
    (others : Fills fields members (enter content before) after) :
    Fills (.optional name read enter :: fields) ((name, datum) :: members) before after := by
  have entered : (Field.optional name read enter).read datum before
      = .ok (enter content before) := by
    simp only [Field.optional, found]
    rfl
  exact .cons entered others

theorem Fills.mandatory {β : Type} {name : String} {read : Datum → Except ReadError β}
    {enter : β → α → α} {datum : Datum} {content : β} (found : read datum = .ok content)
    {fields : List (Field α)} {members : List (String × Datum)} {before after : α}
    (others : Fills fields members (enter content before) after) :
    Fills (.mandatory name read enter :: fields) ((name, datum) :: members) before after := by
  have entered : (Field.mandatory name read enter).read datum before
      = .ok (enter content before) := by
    simp only [Field.mandatory, found]
    rfl
  exact .cons entered others

theorem Fills.names {fields : List (Field α)} {members : List (String × Datum)} {before after : α}
    (fills : Fills fields members before after) : members.map (·.1) = fields.map (·.name) := by
  induction fills with
  | nil => rfl
  | cons _ _ ih => rw [List.map_cons, List.map_cons, ih]

theorem Fills.enters {format : RecordFormat α} {fields : List (Field α)}
    {members : List (String × Datum)} {before after : α}
    (fills : Fills fields members before after) (known : ∀ field ∈ fields, field ∈ format.fields) :
    format.Enters (members.map fun entry => (.ok entry.1, entry.2)) before after := by
  induction fills with
  | nil => exact .nil
  | cons read _ ih =>
    obtain ⟨first, others⟩ := List.forall_mem_cons.1 known
    exact .field first read (ih others)

/-- A record that gives every field reads as its fields. -/
theorem read_of_fills {format : RecordFormat α} (distinct : (format.fields.map (·.name)).Nodup)
    {members : List (String × Datum)} {value : α}
    (fills : Fills format.fields members format.blank value) (surplus : Surplus) :
    format.read surplus (.ofMembers members) = .ok value := by
  have names : members.map (·.1) = format.names := fills.names
  refine (read_record_iff distinct).2 ⟨rfl, ⟨?keys, ?unseen, ?once⟩, ?entered, ?complete⟩
  case keys =>
    intro entry member
    obtain ⟨given, among, rfl⟩ := List.mem_map.1 member
    refine ⟨given.1, rfl, fun unknown => absurd ?_ unknown⟩
    exact names ▸ List.mem_map_of_mem among
  case unseen => exact fun _ _ _ _ seen => nomatch seen
  case once =>
    have apart : members.Pairwise fun entry other => entry.1 ≠ other.1 :=
      List.pairwise_map.1 (names ▸ distinct)
    refine List.pairwise_map.2 (apart.imp fun different => ?_)
    intro name _ same again
    exact different (Except.ok.inj (same.trans again.symm))
  case entered => exact fills.enters fun _ member => member
  case complete =>
    intro field member _
    have given : field.name ∈ members.map (·.1) := names ▸ List.mem_map_of_mem member
    obtain ⟨entry, among, same⟩ := List.mem_map.1 given
    exact ⟨entry.2, List.mem_map.2 ⟨entry, among, by rw [same]⟩⟩

end RecordFormat

/-! ## Single data -/

namespace Datum

theorem readSigned64_ofSigned64 (number : Int64) :
    readSigned64 (.ofSigned64 number) = .ok number := by
  rw [ofSigned64, readSigned64, if_pos (toInt_inRange number), Int64.ofInt_toInt]

theorem readByte_ofByte (number : UInt8) :
    readByte (.ofByte number) = .ok number := by
  have most := number.toNat_lt
  rw [ofByte, readByte, if_pos (by omega), Int.toNat_natCast, UInt8.ofNat_toNat]

theorem readOptional_ofOptional {α : Type} {read : Datum → Except ReadError α}
    {datum : α → Datum} {content : Option α}
    (readable : ∀ value, datum value ≠ .null ∧ read (datum value) = .ok value) :
    readOptional read (.ofOptional datum content) = .ok content := by
  cases content with
  | none => rfl
  | some value =>
    obtain ⟨notNull, found⟩ := readable value
    rw [ofOptional, readOptional]
    · rw [found]
      rfl
    · exact notNull

theorem readItems_map {α : Type} {read : Datum → Except ReadError α} {datum : α → Datum}
    (readable : ∀ value, read (datum value) = .ok value) (values : List α) :
    readItems read none (values.map datum) = .ok values := by
  induction values with
  | nil => rfl
  | cons value values ih => simp only [List.map_cons, readItems, readable, ih]

end Datum

end GuildRoster
