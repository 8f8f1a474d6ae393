import GuildRoster.Datum.Reading
import Mathlib.Data.List.Forall2
import Mathlib.Data.List.Nodup

/-!
# The data of records

Which data read as a record, told by the data that they give for its fields. A reader that passes
over surplus elements accepts just the data that have the form of the record, give every required
field, and give no field a datum that cannot be read; an error that is not about the form comes from
the datum of a field.
-/

set_option autoImplicit false

namespace GuildRoster

/-! ## What data give -/

/-- Whether the members of a record can stand one after the other when some names were read before:
their keys are texts, no name occurs again, and others than the names can be passed over. -/
structure SoundMembers (names seen : List String) (members : List (Key × Datum)) : Prop where
  keys : ∀ entry ∈ members, ∃ name, entry.1 = .ok name ∧
    (name ∉ names → entry.2.skipFault? = none)
  unseen : ∀ entry ∈ members, ∀ name ∈ names, name ∈ seen → entry.1 ≠ .ok name
  distinct : members.Pairwise fun entry other => ∀ name ∈ names, entry.1 = .ok name →
    other.1 ≠ .ok name

namespace SoundMembers

variable {names seen : List String} {name : String} {datum : Datum} {members : List (Key × Datum)}

theorem nil : SoundMembers names seen [] := ⟨by simp, by simp, .nil⟩

theorem known_iff (known : name ∈ names) :
    SoundMembers names seen ((.ok name, datum) :: members) ↔
      name ∉ seen ∧ SoundMembers names (name :: seen) members := by
  constructor
  · rintro ⟨keys, unseen, distinct⟩
    obtain ⟨first, others⟩ := List.pairwise_cons.1 distinct
    refine ⟨fun again => unseen _ List.mem_cons_self name known again rfl, ?_, ?_, others⟩
    · exact fun entry member => keys entry (List.mem_cons_of_mem _ member)
    · intro entry member other among again
      rcases List.mem_cons.1 again with rfl | earlier
      · exact first entry member other among rfl
      · exact unseen entry (List.mem_cons_of_mem _ member) other among earlier
  · rintro ⟨new, keys, unseen, distinct⟩
    refine ⟨?_, ?_, List.pairwise_cons.2 ⟨?_, distinct⟩⟩
    · intro entry member
      rcases List.mem_cons.1 member with rfl | later
      · exact ⟨name, rfl, fun unknown => absurd known unknown⟩
      · exact keys entry later
    · intro entry member other among earlier
      rcases List.mem_cons.1 member with rfl | later
      · intro same
        cases same
        exact new earlier
      · exact unseen entry later other among (List.mem_cons_of_mem _ earlier)
    · intro entry later other among same
      cases same
      exact unseen entry later name known List.mem_cons_self

theorem unknown_iff (unknown : name ∉ names) :
    SoundMembers names seen ((.ok name, datum) :: members) ↔
      datum.skipFault? = none ∧ SoundMembers names seen members := by
  constructor
  · rintro ⟨keys, unseen, distinct⟩
    obtain ⟨again, same, skips⟩ := keys _ List.mem_cons_self
    cases same
    refine ⟨skips unknown, ?_, ?_, (List.pairwise_cons.1 distinct).2⟩
    · exact fun entry member => keys entry (List.mem_cons_of_mem _ member)
    · exact fun entry member => unseen entry (List.mem_cons_of_mem _ member)
  · rintro ⟨skips, keys, unseen, distinct⟩
    refine ⟨?_, ?_, List.pairwise_cons.2 ⟨?_, distinct⟩⟩
    · intro entry member
      rcases List.mem_cons.1 member with rfl | later
      · exact ⟨name, rfl, fun _ => skips⟩
      · exact keys entry later
    · intro entry member other among earlier
      rcases List.mem_cons.1 member with rfl | later
      · intro same
        cases same
        exact unknown among
      · exact unseen entry later other among earlier
    · intro entry later other among same
      cases same
      exact absurd among unknown

theorem not_flaw {flaw : Flaw} : ¬ SoundMembers names seen ((.error flaw, datum) :: members) := by
  intro sound
  obtain ⟨_, same, _⟩ := sound.keys _ List.mem_cons_self
  cases same

end SoundMembers

namespace Datum

/-- Whether a datum has the form of a record with some names, whatever it gives for them. A list has
more elements than there are names, or ends where its document says. -/
def IsRecord (names : List String) : Datum → Prop
  | record members ending => SoundMembers names [] members ∧ ending = none
  | list items ending => names.length < items.length ∨ ending = none
  | _ => False

/-- A datum gives another one for one of some names: as a member, or as the element in its place. -/
def Gives (names : List String) (name : String) (datum found : Datum) : Prop :=
  match datum with
  | record members _ => name ∈ names ∧ (.ok name, found) ∈ members
  | list items _ => ∃ position : Nat, names[position]? = some name ∧ items[position]? = some found
  | _ => False

theorem refuse_eq_error {β : Type} (datum : Datum) (expected : Expectation) :
    ∃ error : ReadError, datum.refuse expected = (.error error : Except ReadError β) ∧
      ∀ fault, error ≠ .fault fault := by
  cases datum <;> exact ⟨_, rfl, by simp⟩

end Datum

/-! ## Reading -/

namespace RecordFormat

variable {α : Type} {format : RecordFormat α}

/-- The names of the fields. -/
def names (format : RecordFormat α) : List String := format.fields.map (·.name)

theorem find?_eq_none_iff {name : String} :
    format.fields.find? (·.name == name) = none ↔ name ∉ format.names := by
  simp [names]

theorem of_find? {name : String} {field : Field α}
    (found : format.fields.find? (·.name == name) = some field) :
    field ∈ format.fields ∧ field.name = name ∧ name ∈ format.names := by
  have member := List.mem_of_find?_eq_some found
  have same : field.name = name := by simpa using List.find?_some found
  exact ⟨member, same, same ▸ List.mem_map_of_mem member⟩

/-- Where the reading of members stops: at the datum of a field, or at members that cannot stand
there. -/
theorem readMembers_error {members : List (Key × Datum)} {value : α} {seen : List String}
    {error : ReadError} (failed : format.readMembers members value seen = .error error) :
    (∃ field ∈ format.fields, ∃ found before, (.ok field.name, found) ∈ members ∧
      field.read found before = .error error) ∨
    (∀ fault, error ≠ .fault fault) ∧ ¬ SoundMembers format.names seen members := by
  fun_induction readMembers format members value seen with
  | case1 => cases failed
  | case2 flaw datum members value seen =>
    cases failed
    exact .inr ⟨by simp, SoundMembers.not_flaw⟩
  | case3 name datum members value seen absent fault skips =>
    cases failed
    refine .inr ⟨by simp, fun sound => ?_⟩
    rw [SoundMembers.unknown_iff (find?_eq_none_iff.1 absent), skips] at sound
    cases sound.1
  | case4 name datum members value seen absent skips ih =>
    rcases ih failed with ⟨field, member, found, before, given, reading⟩ | ⟨noFault, unsound⟩
    · exact .inl ⟨field, member, found, before, List.mem_cons_of_mem _ given, reading⟩
    · refine .inr ⟨noFault, fun sound => unsound ?_⟩
      exact ((SoundMembers.unknown_iff (find?_eq_none_iff.1 absent)).1 sound).2
  | case5 name datum members value seen field present again =>
    cases failed
    refine .inr ⟨by simp, fun sound => ?_⟩
    exact ((SoundMembers.known_iff (of_find? present).2.2).1 sound).1 (by simpa using again)
  | case6 name datum members value seen field present new error reading =>
    obtain ⟨member, rfl, _⟩ := of_find? present
    cases failed
    exact .inl ⟨field, member, datum, value, List.mem_cons_self, reading⟩
  | case7 name datum members value seen field present new after reading ih =>
    rcases ih failed with ⟨other, member, found, before, given, stopped⟩ | ⟨noFault, unsound⟩
    · exact .inl ⟨other, member, found, before, List.mem_cons_of_mem _ given, stopped⟩
    · refine .inr ⟨noFault, fun sound => unsound ?_⟩
      exact ((SoundMembers.known_iff (of_find? present).2.2).1 sound).2

/-- Members that can be read are sound, and so are the data that they give for fields. -/
theorem readMembers_ok (distinct : format.names.Nodup) {members : List (Key × Datum)} {value : α}
    {seen : List String} {result : α × List String}
    (done : format.readMembers members value seen = .ok result) :
    SoundMembers format.names seen members ∧
    (∀ field ∈ format.fields, ∀ found, (.ok field.name, found) ∈ members →
      ∃ before after, field.read found before = .ok after) ∧
    ∀ name ∈ format.names,
      name ∈ result.2 ↔ name ∈ seen ∨ ∃ found, (.ok name, found) ∈ members := by
  fun_induction readMembers format members value seen with
  | case1 value seen =>
    cases done
    exact ⟨.nil, by simp, by simp⟩
  | case2 flaw datum members value seen => cases done
  | case3 name datum members value seen absent fault skips => cases done
  | case4 name datum members value seen absent skips ih =>
    have unknown := find?_eq_none_iff.1 absent
    have later : ∀ other ∈ format.names, ∀ found,
        (.ok other, found) ∈ (.ok name, datum) :: members → (.ok other, found) ∈ members := by
      intro other known found given
      rcases List.mem_cons.1 given with same | later
      · cases same
        exact absurd known unknown
      · exact later
    obtain ⟨sound, readable, names⟩ := ih done
    refine ⟨(SoundMembers.unknown_iff unknown).2 ⟨skips, sound⟩, ?_, ?_⟩
    · intro field member found given
      exact readable field member found (later _ (List.mem_map_of_mem member) found given)
    · intro other known
      rw [names other known]
      refine or_congr_right ⟨?_, ?_⟩
      · rintro ⟨found, given⟩
        exact ⟨found, List.mem_cons_of_mem _ given⟩
      · rintro ⟨found, given⟩
        exact ⟨found, later other known found given⟩
  | case5 name datum members value seen field present again => cases done
  | case6 name datum members value seen field present new error reading => cases done
  | case7 name datum members value seen field present new after reading ih =>
    obtain ⟨member, rfl, known⟩ := of_find? present
    obtain ⟨sound, readable, names⟩ := ih done
    refine ⟨(SoundMembers.known_iff known).2 ⟨by simpa using new, sound⟩, ?_, ?_⟩
    · intro other alsoMember found given
      rcases List.mem_cons.1 given with same | later
      · rw [Prod.mk.injEq, Except.ok.injEq] at same
        obtain rfl := List.inj_on_of_nodup_map distinct alsoMember member same.1
        exact ⟨value, after, same.2 ▸ reading⟩
      · exact readable other alsoMember found later
    · intro other among
      rw [names other among, List.mem_cons]
      constructor
      · rintro ((rfl | earlier) | ⟨found, given⟩)
        · exact .inr ⟨datum, List.mem_cons_self⟩
        · exact .inl earlier
        · exact .inr ⟨found, List.mem_cons_of_mem _ given⟩
      · rintro (earlier | ⟨found, given⟩)
        · exact .inl (.inr earlier)
        · rcases List.mem_cons.1 given with same | later
          · cases same
            exact .inl (.inl rfl)
          · exact .inr ⟨found, later⟩

/-- Where the reading of elements stops: at the datum of a field, or at their end. -/
theorem readItems_error {ending : Option Flaw} {fields : List (Field α)} {items : List Datum}
    {position : Nat} {value : α} {error : ReadError}
    (failed : format.readItems ending fields items position value = .error error) :
    (∃ (index : Nat) (field : Field α) (found : Datum) (before : α), fields[index]? = some field ∧
      items[index]? = some found ∧ field.read found before = .error error) ∨
    (∀ fault, error ≠ .fault fault) ∧ items.length < fields.length ∧
      (ending ≠ none ∨ ∃ (index : Nat) (field : Field α), fields[index]? = some field ∧
        items[index]? = none ∧ field.required = true) := by
  fun_induction readItems format ending fields items position value with
  | case1 items position value => cases failed
  | case2 field fields position value flaw broken =>
    cases failed
    exact .inr ⟨by simp, by simp, .inl (by simp [broken])⟩
  | case3 field fields position value whole missing =>
    cases failed
    exact .inr ⟨by simp, by simp, .inr ⟨0, field, rfl, rfl, missing⟩⟩
  | case4 field fields position value whole optional ih =>
    subst whole
    rcases ih failed with ⟨index, _, found, _, _, given, _⟩ | ⟨noFault, short, reason⟩
    · cases given
    · refine .inr ⟨noFault, by simp, reason.imp_right ?_⟩
      rintro ⟨index, other, place, missing, required⟩
      exact ⟨index + 1, other, place, rfl, required⟩
  | case5 field fields item items position value error reading =>
    cases failed
    exact .inl ⟨0, field, item, value, rfl, rfl, reading⟩
  | case6 field fields item items position value after reading ih =>
    rcases ih failed with ⟨index, other, found, before, place, given, stopped⟩ |
      ⟨noFault, short, reason⟩
    · exact .inl ⟨index + 1, other, found, before, place, given, stopped⟩
    · refine .inr ⟨noFault, Nat.succ_lt_succ short, reason.imp_right ?_⟩
      rintro ⟨index, other, place, missing, required⟩
      exact ⟨index + 1, other, place, missing, required⟩

/-- Elements that can be read are enough, and each of them can be read for its field. -/
theorem readItems_ok {ending : Option Flaw} {fields : List (Field α)} {items : List Datum}
    {position : Nat} {value : α} {result : α × List Datum}
    (done : format.readItems ending fields items position value = .ok result) :
    result.2 = items.drop fields.length ∧ (items.length < fields.length → ending = none) ∧
    (∀ (index : Nat) (field : Field α) (found : Datum), fields[index]? = some field →
      items[index]? = some found → ∃ before after, field.read found before = .ok after) ∧
    ∀ (index : Nat) (field : Field α), fields[index]? = some field → items[index]? = none →
      field.required = false := by
  fun_induction readItems format ending fields items position value with
  | case1 items position value =>
    cases done
    exact ⟨rfl, by simp, by simp, by simp⟩
  | case2 field fields position value flaw broken => cases done
  | case3 field fields position value whole missing => cases done
  | case4 field fields position value whole optional ih =>
    subst whole
    obtain ⟨unread, _, _, rest⟩ := ih done
    refine ⟨by simpa using unread, fun _ => rfl, by simp, ?_⟩
    · intro index other place _
      cases index with
      | zero =>
        cases place
        simpa using optional
      | succ index => exact rest index other place rfl
  | case5 field fields item items position value error reading => cases done
  | case6 field fields item items position value after reading ih =>
    obtain ⟨unread, ended, readable, rest⟩ := ih done
    refine ⟨unread, fun short => ended (Nat.lt_of_succ_lt_succ short), ?_, ?_⟩
    · intro index other found place given
      cases index with
      | zero =>
        cases place
        cases given
        exact ⟨value, after, reading⟩
      | succ index => exact readable index other found place given
    · intro index other place missing
      cases index with
      | zero => cases missing
      | succ index => exact rest index other place missing

/-! ## Whole records -/

theorem getElem?_names {index : Nat} {name : String} :
    format.names[index]? = some name ↔ ∃ field, format.fields[index]? = some field ∧
      field.name = name := by
  simp [names, List.getElem?_map]

theorem eq_of_name_eq (distinct : format.names.Nodup) {field other : Field α}
    (member : field ∈ format.fields) (also : other ∈ format.fields)
    (same : field.name = other.name) : field = other :=
  List.inj_on_of_nodup_map distinct member also same

theorem missing?_eq_none_iff {seen : List String} :
    format.missing? seen = none ↔
      ∀ field ∈ format.fields, field.required = true → field.name ∈ seen := by
  simp [missing?]

theorem missing?_eq_some {seen : List String} {name : String}
    (missing : format.missing? seen = some name) :
    ∃ field ∈ format.fields, field.required = true ∧ field.name ∉ seen := by
  obtain ⟨field, found, _⟩ := Option.map_eq_some_iff.1 missing
  have lacking := List.find?_some found
  rw [Bool.and_eq_true, Bool.not_eq_true'] at lacking
  exact ⟨field, List.mem_of_find?_eq_some found, lacking.1, by simpa using lacking.2⟩

theorem check_eq_ok_iff {length : Nat} {unread : List Datum} {ending : Option Flaw} :
    Surplus.ignored.check length unread ending = .ok () ↔ unread ≠ [] ∨ ending = none := by
  cases unread with
  | cons first rest => simp [Surplus.check]
  | nil =>
    cases ending with
    | none => simp [Surplus.check]
    | some flaw =>
      simp only [Surplus.check]
      split <;> simp

theorem check_eq_error {length : Nat} {unread : List Datum} {ending : Option Flaw}
    {error : ReadError} (failed : Surplus.ignored.check length unread ending = .error error) :
    unread = [] ∧ ending ≠ none ∧ ∀ fault, error ≠ .fault fault := by
  cases unread with
  | cons first rest => cases failed
  | nil =>
    cases ending with
    | none => cases failed
    | some flaw =>
      simp only [Surplus.check] at failed
      split at failed
      · cases failed
        exact ⟨rfl, by simp, by simp⟩
      · cases failed
        exact ⟨rfl, by simp, by simp⟩

/-- What makes a reader of records stop with an error: a datum for a field that the field refuses,
or the form of the datum, or a missing field. Only the first can be a fault. -/
def Stops (format : RecordFormat α) (datum : Datum) (error : ReadError) : Prop :=
  (∃ field ∈ format.fields, ∃ found before, datum.Gives format.names field.name found ∧
    field.read found before = .error error) ∨
  (∀ fault, error ≠ .fault fault) ∧ (datum.IsRecord format.names →
    ∃ field ∈ format.fields, field.required = true ∧
      ∀ found, ¬ datum.Gives format.names field.name found)

/-- The datum has the form of a record, what it gives can be read, and no required field is missing.
-/
structure Fits (format : RecordFormat α) (datum : Datum) : Prop where
  form : datum.IsRecord format.names
  fields : ∀ field ∈ format.fields, ∀ found, datum.Gives format.names field.name found →
    ∃ before after, field.read found before = .ok after
  complete : ∀ field ∈ format.fields, field.required = true →
    ∃ found, datum.Gives format.names field.name found

private theorem record_stops (distinct : format.names.Nodup) {members : List (Key × Datum)}
    {ending : Option Flaw} {error : ReadError}
    (failed : format.read .ignored (.record members ending) = .error error) :
    format.Stops (.record members ending) error := by
  unfold read at failed
  dsimp only at failed
  split at failed
  next entering =>
    cases failed
    rcases readMembers_error entering with ⟨field, member, found, before, given, reading⟩ |
      ⟨noFault, unsound⟩
    · exact .inl ⟨field, member, found, before, ⟨List.mem_map_of_mem member, given⟩, reading⟩
    · exact .inr ⟨noFault, fun form => absurd form.1 unsound⟩
  next value seen entered =>
    obtain ⟨_, _, names⟩ := readMembers_ok distinct entered
    split at failed
    next flaw =>
      cases failed
      exact .inr ⟨by simp, fun form => by cases form.2⟩
    next =>
      split at failed
      next name missing =>
        cases failed
        obtain ⟨field, member, required, unseen⟩ := missing?_eq_some missing
        refine .inr ⟨by simp, fun _ => ⟨field, member, required, ?_⟩⟩
        rintro found ⟨known, given⟩
        exact unseen ((names field.name known).2 (.inr ⟨found, given⟩))
      next => cases failed

private theorem list_stops (distinct : format.names.Nodup) {items : List Datum}
    {ending : Option Flaw} {error : ReadError}
    (failed : format.read .ignored (.list items ending) = .error error) :
    format.Stops (.list items ending) error := by
  have count : format.names.length = format.fields.length := List.length_map _
  unfold read at failed
  dsimp only at failed
  split at failed
  next entering =>
    cases failed
    rcases readItems_error entering with ⟨index, field, found, before, place, given, reading⟩ |
      ⟨noFault, short, reason⟩
    · refine .inl ⟨field, List.mem_of_getElem? place, found, before, ⟨index, ?_, given⟩, reading⟩
      exact getElem?_names.2 ⟨field, place, rfl⟩
    · refine .inr ⟨noFault, fun form => ?_⟩
      rcases reason with broken | ⟨index, field, place, missing, required⟩
      · exact absurd (form.resolve_left (by omega)) broken
      · refine ⟨field, List.mem_of_getElem? place, required, ?_⟩
        rintro found ⟨position, named, given⟩
        have here := getElem?_names.2 ⟨field, place, rfl⟩
        obtain ⟨inside, _⟩ := List.getElem?_eq_some_iff.1 named
        have same := (List.getElem?_inj inside distinct).1 (named.trans here.symm)
        rw [same, missing] at given
        cases given
  next value unread entered =>
    obtain ⟨rfl, _⟩ := readItems_ok entered
    split at failed
    next checked =>
      cases failed
      obtain ⟨all, broken, noFault⟩ := check_eq_error checked
      rw [List.drop_eq_nil_iff] at all
      exact .inr ⟨noFault, fun form => absurd (form.resolve_left (by omega)) broken⟩
    next => cases failed

theorem stops_of_read (distinct : format.names.Nodup) {datum : Datum} {error : ReadError}
    (failed : format.read .ignored datum = .error error) : format.Stops datum error := by
  have refused : ∀ other : Datum, (other.refuse (.structure format.name) : Except ReadError α)
      = .error error → ∀ fault, error ≠ .fault fault := by
    intro other refusal
    obtain ⟨_, same, noFault⟩ := other.refuse_eq_error (.structure format.name)
    rw [refusal] at same
    cases same
    exact noFault
  cases datum with
  | record members ending => exact record_stops distinct failed
  | list items ending => exact list_stops distinct failed
  | null => exact .inr ⟨refused .null failed, False.elim⟩
  | boolean flag => exact .inr ⟨refused (.boolean flag) failed, False.elim⟩
  | integer number => exact .inr ⟨refused (.integer number) failed, False.elim⟩
  | decimal number => exact .inr ⟨refused (.decimal number) failed, False.elim⟩
  | text characters => exact .inr ⟨refused (.text characters) failed, False.elim⟩
  | unreadable flaw => exact .inr ⟨refused (.unreadable flaw) failed, False.elim⟩

theorem fault_of_read (distinct : format.names.Nodup) {datum : Datum} {fault : Fault}
    (failed : format.read .ignored datum = .error (.fault fault)) :
    ∃ field ∈ format.fields, ∃ found before, datum.Gives format.names field.name found ∧
      field.read found before = .error (.fault fault) :=
  (stops_of_read distinct failed).resolve_right fun other => other.1 fault rfl

private theorem record_fits (distinct : format.names.Nodup) {members : List (Key × Datum)}
    {ending : Option Flaw} {value : α}
    (done : format.read .ignored (.record members ending) = .ok value) :
    format.Fits (.record members ending) := by
  unfold read at done
  dsimp only at done
  split at done
  next => cases done
  next after seen entered =>
    obtain ⟨sound, readable, names⟩ := readMembers_ok distinct entered
    split at done
    next => cases done
    next =>
      split at done
      next => cases done
      next complete =>
        refine ⟨⟨sound, rfl⟩, ?_, ?_⟩
        · rintro field member found ⟨_, given⟩
          exact readable field member found given
        · intro field member required
          have known : field.name ∈ format.names := List.mem_map_of_mem member
          have given := (names field.name known).1
            (missing?_eq_none_iff.1 complete field member required)
          obtain ⟨found, given⟩ := given.resolve_left List.not_mem_nil
          exact ⟨found, known, given⟩

private theorem list_fits (distinct : format.names.Nodup) {items : List Datum}
    {ending : Option Flaw} {value : α}
    (done : format.read .ignored (.list items ending) = .ok value) :
    format.Fits (.list items ending) := by
  have count : format.names.length = format.fields.length := List.length_map _
  unfold read at done
  dsimp only at done
  split at done
  next => cases done
  next after unread entered =>
    obtain ⟨rfl, ended, readable, rest⟩ := readItems_ok entered
    split at done
    next => cases done
    next checked =>
      refine ⟨?form, ?fields, ?complete⟩
      case form =>
        refine (check_eq_ok_iff.1 checked).imp_left fun more => ?_
        rw [ne_eq, List.drop_eq_nil_iff] at more
        omega
      case fields =>
        rintro field member found ⟨position, named, given⟩
        obtain ⟨other, place, same⟩ := getElem?_names.1 named
        obtain rfl := eq_of_name_eq distinct (List.mem_of_getElem? place) member same
        exact readable position other found place given
      case complete =>
        intro field member required
        obtain ⟨position, place⟩ := List.mem_iff_getElem?.1 member
        cases given : items[position]? with
        | none =>
          rw [rest position field place given] at required
          cases required
        | some found => exact ⟨found, position, getElem?_names.2 ⟨field, place, rfl⟩, given⟩

theorem fits_of_read (distinct : format.names.Nodup) {datum : Datum} {value : α}
    (done : format.read .ignored datum = .ok value) : format.Fits datum := by
  cases datum with
  | record members ending => exact record_fits distinct done
  | list items ending => exact list_fits distinct done
  | null => cases done
  | boolean flag => cases done
  | integer number => cases done
  | decimal number => cases done
  | text characters => cases done
  | unreadable flaw => cases done

end RecordFormat

/-! ## Types -/

/-- What a field is called, whether it must be given, and which data it holds. -/
structure FieldType where
  name : String
  required : Bool
  Holds : Datum → Prop

/-- A datum has the form of a record with such fields, holds what each of them holds, and leaves out
only what may be left out. -/
structure Datum.HasFields (types : List FieldType) (datum : Datum) : Prop where
  form : datum.IsRecord (types.map (·.name))
  fields : ∀ type ∈ types, ∀ found, datum.Gives (types.map (·.name)) type.name found →
    type.Holds found
  complete : ∀ type ∈ types, type.required = true →
    ∃ found, datum.Gives (types.map (·.name)) type.name found

/-- A reader stops at data of a kind only with errors of a kind. -/
def Admits {β : Type} (allowed : ReadError → Prop) (read : Datum → Except ReadError β)
    (Holds : Datum → Prop) : Prop :=
  ∀ datum error, Holds datum → read datum = .error error → allowed error

/-- A reader reads data of a kind only. -/
def Demands {β : Type} (read : Datum → Except ReadError β) (Holds : Datum → Prop) : Prop :=
  ∀ datum value, read datum = .ok value → Holds datum

namespace Field

variable {α β : Type} {allowed : ReadError → Prop} {Holds : Datum → Prop} {name : String}
  {read : Datum → Except ReadError β} {enter : β → α → α}

/-- A field and a type go together, and the field admits data of the type. -/
structure AdmitsType (allowed : ReadError → Prop) (field : Field α) (type : FieldType) : Prop where
  name : field.name = type.name
  required : field.required = type.required
  admits : ∀ before, Admits allowed (field.read · before) type.Holds

/-- A field and a type go together, and the field demands data of the type. -/
structure DemandsType (field : Field α) (type : FieldType) : Prop where
  name : field.name = type.name
  required : field.required = type.required
  demands : ∀ before, Demands (field.read · before) type.Holds

private theorem entering_eq_error_iff {datum : Datum} {before : α} {error : ReadError} :
    (do return enter (← read datum) before) = (.error error : Except ReadError α) ↔
      read datum = .error error := by
  cases read datum with
  | ok value => simp [bind, Except.bind, pure, Except.pure]
  | error cause => simp [bind, Except.bind]

theorem optional_eq_error_iff {datum : Datum} {before : α} {error : ReadError} :
    (Field.optional name read enter).read datum before = .error error ↔
      read datum = .error error :=
  entering_eq_error_iff

theorem mandatory_eq_error_iff {datum : Datum} {before : α} {error : ReadError} :
    (Field.mandatory name read enter).read datum before = .error error ↔
      read datum = .error error :=
  entering_eq_error_iff

private theorem entering_demands (demands : Demands read Holds) (before : α) :
    Demands (fun datum => return enter (← read datum) before) Holds := by
  intro datum after done
  obtain ⟨value, reading, _⟩ := except_bind_eq_ok_iff.1 done
  exact demands datum value reading

theorem admits_optional (admits : Admits allowed read Holds) :
    (Field.optional name read enter).AdmitsType allowed ⟨name, false, Holds⟩ :=
  ⟨rfl, rfl, fun _ datum error holds failed =>
    admits datum error holds (optional_eq_error_iff.1 failed)⟩

theorem admits_mandatory (admits : Admits allowed read Holds) :
    (Field.mandatory name read enter).AdmitsType allowed ⟨name, true, Holds⟩ :=
  ⟨rfl, rfl, fun _ datum error holds failed =>
    admits datum error holds (mandatory_eq_error_iff.1 failed)⟩

theorem demands_optional (demands : Demands read Holds) :
    (Field.optional name read enter).DemandsType ⟨name, false, Holds⟩ :=
  ⟨rfl, rfl, entering_demands demands⟩

theorem demands_mandatory (demands : Demands read Holds) :
    (Field.mandatory name read enter).DemandsType ⟨name, true, Holds⟩ :=
  ⟨rfl, rfl, entering_demands demands⟩

end Field

namespace RecordFormat

variable {α : Type} {format : RecordFormat α} {types : List FieldType}
  {allowed : ReadError → Prop}

private theorem exists_right {β γ : Type} {R : β → γ → Prop} {items : List β} {others : List γ}
    (all : List.Forall₂ R items others) {item : β} (member : item ∈ items) :
    ∃ other ∈ others, R item other := by
  induction all with
  | nil => cases member
  | cons first rest ih =>
    cases member with
    | head => exact ⟨_, List.mem_cons_self, first⟩
    | tail _ later =>
      obtain ⟨other, found, related⟩ := ih later
      exact ⟨other, List.mem_cons_of_mem _ found, related⟩

private theorem names_eq {fields : List (Field α)}
    (same : List.Forall₂ (fun (field : Field α) (type : FieldType) => field.name = type.name)
      fields types) : types.map (·.name) = fields.map (·.name) := by
  induction same with
  | nil => rfl
  | cons first _ ih => rw [List.map_cons, List.map_cons, ih, first]

/-- A record whose fields admit data of their types admits data of these types. -/
theorem admits_hasFields (distinct : (types.map (·.name)).Nodup)
    (admits : List.Forall₂ (Field.AdmitsType allowed) format.fields types) :
    Admits allowed (format.read .ignored) (Datum.HasFields types) := by
  have same : types.map (·.name) = format.names :=
    names_eq (admits.imp fun _ _ related => related.name)
  intro datum error has failed
  rw [same] at distinct
  rcases stops_of_read distinct failed with ⟨field, member, found, before, given, reading⟩ |
    ⟨_, incomplete⟩
  · obtain ⟨type, among, related⟩ := exists_right admits member
    apply related.admits before found error (has.fields type among found _) reading
    rw [same, ← related.name]
    exact given
  · obtain ⟨field, member, required, missing⟩ := incomplete (same ▸ has.form)
    obtain ⟨type, among, related⟩ := exists_right admits member
    obtain ⟨found, given⟩ := has.complete type among (related.required ▸ required)
    rw [same, ← related.name] at given
    exact absurd given (missing found)

/-- A record whose fields demand data of their types demands data of these types. -/
theorem demands_hasFields (distinct : (types.map (·.name)).Nodup)
    (demands : List.Forall₂ Field.DemandsType format.fields types) :
    Demands (format.read .ignored) (Datum.HasFields types) := by
  have same : types.map (·.name) = format.names :=
    names_eq (demands.imp fun _ _ related => related.name)
  intro datum value done
  rw [same] at distinct
  obtain ⟨form, fields, complete⟩ := fits_of_read distinct done
  refine ⟨same ▸ form, ?_, ?_⟩
  · intro type among found given
    obtain ⟨field, member, related⟩ := exists_right demands.flip among
    rw [same, ← related.name] at given
    obtain ⟨before, after, reading⟩ := fields field member found given
    exact related.demands before found after reading
  · intro type among required
    obtain ⟨field, member, related⟩ := exists_right demands.flip among
    rw [same, ← related.name]
    exact complete field member (related.required ▸ required)

end RecordFormat

end GuildRoster
