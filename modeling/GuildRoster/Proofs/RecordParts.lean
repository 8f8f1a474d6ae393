import GuildRoster.Proofs.MemberOrder

/-!
# Parts of records

A record is read field by field: what one of its parts is in the end depends on nothing but the
datum of one field, and without that datum the part is what it was in the blank record. This holds
for records with named members and for records written as lists.
-/

set_option autoImplicit false

namespace GuildRoster

variable {α β γ : Type}

/-- A value comes from a given datum that denotes it, and is a default if no datum is given. -/
structure Follows (Given : Datum → Prop) (Denotes : Datum → β → Prop) (default value : β) :
    Prop where
  given : ∀ found, Given found → Denotes found value
  absent : (∀ found, ¬ Given found) → value = default

/-- Whatever is entered into the field, a part of the record stays as it is. -/
def Field.Leaves (field : Field α) (part : α → β) : Prop :=
  ∀ datum before after, field.read datum before = .ok after → part after = part before

/-- What is entered into the field denotes a part of the record. -/
def Field.Sets (field : Field α) (part : α → β) (Denotes : Datum → β → Prop) : Prop :=
  ∀ datum before after, field.read datum before = .ok after → Denotes datum (part after)

section Fields

variable {name : String} {read : Datum → Except ReadError γ} {enter : γ → α → α} {part : α → β}

private theorem leaves_of_enter {required : Bool}
    (same : ∀ content value, part (enter content value) = part value) :
    Field.Leaves ⟨name, required, fun datum value => return enter (← read datum) value⟩ part := by
  intro datum before after entered
  obtain ⟨content, _, done⟩ := except_bind_eq_ok_iff.1 entered
  cases done
  exact same content before

theorem Field.sets_of_enter {required : Bool} {Denotes : Datum → β → Prop}
    (sets : ∀ found content value, read found = .ok content →
      Denotes found (part (enter content value))) :
    Field.Sets ⟨name, required, fun datum value => return enter (← read datum) value⟩ part
      Denotes := by
  intro datum before after entered
  obtain ⟨content, reading, done⟩ := except_bind_eq_ok_iff.1 entered
  cases done
  exact sets datum content before reading

@[simp] theorem Field.leaves_optional
    (same : ∀ content value, part (enter content value) = part value) :
    (Field.optional name read enter).Leaves part :=
  leaves_of_enter same

@[simp] theorem Field.leaves_mandatory
    (same : ∀ content value, part (enter content value) = part value) :
    (Field.mandatory name read enter).Leaves part :=
  leaves_of_enter same

@[simp] theorem Field.name_optional : (Field.optional name read enter).name = name := rfl

@[simp] theorem Field.name_mandatory : (Field.mandatory name read enter).name = name := rfl

end Fields

namespace RecordFormat

variable {format : RecordFormat α} {surplus : Surplus} {datum : Datum} {value : α}

/-- The members of a record; the elements of a list belong to the fields in their order. -/
def members (format : RecordFormat α) : Datum → List (Key × Datum)
  | .record members _ => members
  | .list items _ => (format.fields.zip items).map fun pair => (.ok pair.1.name, pair.2)
  | _ => []

theorem gives_iff {name : String} (known : name ∈ format.names) {found : Datum} :
    datum.Gives format.names name found ↔ (.ok name, found) ∈ format.members datum := by
  cases datum with
  | record members ending => exact and_iff_right known
  | list items ending =>
    constructor
    · rintro ⟨position, named, given⟩
      obtain ⟨field, place, rfl⟩ := getElem?_names.1 named
      have both : (format.fields.zip items)[position]? = some (field, found) :=
        List.getElem?_zip_eq_some.2 ⟨place, given⟩
      exact List.mem_map.2 ⟨(field, found), List.mem_iff_getElem?.2 ⟨position, both⟩, rfl⟩
    · intro member
      obtain ⟨⟨field, item⟩, among, same⟩ := List.mem_map.1 member
      cases same
      obtain ⟨position, both⟩ := List.mem_iff_getElem?.1 among
      obtain ⟨place, given⟩ := List.getElem?_zip_eq_some.1 both
      exact ⟨position, getElem?_names.2 ⟨field, place, rfl⟩, given⟩
  | _ => simp [Datum.Gives, members]

/-- A list is read like a record with the names of the fields put to its elements. -/
theorem enters_of_readItems {ending : Option Flaw} {fields : List (Field α)} {items : List Datum}
    {position : Nat} {result : α × List Datum} (among : fields ⊆ format.fields)
    (done : format.readItems ending fields items position value = .ok result) :
    format.Enters ((fields.zip items).map fun pair => (.ok pair.1.name, pair.2)) value
      result.1 := by
  fun_induction readItems format ending fields items position value with
  | case1 items position value =>
    cases done
    exact .nil
  | case2 => cases done
  | case3 => cases done
  | case4 field fields position value whole optional ih =>
    subst whole
    have nothing := ih (List.subset_of_cons_subset among) done
    rw [List.zip_nil_right] at nothing ⊢
    exact nothing
  | case5 => cases done
  | case6 field fields item items position value after reading ih =>
    exact .field (among List.mem_cons_self) reading (ih (List.subset_of_cons_subset among) done)

private theorem distinct_zip {names : List String} {fields : List (Field α)} {items : List Datum}
    (distinct : (fields.map (·.name)).Nodup) :
    Distinct names ((fields.zip items).map fun pair => (.ok pair.1.name, pair.2)) := by
  induction fields generalizing items with
  | nil => exact .nil
  | cons field fields ih =>
    cases items with
    | nil => exact .nil
    | cons item items =>
      obtain ⟨new, others⟩ := List.nodup_cons.1 distinct
      refine List.pairwise_cons.2 ⟨?_, ih others⟩
      intro entry member name _ first second
      obtain ⟨pair, among, rfl⟩ := List.mem_map.1 member
      have same : pair.1.name = field.name :=
        (Except.ok.inj second).trans (Except.ok.inj first).symm
      exact new (List.mem_map.2 ⟨pair.1, (List.of_mem_zip among).1, same⟩)

/-- Whatever is read is read from members with different names. -/
theorem enters_of_read (distinct : format.names.Nodup)
    (done : format.read surplus datum = .ok value) :
    format.Enters (format.members datum) format.blank value ∧
      Distinct format.names (format.members datum) := by
  cases datum with
  | record members ending =>
    obtain ⟨_, sound, entered, _⟩ := (read_record_iff distinct).1 done
    exact ⟨entered, sound.distinct⟩
  | list items ending =>
    unfold read at done
    dsimp only at done
    split at done
    next => cases done
    next after unread entered =>
      split at done
      next => cases done
      next =>
        cases done
        refine ⟨enters_of_readItems (fun _ member => member) entered, ?_⟩
        exact distinct_zip distinct
  | _ => cases done

section Members

variable {name : String} {key : Key} {members : List (Key × Datum)} {Denotes : Datum → β → Prop}
  {default result : β}

private theorem follows_first (last : ∀ found, (.ok name, found) ∉ members)
    (denotes : Denotes datum result) :
    Follows (fun found => (.ok name, found) ∈ (.ok name, datum) :: members) Denotes default
      result where
  given found here := by
    rcases List.mem_cons.1 here with equal | later
    · cases equal
      exact denotes
    · exact absurd later (last found)
  absent missing := absurd List.mem_cons_self (missing datum)

private theorem follows_later (different : key ≠ .ok name)
    (follows : Follows (fun found => (.ok name, found) ∈ members) Denotes default result) :
    Follows (fun found => (.ok name, found) ∈ (key, datum) :: members) Denotes default
      result where
  given found here := by
    rcases List.mem_cons.1 here with equal | later
    · exact absurd (congrArg Prod.fst equal).symm different
    · exact follows.given found later
  absent missing := follows.absent fun found later => missing found (List.mem_cons_of_mem _ later)

end Members

/-- The induction is on the members; the one with the name of the field, if there is one, decides,
since no member after it has that name again. -/
theorem Enters.follows (distinct : format.names.Nodup) {part : α → β}
    {Denotes : Datum → β → Prop} {field : Field α} (member : field ∈ format.fields)
    (sets : field.Sets part Denotes)
    (leaves : ∀ other ∈ format.fields, other.name ≠ field.name → other.Leaves part)
    {members : List (Key × Datum)} {before after : α}
    (entered : format.Enters members before after) (apart : Distinct format.names members) :
    Follows (fun found => (.ok field.name, found) ∈ members) Denotes (part before)
      (part after) := by
  have known : field.name ∈ format.names := List.mem_map_of_mem member
  induction entered with
  | nil => exact ⟨by simp, fun _ => rfl⟩
  | @field other datum members before between after also read _ ih =>
    obtain ⟨first, others⟩ := List.pairwise_cons.1 apart
    by_cases same : other.name = field.name
    · obtain rfl := eq_of_name_eq distinct also member same
      have last : ∀ found, (.ok other.name, found) ∉ members :=
        fun found later => first _ later other.name known rfl rfl
      refine follows_first last ?_
      rw [(ih others).absent last]
      exact sets _ _ _ read
    · rw [← leaves other also same _ _ _ read]
      exact follows_later (fun equal => same (Except.ok.inj equal)) (ih others)
  | other unknown _ ih =>
    refine follows_later (fun equal => unknown ?_) (ih (List.pairwise_cons.1 apart).2)
    rw [Except.ok.inj equal]
    exact known

/-- What is read into a field decides about a part of the record that the other fields leave as it
is. -/
theorem follows_of_read (done : format.read surplus datum = .ok value)
    (distinct : format.names.Nodup) (part : α → β) {Denotes : Datum → β → Prop} (index : Nat)
    {name : String} {required : Bool} {read : Datum → Except ReadError γ} {enter : γ → α → α}
    (place : format.fields[index]? =
      some ⟨name, required, fun datum value => return enter (← read datum) value⟩)
    (sets : ∀ found content value, read found = .ok content →
      Denotes found (part (enter content value)))
    (leaves : ∀ other ∈ format.fields, other.name ≠ name → other.Leaves part) :
    Follows (datum.Gives format.names name) Denotes (part format.blank) (part value) := by
  have member := List.mem_of_getElem? place
  have known : name ∈ format.names := List.mem_map_of_mem member
  obtain ⟨entered, apart⟩ := enters_of_read distinct done
  obtain ⟨given, absent⟩ :=
    entered.follows distinct member (Field.sets_of_enter sets) leaves apart
  refine ⟨fun found gives => given found ((gives_iff known).1 gives), fun missing => ?_⟩
  exact absent fun found gives => missing found ((gives_iff known).2 gives)

end RecordFormat

end GuildRoster
