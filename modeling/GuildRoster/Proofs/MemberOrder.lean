import GuildRoster.Proofs.RecordTypes
import GuildRoster.Proofs.WellFormedData
import Mathlib.Data.List.Pairwise

/-!
# Records however they are written

A record that is read from named members is its members entered one after the other. When fields do
not disturb each other, the order of the members does not matter, members that are no fields can be
put in, a field that holds its default can be left out, and a member can be replaced by one that
reads alike.
-/

set_option autoImplicit false

namespace GuildRoster

variable {α β γ : Type}

/-- Whatever a reader reads from a datum it reads from another one, too. -/
def Keeps (read : Datum → Except ReadError β) (datum other : Datum) : Prop :=
  ∀ value, read datum = .ok value → read other = .ok value

/-! ## Fields that do not disturb each other -/

namespace Field

/-- What a field enters after another one it can also enter before it. -/
def Precedes (first second : Field α) : Prop :=
  ∀ datum other before between after, first.read datum before = .ok between →
    second.read other between = .ok after →
    ∃ middle, second.read other before = .ok middle ∧ first.read datum middle = .ok after

/-- Two fields can be entered in either order. -/
structure Commutes (first second : Field α) : Prop where
  forth : first.Precedes second
  back : second.Precedes first

instance : Std.Symm (@Commutes α) := ⟨fun _ _ commutes => ⟨commutes.back, commutes.forth⟩⟩

private theorem precedes_of_enter {first second : String} {required also : Bool}
    {read : Datum → Except ReadError β} {readOther : Datum → Except ReadError γ}
    {enter : β → α → α} {enterOther : γ → α → α}
    (swap : ∀ content other value,
      enterOther other (enter content value) = enter content (enterOther other value)) :
    Precedes ⟨first, required, fun datum value => return enter (← read datum) value⟩
      ⟨second, also, fun datum value => return enterOther (← readOther datum) value⟩ := by
  intro datum other before between after entered enteredOther
  obtain ⟨content, reading, same⟩ := except_bind_eq_ok_iff.1 entered
  obtain ⟨more, readingOther, sameOther⟩ := except_bind_eq_ok_iff.1 enteredOther
  cases same
  cases sameOther
  refine ⟨enterOther more before, ?_, ?_⟩
  · exact except_bind_eq_ok_iff.2 ⟨more, readingOther, rfl⟩
  · exact except_bind_eq_ok_iff.2
      ⟨content, reading, congrArg Except.ok (swap content more before).symm⟩

/-- Two fields can be entered in either order if what they enter can. -/
theorem commutes_of_enter {first second : String} {required also : Bool}
    {read : Datum → Except ReadError β} {readOther : Datum → Except ReadError γ}
    {enter : β → α → α} {enterOther : γ → α → α}
    (swap : ∀ content other value,
      enterOther other (enter content value) = enter content (enterOther other value)) :
    Commutes ⟨first, required, fun datum value => return enter (← read datum) value⟩
      ⟨second, also, fun datum value => return enterOther (← readOther datum) value⟩ :=
  ⟨precedes_of_enter swap, precedes_of_enter fun content other value =>
    (swap other content value).symm⟩

end Field

/-! ## Members in any order -/

/-- No two members have the same name of a field. -/
def Distinct (names : List String) (members : List (Key × Datum)) : Prop :=
  members.Pairwise fun entry other => ∀ name ∈ names, entry.1 = .ok name → other.1 ≠ .ok name

theorem Distinct.perm {names : List String} {members others : List (Key × Datum)}
    (distinct : Distinct names members) (same : members.Perm others) : Distinct names others := by
  refine same.pairwise distinct fun {entry other} apart => ?_
  exact fun name known is same => apart name known same is

namespace SoundMembers

variable {names seen : List String} {members others : List (Key × Datum)}

theorem perm (sound : SoundMembers names seen members) (same : members.Perm others) :
    SoundMembers names seen others where
  keys entry member := sound.keys entry (same.mem_iff.2 member)
  unseen entry member := sound.unseen entry (same.mem_iff.2 member)
  distinct := Distinct.perm sound.distinct same

theorem of_seen (sound : SoundMembers names seen members) : SoundMembers names [] members where
  keys := sound.keys
  unseen _ _ _ _ before := nomatch before
  distinct := sound.distinct

end SoundMembers

namespace RecordFormat

variable {format : RecordFormat α}

/-- All fields of a record can be entered in any order. -/
def Orderless (format : RecordFormat α) : Prop := format.fields.Pairwise Field.Commutes

theorem Orderless.precedes (orderless : format.Orderless) {field other : Field α}
    (member : field ∈ format.fields) (also : other ∈ format.fields) (different : field ≠ other) :
    field.Precedes other :=
  (List.Pairwise.forall orderless member also different).forth

/-! ## Members entered one after the other -/

/-- Members, and the values of a record before the first and after the last of them is entered.
Members that are no fields leave the record as it is. -/
inductive Enters (format : RecordFormat α) : List (Key × Datum) → α → α → Prop where
  | nil {value : α} : Enters format [] value value
  | field {field : Field α} {datum : Datum} {members : List (Key × Datum)}
      {before between after : α} (member : field ∈ format.fields)
      (read : field.read datum before = .ok between)
      (others : Enters format members between after) :
      Enters format ((.ok field.name, datum) :: members) before after
  | other {name : String} {datum : Datum} {members : List (Key × Datum)} {before after : α}
      (unknown : name ∉ format.names) (others : Enters format members before after) :
      Enters format ((.ok name, datum) :: members) before after

theorem enters_cons_iff {key : Key} {datum : Datum} {members : List (Key × Datum)}
    {before after : α} :
    format.Enters ((key, datum) :: members) before after ↔
      (∃ field ∈ format.fields, key = .ok field.name ∧
        ∃ between, field.read datum before = .ok between ∧ format.Enters members between after) ∨
      ∃ name, key = .ok name ∧ name ∉ format.names ∧ format.Enters members before after := by
  constructor
  · intro entered
    cases entered with
    | field member read others => exact .inl ⟨_, member, rfl, _, read, others⟩
    | other unknown others => exact .inr ⟨_, rfl, unknown, others⟩
  · rintro (⟨field, member, rfl, between, read, others⟩ | ⟨name, rfl, unknown, others⟩)
    · exact .field member read others
    · exact .other unknown others

theorem find?_name (distinct : format.names.Nodup) {field : Field α}
    (member : field ∈ format.fields) :
    format.fields.find? (·.name == field.name) = some field := by
  cases found : format.fields.find? (·.name == field.name) with
  | none => exact absurd (List.mem_map_of_mem member) (find?_eq_none_iff.1 found)
  | some other =>
    obtain ⟨also, same, _⟩ := of_find? found
    rw [eq_of_name_eq distinct also member same]

theorem enters_of_readMembers {members : List (Key × Datum)} {value : α} {seen : List String}
    {result : α × List String} (done : format.readMembers members value seen = .ok result) :
    format.Enters members value result.1 := by
  fun_induction readMembers format members value seen with
  | case1 =>
    cases done
    exact .nil
  | case4 name datum members value seen absent skips ih =>
    exact .other (find?_eq_none_iff.1 absent) (ih done)
  | case7 name datum members value seen field present new after reading ih =>
    obtain ⟨member, rfl, _⟩ := of_find? present
    exact .field member reading (ih done)
  | _ => cases done

theorem Enters.readMembers (distinct : format.names.Nodup) {members : List (Key × Datum)}
    {before after : α} (entered : format.Enters members before after) {seen : List String}
    (sound : SoundMembers format.names seen members) :
    ∃ names, format.readMembers members before seen = .ok (after, names) := by
  induction entered generalizing seen with
  | nil => exact ⟨seen, rfl⟩
  | @field field datum members before between after member read others ih =>
    have known : field.name ∈ format.names := List.mem_map_of_mem member
    obtain ⟨new, sound⟩ := (SoundMembers.known_iff known).1 sound
    obtain ⟨names, done⟩ := ih sound
    have unseen : seen.contains field.name = false := by simpa using new
    exact ⟨names, by
      simp only [RecordFormat.readMembers, find?_name distinct member, unseen, read, done]; rfl⟩
  | @other name datum members before after unknown others ih =>
    obtain ⟨skips, sound⟩ := (SoundMembers.unknown_iff unknown).1 sound
    obtain ⟨names, done⟩ := ih sound
    exact ⟨names, by
      simp only [RecordFormat.readMembers, find?_eq_none_iff.2 unknown, skips, done]⟩

/-- What a record with named members reads as. -/
theorem read_record_iff (distinct : format.names.Nodup) {surplus : Surplus}
    {members : List (Key × Datum)} {ending : Option Flaw} {value : α} :
    format.read surplus (.record members ending) = .ok value ↔
      ending = none ∧ SoundMembers format.names [] members ∧
        format.Enters members format.blank value ∧
        ∀ field ∈ format.fields, field.required = true →
          ∃ found, (.ok field.name, found) ∈ members := by
  constructor
  · intro done
    unfold read at done
    dsimp only at done
    split at done
    next => cases done
    next after seen entered =>
      obtain ⟨sound, _, names⟩ := readMembers_ok distinct entered
      split at done
      next => cases done
      next =>
        split at done
        next => cases done
        next complete =>
          cases done
          refine ⟨rfl, sound, enters_of_readMembers entered, ?_⟩
          intro field member required
          have given := (names field.name (List.mem_map_of_mem member)).1
            (missing?_eq_none_iff.1 complete field member required)
          exact given.resolve_left List.not_mem_nil
  · rintro ⟨rfl, sound, entered, complete⟩
    obtain ⟨seen, done⟩ := entered.readMembers distinct sound
    have given := (readMembers_ok distinct done).2.2
    have nothing : format.missing? seen = none := by
      refine missing?_eq_none_iff.2 fun field member required => ?_
      exact (given field.name (List.mem_map_of_mem member)).2
        (.inr (complete field member required))
    simp only [read, done, nothing]

/-! ## Other ways to write a record -/

/-- Members may be entered in any order. The induction is on the permutation; two neighbours that
change places are entered into different fields. -/
theorem Enters.perm (orderless : format.Orderless)
    {members others : List (Key × Datum)} (same : members.Perm others)
    (distinct : Distinct format.names members) {before after : α}
    (entered : format.Enters members before after) : format.Enters others before after := by
  induction same generalizing before after with
  | nil => exact entered
  | cons entry _ ih =>
    have rest := (List.pairwise_cons.1 distinct).2
    cases entered with
    | field member read others => exact .field member read (ih rest others)
    | other unknown others => exact .other unknown (ih rest others)
  | swap entry other members =>
    cases entered with
    | field member read others =>
      cases others with
      | field also readOther others =>
        have different := (List.pairwise_cons.1 distinct).1 _ List.mem_cons_self
        obtain ⟨middle, first, second⟩ := orderless.precedes member also (fun equal => by
          subst equal
          exact different _ (List.mem_map_of_mem member) rfl rfl) _ _ _ _ _ read readOther
        exact .field also first (.field member second others)
      | other unknown others => exact .other unknown (.field member read others)
    | other unknown others =>
      cases others with
      | field also readOther others => exact .field also readOther (.other unknown others)
      | other unknownOther others => exact .other unknownOther (.other unknown others)
  | trans first _ ih ihSecond => exact ihSecond (Distinct.perm distinct first) (ih distinct entered)

section Rewriting

variable (distinct : format.names.Nodup) {surplus : Surplus} {members : List (Key × Datum)}
  {ending : Option Flaw}
include distinct

/-- Members may be written in any order. -/
theorem keeps_perm (orderless : format.Orderless) {others : List (Key × Datum)}
    (same : members.Perm others) :
    Keeps (format.read surplus) (.record members ending) (.record others ending) := by
  intro value done
  obtain ⟨whole, sound, entered, complete⟩ := (read_record_iff distinct).1 done
  refine (read_record_iff distinct).2
    ⟨whole, sound.perm same, entered.perm orderless same sound.distinct, ?_⟩
  intro field member required
  obtain ⟨found, given⟩ := complete field member required
  exact ⟨found, same.mem_iff.1 given⟩

/-- A member that is no field may stand in front. -/
theorem keeps_insert {name : String} {datum : Datum} (unknown : name ∉ format.names)
    (wellFormed : datum.WellFormed) :
    Keeps (format.read surplus) (.record members ending)
      (.record ((.ok name, datum) :: members) ending) := by
  intro value done
  obtain ⟨whole, sound, entered, complete⟩ := (read_record_iff distinct).1 done
  refine (read_record_iff distinct).2 ⟨whole,
    (SoundMembers.unknown_iff unknown).2 ⟨wellFormed, sound⟩, .other unknown entered, ?_⟩
  intro field member required
  obtain ⟨found, given⟩ := complete field member required
  exact ⟨found, List.mem_cons_of_mem _ given⟩

/-- A field that may be left out and holds its default may be left out in front. -/
theorem keeps_delete {field : Field α} {datum : Datum} (member : field ∈ format.fields)
    (optional : field.required = false)
    (default : field.read datum format.blank = .ok format.blank) :
    Keeps (format.read surplus) (.record ((.ok field.name, datum) :: members) ending)
      (.record members ending) := by
  intro value done
  obtain ⟨whole, sound, entered, complete⟩ := (read_record_iff distinct).1 done
  have known : field.name ∈ format.names := List.mem_map_of_mem member
  have others := ((SoundMembers.known_iff known).1 sound).2.of_seen
  rcases enters_cons_iff.1 entered with ⟨other, also, same, between, read, entered⟩ |
    ⟨name, same, unknown, _⟩
  · obtain rfl := eq_of_name_eq distinct member also (Except.ok.inj same)
    rw [default] at read
    cases read
    refine (read_record_iff distinct).2 ⟨whole, others, entered, ?_⟩
    intro other alsoMember required
    obtain ⟨found, given⟩ := complete other alsoMember required
    refine ⟨found, (List.mem_cons.1 given).resolve_left fun first => ?_⟩
    have name := Except.ok.inj (congrArg Prod.fst first)
    rw [eq_of_name_eq distinct alsoMember member name, optional] at required
    cases required
  · cases same
    exact absurd known unknown

/-- The datum of the member in front may be replaced by one from which its field reads the same. -/
theorem keeps_replace {key : Key} {datum other : Datum}
    (wellFormed : (∀ name ∈ format.names, key ≠ .ok name) → datum.WellFormed → other.WellFormed)
    (keeps : ∀ field ∈ format.fields, key = .ok field.name →
      ∀ before, Keeps (field.read · before) datum other) :
    Keeps (format.read surplus) (.record ((key, datum) :: members) ending)
      (.record ((key, other) :: members) ending) := by
  intro value done
  obtain ⟨whole, sound, entered, complete⟩ := (read_record_iff distinct).1 done
  have given : ∀ field ∈ format.fields, field.required = true →
      ∃ found, ((.ok field.name, found) : Key × Datum) ∈ (key, other) :: members := by
    intro field member required
    obtain ⟨found, given⟩ := complete field member required
    rcases List.mem_cons.1 given with first | later
    · cases first
      exact ⟨other, List.mem_cons_self⟩
    · exact ⟨found, List.mem_cons_of_mem _ later⟩
  refine (read_record_iff distinct).2 ⟨whole, ?_, ?_, given⟩
  · rcases enters_cons_iff.1 entered with ⟨field, member, rfl, _⟩ | ⟨name, rfl, unknown, _⟩
    · have known : field.name ∈ format.names := List.mem_map_of_mem member
      exact (SoundMembers.known_iff known).2 ((SoundMembers.known_iff known).1 sound)
    · obtain ⟨skips, others⟩ := (SoundMembers.unknown_iff unknown).1 sound
      have unlike : ∀ other ∈ format.names, (Except.ok name : Key) ≠ .ok other :=
        fun other known same => unknown (Except.ok.inj same ▸ known)
      exact (SoundMembers.unknown_iff unknown).2 ⟨wellFormed unlike skips, others⟩
  · rcases enters_cons_iff.1 entered with ⟨field, member, rfl, between, read, others⟩ |
      ⟨name, rfl, unknown, others⟩
    · exact .field member (keeps field member rfl _ _ read) others
    · exact .other unknown others

end Rewriting

/-! ## Records written as lists -/

theorem readItems_replace {ending : Option Flaw} {fields : List (Field α)} {front back : List Datum}
    {datum other : Datum} (keeps : ∀ field, fields[front.length]? = some field →
      ∀ before, Keeps (field.read · before) datum other)
    {position : Nat} {value after : α} {unread : List Datum}
    (done : format.readItems ending fields (front ++ datum :: back) position value
      = .ok (after, unread)) :
    ∃ left, format.readItems ending fields (front ++ other :: back) position value
      = .ok (after, left) ∧ (left = [] ↔ unread = []) := by
  induction front generalizing fields position value with
  | nil =>
    cases fields with
    | nil =>
      cases done
      exact ⟨other :: back, rfl, by simp⟩
    | cons field fields =>
      simp only [List.nil_append, readItems] at done ⊢
      split at done
      next => cases done
      next between read =>
        have readOther : field.read other value = .ok between := keeps field rfl value between read
        rw [readOther]
        exact ⟨unread, done, Iff.rfl⟩
  | cons item front ih =>
    cases fields with
    | nil =>
      cases done
      exact ⟨item :: (front ++ other :: back), rfl, by simp⟩
    | cons field fields =>
      simp only [List.cons_append, readItems] at done ⊢
      split at done
      next => cases done
      next between read => exact ih keeps done

/-- Of the elements left over it only matters whether there are any. -/
theorem check_congr {surplus : Surplus} {length : Nat} {unread left : List Datum}
    {ending : Option Flaw} (same : left = [] ↔ unread = []) :
    surplus.check length left ending = surplus.check length unread ending := by
  cases left with
  | nil => rw [same.1 rfl]
  | cons first left =>
    cases unread with
    | nil => cases same.2 rfl
    | cons other unread => rfl

/-- An element may be replaced by one from which its field reads the same. -/
theorem keeps_list_replace {surplus : Surplus} {front back : List Datum} {ending : Option Flaw}
    {datum other : Datum} (keeps : ∀ field, format.fields[front.length]? = some field →
      ∀ before, Keeps (field.read · before) datum other) :
    Keeps (format.read surplus) (.list (front ++ datum :: back) ending)
      (.list (front ++ other :: back) ending) := by
  intro value done
  unfold read at done ⊢
  dsimp only at done ⊢
  split at done
  next => cases done
  next after unread entered =>
    obtain ⟨left, enteredOther, same⟩ := readItems_replace keeps entered
    have length : (front ++ other :: back).length = (front ++ datum :: back).length := by simp
    simp only [enteredOther, check_congr same, length]
    exact done

/-! ## What can be read is well formed -/

private theorem Enters.entry {members : List (Key × Datum)} {before after : α}
    (entered : format.Enters members before after) {entry : Key × Datum}
    (member : entry ∈ members) :
    (∃ field ∈ format.fields, entry.1 = .ok field.name ∧
      ∃ value result, field.read entry.2 value = .ok result) ∨
    ∃ name, entry.1 = .ok name ∧ name ∉ format.names := by
  induction entered with
  | nil => cases member
  | field known read _ ih =>
    rcases List.mem_cons.1 member with rfl | later
    · exact .inl ⟨_, known, rfl, _, _, read⟩
    · exact ih later
  | other unknown _ ih =>
    rcases List.mem_cons.1 member with rfl | later
    · exact .inr ⟨_, rfl, unknown⟩
    · exact ih later

theorem check_trailing_eq_ok_iff {length : Nat} {unread : List Datum} {ending : Option Flaw} :
    Surplus.trailing.check length unread ending = .ok () ↔ unread = [] ∧ ending = none := by
  cases unread with
  | nil =>
    cases ending with
    | none => exact iff_of_true rfl ⟨rfl, rfl⟩
    | some flaw =>
      simp only [Surplus.check, reduceCtorEq, and_false, iff_false]
      split <;> simp only [reduceCtorEq, not_false_eq_true]
  | cons item unread => simp only [Surplus.check, reduceCtorEq, false_and]

/-- A record is well formed if it can be read, since its fields are and other members can be passed
over. -/
theorem demands_wellFormed (distinct : format.names.Nodup)
    (fields : ∀ field ∈ format.fields, ∀ before, Demands (field.read · before) Datum.WellFormed) :
    Demands (format.read .trailing) Datum.WellFormed := by
  intro datum value done
  cases datum with
  | record members ending =>
    obtain ⟨rfl, sound, entered, _⟩ := (read_record_iff distinct).1 done
    refine Datum.wellFormed_record_iff.2 ⟨fun entry member => ?_, rfl⟩
    rcases entered.entry member with ⟨field, known, keyed, before, after, read⟩ |
      ⟨name, keyed, unknown⟩
    · exact ⟨keyed ▸ Key.wellFormed_ok _, fields field known before _ after read⟩
    · obtain ⟨same, isKey, passes⟩ := sound.keys entry member
      obtain rfl := Except.ok.inj (isKey.symm.trans keyed)
      exact ⟨keyed ▸ Key.wellFormed_ok _, passes unknown⟩
  | list items ending =>
    unfold read at done
    dsimp only at done
    split at done
    next => cases done
    next result unread entered =>
      obtain ⟨rfl, _, readable, _⟩ := readItems_ok entered
      split at done
      next => cases done
      next checked =>
        obtain ⟨nothing, rfl⟩ := check_trailing_eq_ok_iff.1 checked
        refine Datum.wellFormed_list_iff.2 ⟨fun item member => ?_, rfl⟩
        obtain ⟨index, inside, found⟩ := List.getElem_of_mem member
        rw [List.drop_eq_nil_iff] at nothing
        obtain ⟨field, place⟩ : ∃ field, format.fields[index]? = some field :=
          ⟨_, List.getElem?_eq_getElem (Nat.lt_of_lt_of_le inside nothing)⟩
        obtain ⟨before, after, read⟩ := readable index field item place
          (List.getElem?_eq_some_iff.2 ⟨inside, found⟩)
        exact fields field (List.mem_of_getElem? place) before item after read
  | _ => cases done

end RecordFormat

end GuildRoster
