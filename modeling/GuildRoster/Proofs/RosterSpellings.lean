import GuildRoster.Proofs.Json.DocumentForms
import GuildRoster.Proofs.MemberOrder
import GuildRoster.Store
import Mathlib.Logic.Relation

/-!
# Rosters however they are written

One roster has many documents. The changes below lead from one to another: members of a record
change places, members that are no fields come in, fields that hold their defaults go, at every
depth. A store that loads a roster from one document loads it from each of the others, too, whatever
form their data are written in.
-/

set_option autoImplicit false

namespace GuildRoster

open Relation (ReflTransGen)

variable {α β : Type}

/-! ## Changes -/

/-- The members of a record in a datum, at any depth, change places. -/
inductive Datum.Reorders : Datum → Datum → Prop where
  | here {members others : List (Key × Datum)} (same : members.Perm others) :
      Reorders (.record members none) (.record others none)
  | member {front back : List (Key × Datum)} {key : Key} {datum other : Datum}
      (changed : Reorders datum other) :
      Reorders (.record (front ++ (key, datum) :: back) none)
        (.record (front ++ (key, other) :: back) none)
  | element {front back : List Datum} {datum other : Datum} (changed : Reorders datum other) :
      Reorders (.list (front ++ datum :: back) none) (.list (front ++ other :: back) none)

/-- One element of a list is changed. -/
inductive Datum.InElement (changes : Datum → Datum → Prop) : Datum → Datum → Prop where
  | mk {front back : List Datum} {datum other : Datum} (changed : changes datum other) :
      InElement changes (.list (front ++ datum :: back) none) (.list (front ++ other :: back) none)

/-- One change to a record: its members change places, a member that is no field comes in, a field
that may be left out and holds its default goes, or the datum of one name is changed in one of the
ways that are meant for the name. -/
inductive RecordFormat.Rewrites (format : RecordFormat α)
    (changes : String → Datum → Datum → Prop) : Datum → Datum → Prop where
  | reorder {members others : List (Key × Datum)} (same : members.Perm others) :
      Rewrites format changes (.record members none) (.record others none)
  | insert {front back : List (Key × Datum)} {name document : String} {datum : Datum}
      (unknown : name ∉ format.names) (written : Json.DocumentForm document datum) :
      Rewrites format changes (.record (front ++ back) none)
        (.record (front ++ (.ok name, datum) :: back) none)
  | delete {front back : List (Key × Datum)} {field : Field α} {datum : Datum}
      (member : field ∈ format.fields) (optional : field.required = false)
      (default : field.read datum format.blank = .ok format.blank) :
      Rewrites format changes (.record (front ++ (.ok field.name, datum) :: back) none)
        (.record (front ++ back) none)
  | member {front back : List (Key × Datum)} {name : String} {datum other : Datum}
      (changed : changes name datum other) :
      Rewrites format changes (.record (front ++ (.ok name, datum) :: back) none)
        (.record (front ++ (.ok name, other) :: back) none)
  | element {front back : List Datum} {name : String} {datum other : Datum}
      (place : format.names[front.length]? = some name) (changed : changes name datum other) :
      Rewrites format changes (.list (front ++ datum :: back) none)
        (.list (front ++ other :: back) none)

def Membership.Rewrites : Datum → Datum → Prop :=
  Membership.format.Rewrites fun _ => Datum.Reorders

def PotionSlot.Rewrites : Datum → Datum → Prop :=
  PotionSlot.format.Rewrites fun _ => Datum.Reorders

def Rankings.Rewrites : Datum → Datum → Prop :=
  Rankings.format.Rewrites fun _ => Datum.Reorders

def Fortress.Rewrites : Datum → Datum → Prop :=
  Fortress.format.Rewrites fun _ => Datum.Reorders

/-- What can be changed about the member of a player that has some name. Members that are no fields
may hold records, too. -/
def Player.Changes (name : String) : Datum → Datum → Prop :=
  match name with
  | "membership" => Membership.Rewrites
  | "potions" => Datum.InElement PotionSlot.Rewrites
  | "rankings" => Rankings.Rewrites
  | "fortress" => Fortress.Rewrites
  | _ => Datum.Reorders

def Player.Rewrites : Datum → Datum → Prop :=
  (Player.format .trailing).Rewrites Player.Changes

/-- One change to how a roster is written. -/
def Roster.Rewrites : Datum → Datum → Prop := Datum.InElement Player.Rewrites

/-! ## Readers that do not mind -/

/-- A reader reads well-formed data only, and goes on reading the same after a change. -/
structure Tolerates (read : Datum → Except ReadError β) (changes : Datum → Datum → Prop) :
    Prop where
  wellFormed : Demands read Datum.WellFormed
  keeps : ∀ {datum other : Datum}, changes datum other → Keeps read datum other

theorem Keeps.trans {read : Datum → Except ReadError β} {first second third : Datum}
    (keeps : Keeps read first second) (others : Keeps read second third) :
    Keeps read first third :=
  fun value done => others value (keeps value done)

/-- Changes in their order are as harmless as each of them. -/
theorem Tolerates.keeps_all {read : Datum → Except ReadError β} {changes : Datum → Datum → Prop}
    (tolerates : Tolerates read changes) {datum other : Datum}
    (changed : ReflTransGen changes datum other) : Keeps read datum other := by
  induction changed with
  | refl => exact fun _ done => done
  | tail _ last ih => exact ih.trans (tolerates.keeps last)

theorem Datum.Reorders.wellFormed {datum other : Datum} (changed : datum.Reorders other)
    (sound : datum.WellFormed) : other.WellFormed := by
  induction changed with
  | here same =>
    rw [wellFormed_record_iff] at sound ⊢
    exact ⟨fun entry member => sound.1 entry (same.mem_iff.2 member), rfl⟩
  | member _ ih =>
    simp only [wellFormed_record_iff, List.forall_mem_append, List.forall_mem_cons] at sound ⊢
    obtain ⟨⟨front, ⟨key, datum⟩, back⟩, ended⟩ := sound
    exact ⟨⟨front, ⟨key, ih datum⟩, back⟩, ended⟩
  | element _ ih =>
    simp only [wellFormed_list_iff, List.forall_mem_append, List.forall_mem_cons] at sound ⊢
    obtain ⟨⟨front, datum, back⟩, ended⟩ := sound
    exact ⟨⟨front, ih datum, back⟩, ended⟩

/-! ### Single data -/

/-- A datum that can be read and has no parts. -/
def Datum.IsSingle : Datum → Prop
  | list _ _ | record _ _ | unreadable _ => False
  | _ => True

theorem Datum.readSigned64_demands : Demands readSigned64 IsSingle := by
  intro datum value done
  cases datum <;> trivial

theorem Datum.readByte_demands : Demands readByte IsSingle := by
  intro datum value done
  cases datum <;> trivial

theorem Datum.readText_demands (expected : Expectation) : Demands (readText expected) IsSingle := by
  intro datum value done
  cases datum <;> trivial

theorem GuildRole.read_demands : Demands GuildRole.read Datum.IsSingle := by
  intro datum role done
  obtain ⟨index, found, _⟩ := except_bind_eq_ok_iff.1 done
  exact Datum.readByte_demands datum index found

/-- In single data there is nothing to put in another order. -/
theorem tolerates_of_single {read : Datum → Except ReadError β}
    (demands : Demands read Datum.IsSingle) : Tolerates read Datum.Reorders where
  wellFormed datum value done := by
    have single := demands datum value done
    cases datum <;> first | rfl | cases single
  keeps changed value done := by
    have single := demands _ value done
    cases changed <;> cases single

/-! ### Data that may be left out -/

private theorem readOptional_eq_ok_iff {read : Datum → Except ReadError β} {datum : Datum}
    (notNull : datum ≠ .null) {content : Option β} :
    datum.readOptional read = .ok content ↔
      ∃ value, read datum = .ok value ∧ some value = content := by
  rw [Datum.readOptional.eq_2 _ _ notNull]
  cases read datum <;> simp [Functor.map, Except.map]

theorem Datum.readOptional_tolerates {read : Datum → Except ReadError β}
    {changes : Datum → Datum → Prop} (tolerates : Tolerates read changes)
    (never : ∀ datum, ¬ changes .null datum ∧ ¬ changes datum .null) :
    Tolerates (readOptional read) changes where
  wellFormed datum content done := by
    by_cases isNull : datum = .null
    · subst isNull
      rfl
    · obtain ⟨value, found, _⟩ := (readOptional_eq_ok_iff isNull).1 done
      exact tolerates.wellFormed datum value found
  keeps := by
    intro datum other changed content done
    have notNull : datum ≠ .null := fun same => (never other).1 (same ▸ changed)
    have otherNotNull : other ≠ .null := fun same => (never datum).2 (same ▸ changed)
    obtain ⟨value, found, same⟩ := (readOptional_eq_ok_iff notNull).1 done
    exact (readOptional_eq_ok_iff otherNotNull).2 ⟨value, tolerates.keeps changed value found, same⟩

/-! ### Lists -/

section Lists

variable {read : Datum → Except ReadError β} {changes : Datum → Datum → Prop}

theorem Datum.readItems_cons_eq_ok_iff {item : Datum} {items : List Datum} {ending : Option Flaw}
    {values : List β} : readItems read ending (item :: items) = .ok values ↔
      ∃ value others, read item = .ok value ∧ readItems read ending items = .ok others ∧
        values = value :: others := by
  rw [readItems]
  cases read item with
  | error cause => simp
  | ok value => cases readItems read ending items <;> simp [eq_comm]

theorem Datum.readItems_nil_eq_ok_iff {ending : Option Flaw} {values : List β} :
    readItems read ending [] = .ok values ↔ ending = none ∧ values = [] := by
  cases ending <;> simp [readItems, eq_comm]

theorem Datum.readItems_eq_ok_nil_iff {items : List Datum} {ending : Option Flaw} :
    readItems read ending items = .ok [] ↔ items = [] ∧ ending = none := by
  cases items with
  | nil => simp [readItems_nil_eq_ok_iff]
  | cons item items => simp [readItems_cons_eq_ok_iff]

theorem Datum.readItems_wellFormed (wellFormed : Demands read Datum.WellFormed)
    {items : List Datum} {ending : Option Flaw} {values : List β}
    (done : readItems read ending items = .ok values) :
    (∀ item ∈ items, item.WellFormed) ∧ ending = none := by
  induction items generalizing values with
  | nil =>
    cases ending with
    | none => exact ⟨List.forall_mem_nil _, rfl⟩
    | some flaw => cases done
  | cons item items ih =>
    obtain ⟨value, others, found, more, _⟩ := readItems_cons_eq_ok_iff.1 done
    obtain ⟨sound, ended⟩ := ih more
    exact ⟨List.forall_mem_cons.2 ⟨wellFormed item value found, sound⟩, ended⟩

theorem Datum.readItems_keeps {datum other : Datum} (keeps : Keeps read datum other)
    {front back : List Datum} {ending : Option Flaw} {values : List β}
    (done : readItems read ending (front ++ datum :: back) = .ok values) :
    readItems read ending (front ++ other :: back) = .ok values := by
  induction front generalizing values with
  | nil =>
    obtain ⟨value, others, found, more, same⟩ := readItems_cons_eq_ok_iff.1 done
    exact readItems_cons_eq_ok_iff.2 ⟨value, others, keeps value found, more, same⟩
  | cons item front ih =>
    obtain ⟨value, others, found, more, same⟩ := readItems_cons_eq_ok_iff.1 done
    exact readItems_cons_eq_ok_iff.2 ⟨value, others, found, ih more, same⟩

theorem Datum.readList_tolerates (tolerates : Tolerates read changes) :
    Tolerates (readList read) (InElement changes) where
  wellFormed datum values done := by
    cases datum with
    | list items ending =>
      obtain ⟨sound, rfl⟩ := readItems_wellFormed tolerates.wellFormed done
      exact wellFormed_list_iff.2 ⟨sound, rfl⟩
    | _ => cases done
  keeps changed values done := by
    cases changed with
    | mk changed => exact readItems_keeps (tolerates.keeps changed) done

/-- Three data in a list are read like a list of any length. -/
theorem Datum.readTriple_eq_ok_iff {datum : Datum} {first second third : β} :
    datum.readTriple .trailing read = .ok (first, second, third) ↔
      datum.readList read = .ok [first, second, third] := by
  cases datum with
  | list items ending =>
    match items with
    | [] => simp [readTriple, readList, readItems_nil_eq_ok_iff]
    | [item] =>
      simp [readTriple, readList, readItems_nil_eq_ok_iff, readItems_cons_eq_ok_iff,
        except_bind_eq_ok_iff]
    | [item, other] =>
      simp [readTriple, readList, readItems_nil_eq_ok_iff, readItems_cons_eq_ok_iff,
        except_bind_eq_ok_iff]
    | item :: other :: last :: unread =>
      simp only [readTriple, readList, except_bind_eq_ok_iff, readItems_cons_eq_ok_iff, pure,
        Except.pure]
      constructor
      · rintro ⟨_, readFirst, _, readSecond, _, readThird, _, checked, ⟨⟩⟩
        obtain ⟨rfl, rfl⟩ := RecordFormat.check_trailing_eq_ok_iff.1 checked
        exact ⟨_, _, readFirst, ⟨_, _, readSecond, ⟨_, _, readThird, rfl, rfl⟩, rfl⟩, rfl⟩
      · rintro ⟨_, _, readFirst, ⟨_, _, readSecond, ⟨_, _, readThird, ended, rfl⟩, rfl⟩, ⟨⟩⟩
        obtain ⟨rfl, rfl⟩ := readItems_eq_ok_nil_iff.1 ended
        exact ⟨_, readFirst, _, readSecond, _, readThird, _, rfl, rfl⟩
  | _ => exact iff_of_false nofun nofun

end Lists

theorem PotionBelt.read_eq_ok_iff {datum : Datum} {belt : PotionBelt} :
    PotionBelt.read .trailing datum = .ok belt ↔
      datum.readList (PotionSlot.format.read .trailing) = .ok belt.toList := by
  rw [PotionBelt.read, except_bind_eq_ok_iff, PotionBelt.toList, ← Datum.readTriple_eq_ok_iff]
  constructor
  · rintro ⟨_, read, ⟨⟩⟩
    exact read
  · exact fun read => ⟨_, read, rfl⟩

/-! ### Records -/

namespace Field

variable {name : String} {read : Datum → Except ReadError β} {enter : β → α → α}
  {changes : Datum → Datum → Prop}

private theorem entering_tolerates (tolerates : Tolerates read changes) (before : α) :
    Tolerates (fun datum => return enter (← read datum) before) changes where
  wellFormed datum after done := by
    obtain ⟨value, found, _⟩ := except_bind_eq_ok_iff.1 done
    exact tolerates.wellFormed datum value found
  keeps changed after done := by
    obtain ⟨value, found, entered⟩ := except_bind_eq_ok_iff.1 done
    exact except_bind_eq_ok_iff.2 ⟨value, tolerates.keeps changed value found, entered⟩

theorem optional_tolerates (tolerates : Tolerates read changes) (before : α) :
    Tolerates ((Field.optional name read enter).read · before) changes :=
  entering_tolerates tolerates before

theorem mandatory_tolerates (tolerates : Tolerates read changes) (before : α) :
    Tolerates ((Field.mandatory name read enter).read · before) changes :=
  entering_tolerates tolerates before

end Field

namespace RecordFormat

variable {format : RecordFormat α} {changes : String → Datum → Datum → Prop}

/-- A record tolerates every change if its fields tolerate what is changed about them. -/
theorem tolerates (distinct : format.names.Nodup) (orderless : format.Orderless)
    (fields : ∀ field ∈ format.fields, ∀ before,
      Tolerates (field.read · before) (changes field.name))
    (others : ∀ name ∉ format.names, ∀ {datum other}, changes name datum other →
      datum.WellFormed → other.WellFormed) :
    Tolerates (format.read .trailing) (format.Rewrites changes) where
  wellFormed := demands_wellFormed distinct fun field member before =>
    (fields field member before).wellFormed
  keeps := by
    intro datum other changed
    -- A member in the middle is moved to the front, and back when the change is made.
    have toFront {front back : List (Key × Datum)} {entry : Key × Datum} :
        Keeps (format.read .trailing) (.record (front ++ entry :: back) none)
          (.record (entry :: (front ++ back)) none) :=
      keeps_perm distinct orderless List.perm_middle
    have toMiddle {front back : List (Key × Datum)} {entry : Key × Datum} :
        Keeps (format.read .trailing) (.record (entry :: (front ++ back)) none)
          (.record (front ++ entry :: back) none) :=
      keeps_perm distinct orderless List.perm_middle.symm
    cases changed with
    | reorder same => exact keeps_perm distinct orderless same
    | insert unknown written =>
      have wellFormed := (Json.documentForm_iff.1 written).2
      exact (keeps_insert distinct unknown wellFormed).trans toMiddle
    | delete member optional default =>
      exact toFront.trans (keeps_delete distinct member optional default)
    | @member front back name datum other changed =>
      refine toFront.trans (.trans (keeps_replace distinct ?_ ?_) toMiddle)
      · exact fun unknown => others name (fun known => unknown name known rfl) changed
      · intro field member same before
        cases same
        exact (fields field member before).keeps changed
    | @element front back name datum other place changed =>
      refine keeps_list_replace fun field found before => ?_
      obtain ⟨known, found', same⟩ := getElem?_names.1 place
      obtain rfl : known = field := Option.some.inj (found'.symm.trans found)
      exact (fields known (List.mem_of_getElem? found) before).keeps (same ▸ changed)

end RecordFormat

/-! ## Parts of a roster -/

theorem Membership.orderless : Membership.format.Orderless := by
  simp only [RecordFormat.Orderless, Membership.format, List.pairwise_cons, List.forall_mem_cons,
    List.not_mem_nil, IsEmpty.forall_iff, implies_true, List.Pairwise.nil, and_true]
  and_intros <;> exact Field.commutes_of_enter fun _ _ _ => rfl

theorem PotionSlot.orderless : PotionSlot.format.Orderless := by
  simp only [RecordFormat.Orderless, PotionSlot.format, List.pairwise_cons, List.forall_mem_cons,
    List.not_mem_nil, IsEmpty.forall_iff, implies_true, List.Pairwise.nil, and_true]
  exact Field.commutes_of_enter fun _ _ _ => rfl

theorem Rankings.orderless : Rankings.format.Orderless := by
  simp only [RecordFormat.Orderless, Rankings.format, List.pairwise_cons, List.forall_mem_cons,
    List.not_mem_nil, IsEmpty.forall_iff, implies_true, List.Pairwise.nil, and_true]
  and_intros <;> exact Field.commutes_of_enter fun _ _ _ => rfl

theorem Fortress.orderless : Fortress.format.Orderless := by
  simp only [RecordFormat.Orderless, Fortress.format, List.pairwise_cons, List.forall_mem_cons,
    List.not_mem_nil, IsEmpty.forall_iff, implies_true, List.Pairwise.nil, and_true]
  and_intros <;> exact Field.commutes_of_enter fun _ _ _ => rfl

theorem Player.orderless (surplus : Surplus) : (Player.format surplus).Orderless := by
  simp only [RecordFormat.Orderless, Player.format, List.pairwise_cons, List.forall_mem_cons,
    List.not_mem_nil, IsEmpty.forall_iff, implies_true, List.Pairwise.nil, and_true]
  and_intros <;> exact Field.commutes_of_enter fun _ _ _ => rfl

theorem Membership.tolerates : Tolerates (Membership.format.read .trailing) Rewrites := by
  have number := tolerates_of_single Datum.readSigned64_demands
  refine RecordFormat.tolerates (by decide) orderless ?_ fun _ _ _ _ => Datum.Reorders.wellFormed
  simp only [Membership.format, List.forall_mem_cons]
  exact ⟨Field.mandatory_tolerates (tolerates_of_single GuildRole.read_demands),
    Field.optional_tolerates number, Field.optional_tolerates number,
    Field.optional_tolerates number, Field.optional_tolerates number, List.forall_mem_nil _⟩

theorem PotionSlot.tolerates : Tolerates (PotionSlot.format.read .trailing) Rewrites := by
  have number := tolerates_of_single Datum.readSigned64_demands
  refine RecordFormat.tolerates (by decide) orderless ?_ fun _ _ _ _ => Datum.Reorders.wellFormed
  simp only [PotionSlot.format, List.forall_mem_cons]
  exact ⟨Field.mandatory_tolerates (tolerates_of_single Datum.readByte_demands),
    Field.mandatory_tolerates number, List.forall_mem_nil _⟩

theorem PotionBelt.tolerates :
    Tolerates (PotionBelt.read .trailing) (Datum.InElement PotionSlot.Rewrites) where
  wellFormed datum belt done :=
    (Datum.readList_tolerates PotionSlot.tolerates).wellFormed datum belt.toList
      (read_eq_ok_iff.1 done)
  keeps changed belt done :=
    read_eq_ok_iff.2 ((Datum.readList_tolerates PotionSlot.tolerates).keeps changed belt.toList
      (read_eq_ok_iff.1 done))

theorem Rankings.tolerates : Tolerates (Rankings.format.read .trailing) Rewrites := by
  have number := tolerates_of_single Datum.readSigned64_demands
  refine RecordFormat.tolerates (by decide) orderless ?_ fun _ _ _ _ => Datum.Reorders.wellFormed
  simp only [Rankings.format, List.forall_mem_cons]
  exact ⟨Field.optional_tolerates number, Field.optional_tolerates number,
    Field.optional_tolerates number, Field.optional_tolerates number, List.forall_mem_nil _⟩

theorem Fortress.tolerates : Tolerates (Fortress.format.read .trailing) Rewrites := by
  have number := tolerates_of_single Datum.readSigned64_demands
  refine RecordFormat.tolerates (by decide) orderless ?_ fun _ _ _ _ => Datum.Reorders.wellFormed
  simp only [Fortress.format, List.forall_mem_cons]
  exact ⟨Field.optional_tolerates number, Field.optional_tolerates number,
    Field.optional_tolerates number, Field.optional_tolerates number,
    Field.optional_tolerates number, List.forall_mem_nil _⟩

theorem Player.tolerates : Tolerates (Player.read .trailing) Rewrites := by
  have text := tolerates_of_single (Datum.readText_demands .string)
  have guild := Datum.readOptional_tolerates text fun _ => ⟨nofun, nofun⟩
  have membership := Datum.readOptional_tolerates Membership.tolerates fun _ => ⟨nofun, nofun⟩
  have number := tolerates_of_single Datum.readSigned64_demands
  have byte := tolerates_of_single Datum.readByte_demands
  refine RecordFormat.tolerates (by decide) (orderless .trailing) ?fields ?others
  case fields =>
    simp only [Player.format, List.forall_mem_cons]
    exact ⟨Field.optional_tolerates text, Field.optional_tolerates guild,
      Field.optional_tolerates membership, Field.optional_tolerates number,
      Field.optional_tolerates number, Field.optional_tolerates number,
      Field.optional_tolerates number, Field.optional_tolerates number,
      Field.optional_tolerates number, Field.optional_tolerates byte,
      Field.optional_tolerates byte, Field.optional_tolerates byte,
      Field.optional_tolerates number, Field.optional_tolerates number,
      Field.optional_tolerates number, Field.optional_tolerates number,
      Field.optional_tolerates number, Field.optional_tolerates number,
      Field.optional_tolerates number, Field.optional_tolerates PotionBelt.tolerates,
      Field.optional_tolerates Rankings.tolerates, Field.optional_tolerates Fortress.tolerates,
      List.forall_mem_nil _⟩
  case others =>
    intro name unknown datum other changed
    unfold Changes at changed
    split at changed
    · exact absurd (by decide) unknown
    · exact absurd (by decide) unknown
    · exact absurd (by decide) unknown
    · exact absurd (by decide) unknown
    · exact changed.wellFormed

theorem Roster.tolerates : Tolerates (Datum.readList (Player.read .trailing)) Rewrites :=
  Datum.readList_tolerates Player.tolerates

/-! ## Documents -/

/-- The documents of a roster are the forms of the data that read as the roster. -/
theorem Roster.read_eq_ok_iff {document : String} {roster : Roster} :
    Roster.read document = .ok roster ↔
      ∃ datum, Json.DocumentForm document datum ∧
        datum.readList (Player.read .trailing) = .ok roster := by
  constructor
  · intro done
    unfold Roster.read at done
    cases whole : Json.read document with
    | mk datum trailing =>
      rw [whole] at done
      obtain ⟨found, read, ended⟩ := except_bind_eq_ok_iff.1 done
      cases trailing with
      | true => cases ended
      | false =>
        cases ended
        exact ⟨datum, Json.documentForm_iff.2 ⟨whole, tolerates.wellFormed _ _ read⟩, read⟩
  · rintro ⟨datum, written, read⟩
    rw [Roster.read, (Json.documentForm_iff.1 written).1]
    exact except_bind_eq_ok_iff.2 ⟨roster, read, rfl⟩

namespace Store

variable {store : Store} {tree : FileTree} {key : String} {roster : Roster}

theorem load_eq_ok_iff : store.load tree key = .ok roster ↔
    ∃ document, tree.read (store.path key) = .ok document ∧ Roster.read document = .ok roster := by
  unfold load
  cases tree.read (store.path key) with
  | error cause => simp
  | ok document => cases read : Roster.read document <;> simp [read]

/-- A store that loads a roster has a form of some data in its file. Let these data be rewritten any
number of times, and let any form of what comes out be in the file: the store loads the same
roster. -/
theorem load_rewritten (loaded : store.load tree key = .ok roster) :
    ∃ document, tree.read (store.path key) = .ok document ∧
      (∃ datum, Json.DocumentForm document datum) ∧
      ∀ datum other otherDocument otherTree, Json.DocumentForm document datum →
        ReflTransGen Roster.Rewrites datum other → Json.DocumentForm otherDocument other →
        otherTree.read (store.path key) = .ok otherDocument →
        store.load otherTree key = .ok roster := by
  obtain ⟨document, stored, read⟩ := load_eq_ok_iff.1 loaded
  obtain ⟨found, written, reads⟩ := Roster.read_eq_ok_iff.1 read
  refine ⟨document, stored, ⟨found, written⟩, ?_⟩
  intro datum other otherDocument otherTree form rewritten otherForm otherStored
  -- A document is a form of one datum only.
  obtain rfl : found = datum := congrArg Prod.fst
    ((Json.documentForm_iff.1 written).1.symm.trans (Json.documentForm_iff.1 form).1)
  have kept := Roster.tolerates.keeps_all rewritten roster reads
  exact load_eq_ok_iff.2
    ⟨otherDocument, otherStored, Roster.read_eq_ok_iff.2 ⟨other, otherForm, kept⟩⟩

/-! A member of a guild, and the same one with a default left out, a member put in, and all members
the other way round. -/

private def plainDocument : String :=
  "[\x7b\"name\":\"A\",\"membership\":\x7b\"role\":3,\"pet\":0\x7d,\"level\":2\x7d]"

private def otherDocument : String :=
  " [\x7b \"level\" : 2, \"note\":\x7b\"a\":[]\x7d,\n" ++
    "\"membership\":\x7b\"role\":3\x7d, \"name\":\"\\u0041\"\x7d]\n"

private def nameMember : Key × Datum := (.ok "name", .text "A")

private def roleMember : Key × Datum := (.ok "role", .integer 3)

private def petMember : Key × Datum := (.ok "pet", .integer 0)

private def levelMember : Key × Datum := (.ok "level", .integer 2)

private def note : Datum := .record [(.ok "a", .list [] none)] none

private def plainDatum : Datum :=
  .list [.record [nameMember, (.ok "membership", .record [roleMember, petMember] none),
    levelMember] none] none

private def otherDatum : Datum :=
  .list [.record [levelMember, (.ok "note", note), (.ok "membership", .record [roleMember] none),
    nameMember] none] none

private theorem documents_read : Json.read plainDocument = (plainDatum, false) ∧
    Json.read otherDocument = (otherDatum, false) ∧
    Json.read "\x7b\"a\":[]\x7d" = (note, false) := by
  have lines : otherDocument.toList = _ ++ _ := String.toList_append
  refine ⟨?_, ?_, ?_⟩ <;> simp [lines, plainDocument, plainDatum, otherDatum, nameMember,
    roleMember, petMember, levelMember, note, Json.read, Json.value, Json.items, Json.members,
    Json.skipFiller, Json.isFiller, Json.text, Json.readText, Json.hexUnit?, Text.numberOf?,
    Text.digit?, Json.isLeading, Json.isTrailing, Json.digit?, Json.takeDigits, Json.Numeral.take,
    Json.Numeral.takeFraction, Json.Numeral.takePower, Json.Numeral.datum, Json.ofDigits, Bind.bind,
    Except.bind, Pure.pure, Except.pure]

private theorem plainDatum_rewrites : ReflTransGen Roster.Rewrites plainDatum otherDatum := by
  have player {datum other : Datum} (changed : Player.Rewrites datum other) :
      Roster.Rewrites (.list [datum] none) (.list [other] none) :=
    @Datum.InElement.mk _ [] [] _ _ changed
  have pet : Membership.Rewrites (.record [roleMember, petMember] none)
      (.record [roleMember] none) :=
    @RecordFormat.Rewrites.delete _ _ _ [roleMember] []
      (.optional "pet" Datum.readSigned64 fun pet figures => { figures with pet }) _
      (by simp [Membership.format]) rfl rfl
  have delete : Player.Rewrites
      (.record [nameMember, (.ok "membership", .record [roleMember, petMember] none), levelMember]
        none)
      (.record [nameMember, (.ok "membership", .record [roleMember] none), levelMember] none) :=
    @RecordFormat.Rewrites.member _ _ _ [nameMember] [levelMember] "membership" _ _ pet
  have insert : Player.Rewrites
      (.record [nameMember, (.ok "membership", .record [roleMember] none), levelMember] none)
      (.record [nameMember, (.ok "membership", .record [roleMember] none), (.ok "note", note),
        levelMember] none) :=
    @RecordFormat.Rewrites.insert _ _ _
      [nameMember, (.ok "membership", .record [roleMember] none)] [levelMember] "note"
      "\x7b\"a\":[]\x7d" _ (by decide) (Json.documentForm_iff.2 ⟨documents_read.2.2, rfl⟩)
  exact .tail (.tail (.single (player delete)) (player insert))
    (player (.reorder (List.reverse_perm _).symm))

theorem load_rewritten_backwards :
    load ⟨⟨['r']⟩⟩ ⟨[([['r']], .directory),
        ([['r'], "a.json".toList], .file (.text plainDocument))], []⟩ "a"
      = .ok [{ name := "A", membership := some { role := .member }, level := 2 }] ∧
    load ⟨⟨['r']⟩⟩ ⟨[([['r']], .directory),
        ([['r'], "a.json".toList], .file (.text otherDocument))], []⟩ "a"
      = .ok [{ name := "A", membership := some { role := .member }, level := 2 }] := by
  have plain : Json.DocumentForm plainDocument plainDatum :=
    Json.documentForm_iff.2 ⟨documents_read.1, rfl⟩
  have other : Json.DocumentForm otherDocument otherDatum :=
    Json.documentForm_iff.2 ⟨documents_read.2.1, rfl⟩
  have loaded : load ⟨⟨['r']⟩⟩ ⟨[([['r']], .directory),
        ([['r'], "a.json".toList], .file (.text plainDocument))], []⟩ "a"
      = .ok [{ name := "A", membership := some { role := .member }, level := 2 }] :=
    load_eq_ok_iff.2 ⟨plainDocument, rfl, Roster.read_eq_ok_iff.2 ⟨plainDatum, plain, rfl⟩⟩
  obtain ⟨document, stored, _, others⟩ := load_rewritten loaded
  cases stored
  exact ⟨loaded, others _ _ _ _ plain plainDatum_rewrites other rfl⟩

end Store

end GuildRoster
