import GuildRoster.Proofs.RecordTypes
import GuildRoster.Proofs.WellFormedData
import GuildRoster.Toml.Reader
import Mathlib.Data.List.Nodup

/-!
# The data of TOML documents

What a TOML document holds is always whole: no key occurs twice in a table, keys are texts, and
nothing breaks off. So a table of a document can be read as a record whatever its keys are, and its
values are the data that TOML has.
-/

set_option autoImplicit false

namespace GuildRoster

/-- A table, or a list of what stands in it. -/
def Datum.IsTable (datum : Datum) : Prop :=
  (∃ members, datum = .record members none) ∨ ∃ items, datum = .list items none

namespace Toml

/-! ## Values -/

/-- The data that TOML has. -/
inductive IsValue : Datum → Prop where
  | boolean (flag : Bool) : IsValue (.boolean flag)
  | integer (number : Int) : IsValue (.integer number)
  | decimal (number : Float) : IsValue (.decimal number)
  | text (characters : String) : IsValue (.text characters)
  | moment : IsValue pointInTime
  | list {items : List Datum} (each : ∀ item ∈ items, IsValue item) : IsValue (.list items none)
  | table {members : List (String × Datum)} (distinct : (members.map Prod.fst).Nodup)
      (each : ∀ member ∈ members, IsValue member.2) :
      IsValue (.record (members.map fun member => (.ok member.1, member.2)) none)

namespace IsValue

variable {datum found : Datum} {names : List String} {name : String}

theorem wellFormed (value : IsValue datum) : datum.WellFormed := by
  induction value with
  | boolean => rfl
  | integer => rfl
  | decimal => rfl
  | text => rfl
  | moment => rfl
  | list _ ih => exact Datum.wellFormed_list_iff.2 ⟨ih, rfl⟩
  | table _ _ ih =>
    refine Datum.wellFormed_record_iff.2 ⟨fun entry member => ?_, rfl⟩
    obtain ⟨given, among, rfl⟩ := List.mem_map.1 member
    exact ⟨Key.wellFormed_ok _, ih given among⟩

theorem ne_null (value : IsValue datum) : datum ≠ .null := by
  rintro rfl
  cases value

/-- Tables and lists have the form of any record. -/
theorem isRecord_iff (value : IsValue datum) : datum.IsRecord names ↔ datum.IsTable := by
  refine ⟨?_, fun form => ?_⟩
  · intro form
    cases value with
    | moment => exact .inl ⟨_, rfl⟩
    | list => exact .inr ⟨_, rfl⟩
    | table => exact .inl ⟨_, rfl⟩
    | _ => exact form.elim
  cases value with
  | moment =>
    refine ⟨⟨fun entry member => ?_, by simp, List.pairwise_singleton _ _⟩, rfl⟩
    rw [List.mem_singleton.1 member]
    exact ⟨"", rfl, fun _ => rfl⟩
  | list => exact .inr rfl
  | @table members distinct each =>
    refine ⟨⟨fun entry member => ?_, by simp, List.pairwise_map.2 ?_⟩, rfl⟩
    · obtain ⟨given, among, rfl⟩ := List.mem_map.1 member
      exact ⟨given.1, rfl, fun _ => (each given among).wellFormed⟩
    · refine (List.pairwise_map.1 distinct).imp fun {given other} apart name _ first second => ?_
      exact apart ((Except.ok.inj first).trans (Except.ok.inj second).symm)
  | _ => simp [Datum.IsTable] at form

/-- What a value gives for a key is a value. -/
theorem of_gives (value : IsValue datum) (given : datum.Gives names name found)
    (named : "" ∉ names) : IsValue found := by
  cases value with
  | moment =>
    obtain ⟨known, given⟩ := given
    cases List.mem_singleton.1 given
    exact absurd known named
  | list each =>
    obtain ⟨position, _, given⟩ := given
    exact each found (List.mem_of_getElem? given)
  | table _ each =>
    obtain ⟨member, among, same⟩ := List.mem_map.1 given.2
    cases same
    exact each member among
  | _ => exact given.elim

theorem isTable_of_gives (value : IsValue datum) (given : datum.Gives names name found) :
    datum.IsTable := by
  cases value with
  | moment => exact .inl ⟨_, rfl⟩
  | list => exact .inr ⟨_, rfl⟩
  | table => exact .inl ⟨_, rfl⟩
  | _ => exact given.elim

/-- A value gives one datum for a key. -/
theorem gives_unique (value : IsValue datum) (distinct : names.Nodup) {other : Datum}
    (given : datum.Gives names name found) (also : datum.Gives names name other) :
    found = other := by
  cases value with
  | moment =>
    cases List.mem_singleton.1 given.2
    cases List.mem_singleton.1 also.2
    rfl
  | list =>
    obtain ⟨position, named, given⟩ := given
    obtain ⟨place, alsoNamed, also⟩ := also
    obtain ⟨inside, _⟩ := List.getElem?_eq_some_iff.1 named
    obtain rfl := (List.getElem?_inj inside distinct).1 (named.trans alsoNamed.symm)
    exact Option.some.inj (given.symm.trans also)
  | table apart =>
    obtain ⟨member, among, same⟩ := List.mem_map.1 given.2
    obtain ⟨second, amongAlso, sameAlso⟩ := List.mem_map.1 also.2
    rw [Prod.mk.injEq, Except.ok.injEq] at same sameAlso
    obtain rfl := List.inj_on_of_nodup_map apart among amongAlso (same.1.trans sameAlso.1.symm)
    exact same.2.symm.trans sameAlso.2
  | _ => exact given.elim

end IsValue

/-! ## Entries -/

/-- An entry that holds values, with no key twice in any of its tables. -/
inductive Entry.Sound : Entry → Prop where
  | value {datum : Datum} (value : IsValue datum) : Entry.Sound (.value datum)
  | table {origin : Origin} {entries : Entries} (distinct : (entries.map Prod.fst).Nodup)
      (each : ∀ entry ∈ entries, Entry.Sound entry.2) : Entry.Sound (.table origin entries)
  | tables {elements : List Entries}
      (distinct : ∀ entries ∈ elements, (entries.map Prod.fst).Nodup)
      (each : ∀ entries ∈ elements, ∀ entry ∈ entries, Entry.Sound entry.2) :
      Entry.Sound (.tables elements)

namespace Entries

structure Sound (entries : Entries) : Prop where
  distinct : (entries.map Prod.fst).Nodup
  each : ∀ entry ∈ entries, entry.2.Sound

end Entries

namespace Entry

theorem sound_table_iff {origin : Origin} {entries : Entries} :
    (Entry.table origin entries).Sound ↔ entries.Sound := by
  constructor
  · rintro (_ | ⟨distinct, each⟩)
    exact ⟨distinct, each⟩
  · exact fun sound => .table sound.distinct sound.each

theorem sound_tables_iff {elements : List Entries} :
    (Entry.tables elements).Sound ↔ ∀ entries ∈ elements, entries.Sound := by
  constructor
  · rintro (_ | _ | ⟨distinct, each⟩) entries member
    exact ⟨distinct entries member, each entries member⟩
  · intro sound
    exact .tables (fun entries member => (sound entries member).distinct)
      fun entries member => (sound entries member).each

end Entry

theorem membersOf_eq_map (entries : Entries) : membersOf entries =
    (entries.map fun entry => (entry.1, entry.2.datum)).map fun member =>
      (.ok member.1, member.2) := by
  induction entries with
  | nil => rfl
  | cons entry entries ih => rw [membersOf, ih]; rfl

theorem mem_recordsOf {elements : List Entries} {datum : Datum}
    (member : datum ∈ recordsOf elements) :
    ∃ entries ∈ elements, datum = .record (membersOf entries) none := by
  induction elements with
  | nil => cases member
  | cons entries elements ih =>
    rcases List.mem_cons.1 member with rfl | later
    · exact ⟨entries, List.mem_cons_self, rfl⟩
    · obtain ⟨others, among, same⟩ := ih later
      exact ⟨others, List.mem_cons_of_mem _ among, same⟩

private theorem isValue_table {entries : Entries} (distinct : (entries.map Prod.fst).Nodup)
    (each : ∀ entry ∈ entries, IsValue entry.2.datum) :
    IsValue (.record (membersOf entries) none) := by
  rw [membersOf_eq_map]
  refine .table ?_ ?_
  · rw [List.map_map]
    exact distinct
  · intro member among
    obtain ⟨entry, given, rfl⟩ := List.mem_map.1 among
    exact each entry given

theorem Entry.Sound.isValue {entry : Entry} (sound : entry.Sound) : IsValue entry.datum := by
  induction sound with
  | value value => exact value
  | table distinct _ ih => exact isValue_table distinct ih
  | tables distinct _ ih =>
    refine .list fun item member => ?_
    obtain ⟨entries, among, rfl⟩ := mem_recordsOf member
    exact isValue_table (distinct entries among) (ih entries among)

namespace Entries

variable {entries after : Entries} {key : String} {entry : Entry} {value : Datum}

namespace Sound

theorem nil : Sound [] := ⟨List.nodup_nil, by simp⟩

theorem isValue (sound : entries.Sound) : IsValue (.record (membersOf entries) none) :=
  isValue_table sound.distinct fun entry member => (sound.each entry member).isValue

theorem of_lookup (sound : entries.Sound) (found : entries.lookup key = some entry) :
    entry.Sound := by
  obtain ⟨before, others, rfl, _⟩ := List.lookup_eq_some_iff.1 found
  exact sound.each (key, entry) (by simp)

theorem append (sound : entries.Sound) (new : entries.lookup key = none) (whole : entry.Sound) :
    Sound (entries ++ [(key, entry)]) := by
  have absent : key ∉ entries.map Prod.fst := by
    intro member
    obtain ⟨earlier, among, rfl⟩ := List.mem_map.1 member
    simpa using List.lookup_eq_none_iff.1 new earlier among
  refine ⟨?_, ?_⟩
  · rw [List.map_append]
    refine sound.distinct.append (List.nodup_singleton key) ?_
    exact List.disjoint_singleton.2 absent
  · intro other member
    rcases List.mem_append.1 member with earlier | last
    · exact sound.each other earlier
    · rw [List.mem_singleton.1 last]
      exact whole

theorem replace (sound : entries.Sound) (whole : entry.Sound) :
    (entries.replace key entry).Sound := by
  refine ⟨?_, ?_⟩
  · have same : (entries.replace key entry).map Prod.fst = entries.map Prod.fst := by
      rw [Entries.replace, List.map_map]
      refine List.map_congr_left fun other _ => ?_
      rw [Function.comp_apply]
      split
      next equal => exact equal.symm
      next => rfl
    rw [same]
    exact sound.distinct
  · intro other member
    obtain ⟨earlier, among, rfl⟩ := List.mem_map.1 member
    split
    next => exact whole
    next => exact sound.each earlier among

theorem remove (sound : entries.Sound) : (entries.remove key).Sound where
  distinct := sound.distinct.sublist ((List.filter_sublist).map Prod.fst)
  each other member := sound.each other (List.mem_of_mem_filter member)

/-- Of repeated tables the last one may be changed. -/
theorem of_reverse {elements : List Entries} {last changed : Entries} {before : List Entries}
    (sound : ∀ entries ∈ elements, entries.Sound) (reversed : elements.reverse = last :: before)
    (whole : changed.Sound) : (Entry.tables (changed :: before).reverse).Sound := by
  refine Entry.sound_tables_iff.2 fun entries member => ?_
  rcases List.mem_cons.1 (List.mem_reverse.1 member) with rfl | earlier
  · exact whole
  · refine sound entries (List.mem_reverse.1 ?_)
    rw [reversed]
    exact List.mem_cons_of_mem _ earlier

theorem last {elements : List Entries} {last : Entries} {before : List Entries}
    (sound : ∀ entries ∈ elements, entries.Sound) (reversed : elements.reverse = last :: before) :
    last.Sound := by
  refine sound last (List.mem_reverse.1 ?_)
  rw [reversed]
  exact List.mem_cons_self

/-- The induction follows the key with its dots. -/
theorem enter {keys : List String} (sound : entries.Sound) (whole : IsValue value)
    (entered : Entries.enter value keys entries = some after) : after.Sound := by
  fun_induction Entries.enter value keys entries generalizing after with
  | case3 key entries absent =>
    cases entered
    exact sound.append absent (.value whole)
  | case4 first next keys entries absent ih =>
    obtain ⟨inner, deeper, same⟩ := Option.bind_eq_some_iff.1 entered
    cases same
    exact sound.append absent (Entry.sound_table_iff.2 (ih .nil deeper))
  | case6 first next keys entries origin inner found _ ih =>
    obtain ⟨changed, deeper, same⟩ := Option.bind_eq_some_iff.1 entered
    cases same
    have given := Entry.sound_table_iff.1 (sound.of_lookup found)
    exact sound.replace (Entry.sound_table_iff.2 (ih given deeper))
  | case9 first next keys entries elements found last before reversed _ ih =>
    obtain ⟨changed, deeper, same⟩ := Option.bind_eq_some_iff.1 entered
    cases same
    have given := Entry.sound_tables_iff.1 (sound.of_lookup found)
    exact sound.replace (of_reverse given reversed (ih (Sound.last given reversed) deeper))
  | _ => cases entered

/-- A change on the way to a table keeps entries sound if the change of that table does. -/
theorem change {α : Type} {act : Entries → Option (Entries × α)} (Holds : α → Prop)
    (acts : ∀ {entries after : Entries} {result : α}, entries.Sound →
      act entries = some (after, result) → after.Sound ∧ Holds result)
    {path : List String} {result : α} (sound : entries.Sound)
    (changed : Entries.change act path entries = some (after, result)) :
    after.Sound ∧ Holds result := by
  fun_induction Entries.change act path entries generalizing after with
  | case1 entries => exact acts sound changed
  | case2 key path entries absent ih =>
    obtain ⟨⟨inner, _⟩, deeper, same⟩ := Option.bind_eq_some_iff.1 changed
    cases same
    obtain ⟨whole, holds⟩ := ih .nil deeper
    exact ⟨sound.append absent (Entry.sound_table_iff.2 whole), holds⟩
  | case3 key path entries origin inner found ih =>
    obtain ⟨⟨inner, _⟩, deeper, same⟩ := Option.bind_eq_some_iff.1 changed
    cases same
    obtain ⟨whole, holds⟩ := ih (Entry.sound_table_iff.1 (sound.of_lookup found)) deeper
    exact ⟨sound.replace (Entry.sound_table_iff.2 whole), holds⟩
  | case5 key path entries elements found last before reversed ih =>
    obtain ⟨⟨inner, _⟩, deeper, same⟩ := Option.bind_eq_some_iff.1 changed
    cases same
    have given := Entry.sound_tables_iff.1 (sound.of_lookup found)
    obtain ⟨whole, holds⟩ := ih (Sound.last given reversed) deeper
    exact ⟨sound.replace (of_reverse given reversed whole), holds⟩
  | _ => cases changed

end Sound

end Entries

/-! ## Drafts -/

namespace Draft

structure Sound (draft : Draft) : Prop where
  finished : draft.finished.Sound
  current : draft.current.Sound

namespace Sound

variable {draft after : Draft} {entries : Entries} {path : List String}

theorem finish (sound : draft.Sound) (done : draft.finish = some entries) : entries.Sound := by
  unfold Draft.finish at done
  split at done
  next =>
    cases done
    exact sound.current
  next key parents _ =>
    obtain ⟨⟨changed, _⟩, change, same⟩ := Option.bind_eq_some_iff.1 done
    cases same
    refine (Entries.Sound.change (fun _ => True) ?_ sound.finished change).1
    intro entries after result whole acted
    split at acted
    next absent =>
      cases acted
      refine ⟨whole.append absent ?_, trivial⟩
      split
      next => exact Entry.sound_tables_iff.2 (by simpa using sound.current)
      next => exact Entry.sound_table_iff.2 sound.current
    next elements found =>
      have given := Entry.sound_tables_iff.1 (whole.of_lookup found)
      split at acted
      next =>
        cases acted
        refine ⟨whole.replace (Entry.sound_tables_iff.2 fun element member => ?_), trivial⟩
        rcases List.mem_append.1 member with earlier | last
        · exact given element earlier
        · rw [List.mem_singleton.1 last]
          exact sound.current
      next => cases acted
    next => cases acted

theorem openTable (sound : draft.Sound) (opened : draft.openTable path = some after) :
    after.Sound := by
  obtain ⟨finished, done, opened⟩ := Option.bind_eq_some_iff.1 opened
  split at opened
  next => cases opened
  next key parents _ =>
    obtain ⟨⟨changed, current⟩, change, same⟩ := Option.bind_eq_some_iff.1 opened
    cases same
    have both : changed.Sound ∧ Entries.Sound current := by
      refine Entries.Sound.change Entries.Sound ?_ (sound.finish done) change
      intro entries after result whole acted
      split at acted
      next =>
        cases acted
        exact ⟨whole, .nil⟩
      next inner found =>
        cases acted
        exact ⟨whole.remove, Entry.sound_table_iff.1 (whole.of_lookup found)⟩
      next => cases acted
    exact ⟨both.1, both.2⟩

theorem openElement (sound : draft.Sound) (opened : draft.openElement path = some after) :
    after.Sound := by
  obtain ⟨finished, done, opened⟩ := Option.bind_eq_some_iff.1 opened
  split at opened
  next => cases opened
  next key parents _ =>
    obtain ⟨⟨changed, _⟩, change, same⟩ := Option.bind_eq_some_iff.1 opened
    cases same
    refine ⟨(Entries.Sound.change (fun _ => True) ?_ (sound.finish done) change).1, .nil⟩
    intro entries after result whole acted
    split at acted
    next absent =>
      cases acted
      exact ⟨whole.append absent (Entry.sound_tables_iff.2 (by simp)), trivial⟩
    next =>
      cases acted
      exact ⟨whole, trivial⟩
    next => cases acted

theorem enter {keys : List String} {value : Datum} (sound : draft.Sound) (whole : IsValue value)
    (entered : draft.enter keys value = some after) : after.Sound := by
  obtain ⟨current, inside, same⟩ := Option.bind_eq_some_iff.1 entered
  cases same
  exact ⟨sound.finished, sound.current.enter whole inside⟩

end Sound

end Draft

/-! ## Reading -/

/-- A reader that finds nothing but values. -/
def Yields (read : Option (Datum × List Char)) : Prop :=
  ∀ datum rest, read = some (datum, rest) → IsValue datum

namespace Yields

variable {document rest : List Char} {datum : Datum}

theorem none : Yields none := by
  intro datum rest read
  cases read

theorem some (value : IsValue datum) : Yields (some (datum, rest)) := by
  intro found left read
  cases read
  exact value

theorem bind {α : Type} {first : Option α} {next : α → Option (Datum × List Char)}
    (each : ∀ value, first = .some value → Yields (next value)) : Yields (first >>= next) := by
  intro datum rest read
  obtain ⟨value, found, after⟩ := Option.bind_eq_some_iff.1 read
  exact each value found datum rest after

theorem whole (value : Int) : Yields (do return (← whole? value, rest)) := by
  refine bind fun number found => some ?_
  unfold whole? at found
  split at found
  next =>
    cases found
    exact .integer value
  next => cases found

/-- However the number starts and whether it has a fraction, it ends in the same way. -/
theorem decimal : Yields (decimal? document) := by
  unfold decimal?
  dsimp only
  split <;> refine bind fun _ _ => ?_ <;> split <;> refine bind fun _ _ => bind fun _ _ => ?_
  all_goals
    split
    next => exact bind fun _ _ => whole _
    next =>
      refine bind fun _ _ => ?_
      split
      next => exact none
      next => exact some (.decimal _)

theorem inBase {base : Nat} : Yields (inBase? base document) :=
  bind fun _ _ => bind fun _ _ => whole _

theorem number : Yields (number? document) := by
  unfold number?
  split
  next => exact inBase
  next => exact inBase
  next => exact inBase
  next =>
    dsimp only
    split
    next => exact some (.decimal _)
    next => exact some (.decimal _)
    next => exact decimal

theorem numberOrTime : Yields (numberOrTime? document) := by
  unfold numberOrTime?
  split
  next rest _ =>
    intro datum left read
    obtain ⟨_, _, same⟩ := Option.map_eq_some_iff.1 read
    cases same
    exact .moment
  next =>
    split
    next => exact some .moment
    next => exact number

theorem keyword {word : List Char} (value : IsValue datum) :
    Yields (keyword? word datum document) := by
  unfold keyword?
  split
  next => exact some value
  next => exact none

end Yields

/-- The induction is on the fuel, for values, items and members at once. -/
theorem value_yields (fuel : Nat) :
    (∀ depth document, Yields (value? fuel depth document)) ∧
    (∀ depth document items rest, items? fuel depth document = some (items, rest) →
      ∀ item ∈ items, IsValue item) ∧
    ∀ depth (entries : Entries) document after rest, entries.Sound →
      members? fuel depth entries document = some (after, rest) → after.Sound := by
  induction fuel with
  | zero =>
    refine ⟨fun _ _ => .none, ?_, ?_⟩
    · intro _ _ _ _ read
      cases read
    · intro _ _ _ _ _ _ read
      cases read
  | succ fuel ih =>
    obtain ⟨values, lists, tables⟩ := ih
    refine ⟨?values, ?lists, ?tables⟩
    case values =>
      intro depth document
      unfold value?
      split
      next =>
        split
        next => exact .none
        next =>
          refine .bind fun found read => .some (.list ?_)
          exact lists _ _ found.1 found.2 read
      next =>
        split
        next => exact .none
        next =>
          split
          next => exact .some Entries.Sound.nil.isValue
          next =>
            refine .bind fun found read => .some (Entries.Sound.isValue ?_)
            exact tables _ _ _ found.1 found.2 .nil read
      next => exact .keyword (.boolean true)
      next => exact .keyword (.boolean false)
      next =>
        split
        next =>
          intro datum rest read
          obtain ⟨_, _, same⟩ := Option.map_eq_some_iff.1 read
          cases same
          exact .text _
        next => exact .numberOrTime
      next => exact .none
    case lists =>
      intro depth document items rest read
      unfold items? at read
      split at read
      next =>
        cases read
        simp
      next =>
        obtain ⟨⟨item, left⟩, found, more⟩ := Option.bind_eq_some_iff.1 read
        have first := values _ _ item left found
        dsimp only at more
        split at more
        next =>
          cases more
          simpa using first
        next =>
          obtain ⟨⟨others, left⟩, found, same⟩ := Option.bind_eq_some_iff.1 more
          cases same
          exact List.forall_mem_cons.2 ⟨first, lists _ _ others left found⟩
        next => cases more
    case tables =>
      intro depth entries document after rest sound read
      unfold members? at read
      obtain ⟨⟨keys, left⟩, _, more⟩ := Option.bind_eq_some_iff.1 read
      obtain ⟨start, _, more⟩ := Option.bind_eq_some_iff.1 more
      obtain ⟨⟨datum, left⟩, found, more⟩ := Option.bind_eq_some_iff.1 more
      obtain ⟨changed, entered, more⟩ := Option.bind_eq_some_iff.1 more
      have whole := sound.enter (values _ _ datum left found) entered
      split at more
      next =>
        cases more
        exact whole
      next => exact tables _ _ _ after rest whole more
      next => cases more

/-- Every line keeps a draft sound. -/
theorem lines_sound {fuel : Nat} {document : List Char} {draft after : Draft} (sound : draft.Sound)
    (read : lines? fuel document draft = some after) : after.Sound := by
  induction fuel generalizing document draft with
  | zero => cases read
  | succ fuel ih =>
    unfold lines? at read
    split at read
    next =>
      cases read
      exact sound
    next => exact ih sound read
    next => exact ih sound read
    next =>
      obtain ⟨_, _, more⟩ := Option.bind_eq_some_iff.1 read
      exact ih sound more
    next =>
      obtain ⟨_, _, more⟩ := Option.bind_eq_some_iff.1 read
      obtain ⟨_, opened, more⟩ := Option.bind_eq_some_iff.1 more
      exact ih (sound.openElement opened) more
    next =>
      obtain ⟨_, _, more⟩ := Option.bind_eq_some_iff.1 read
      obtain ⟨_, opened, more⟩ := Option.bind_eq_some_iff.1 more
      exact ih (sound.openTable opened) more
    next =>
      obtain ⟨_, _, more⟩ := Option.bind_eq_some_iff.1 read
      obtain ⟨_, _, more⟩ := Option.bind_eq_some_iff.1 more
      obtain ⟨⟨datum, left⟩, found, more⟩ := Option.bind_eq_some_iff.1 more
      obtain ⟨_, _, more⟩ := Option.bind_eq_some_iff.1 more
      obtain ⟨_, entered, more⟩ := Option.bind_eq_some_iff.1 more
      exact ih (sound.enter ((value_yields _).1 _ _ datum left found) entered) more

/-- A document holds a table of values. -/
theorem isValue_of_read {document : String} {datum : Datum} (read : read? document = some datum) :
    IsValue datum ∧ ∃ members, datum = .record members none := by
  unfold read? at read
  dsimp only at read
  obtain ⟨draft, lines, more⟩ := Option.bind_eq_some_iff.1 read
  obtain ⟨entries, done, same⟩ := Option.bind_eq_some_iff.1 more
  cases same
  have sound := lines_sound ⟨.nil, .nil⟩ lines
  exact ⟨(sound.finish done).isValue, _, rfl⟩

end Toml

end GuildRoster
