import GuildRoster.Export.Csv
import GuildRoster.Proofs.NumberTexts
import GuildRoster.Proofs.PathLaws
import Mathlib.Data.List.Basic

/-!
# Lines and fields of tables

A table cut at its line ends and its lines cut at their semicolons. Names are the only fields that
may hold a line end or a semicolon, so a table falls into one line for each player and each line
into one field for each heading just when no name holds either of the two.
-/

set_option autoImplicit false

namespace GuildRoster.Csv

/-! ## Fields -/

/-- A text that neither ends a line nor a field. -/
def Unbroken (text : String) : Prop := ';' ∉ text.toList ∧ '\n' ∉ text.toList

instance (text : String) : Decidable (Unbroken text) := inferInstanceAs (Decidable (_ ∧ _))

theorem unbroken_of_isNumberCharacter {text : String}
    (numeric : ∀ character ∈ text.toList, IsNumberCharacter character) : Unbroken text := by
  refine ⟨fun member => ?_, fun member => ?_⟩
  · have found := numeric ';' member
    revert found
    unfold IsNumberCharacter
    decide
  · have found := numeric '\n' member
    revert found
    unfold IsNumberCharacter
    decide

theorem unbroken_plain (number : Int64) : Unbroken (Figures.plain number) :=
  unbroken_of_isNumberCharacter fun _ => Figures.isNumberCharacter_of_mem_plain

theorem unbroken_lookUp {table : List String} (labels : ∀ label ∈ table, Unbroken label)
    (index : UInt8) : Unbroken (Labels.lookUp table index) := by
  unfold Labels.lookUp
  cases found : table[index.toNat]? with
  | none => exact (by decide : Unbroken "Unknown")
  | some label => exact labels label (List.mem_of_getElem? found)

theorem unbroken_guildFields {figures : Option Membership} {field : String}
    (member : field ∈ guildFields figures) : Unbroken field := by
  cases figures with
  | none =>
    have empty : ∀ field ∈ ["", "", "", ""], Unbroken field := by decide
    exact empty field member
  | some figures =>
    obtain ⟨number, _, rfl⟩ := List.mem_map.1 member
    exact unbroken_plain number

/-- The fields of a player behind the name. -/
def figureFields (player : Player) : List String := (fields player).tail

theorem fields_eq (player : Player) : fields player = player.name :: figureFields player := rfl

theorem length_figureFields (player : Player) : (figureFields player).length = 29 := by
  have guild : (guildFields player.membership).length = 4 := by
    cases player.membership with
    | none => rfl
    | some figures => rfl
  simp [figureFields, fields, PotionBelt.toList, guild]

theorem unbroken_figureFields {player : Player} {field : String}
    (member : field ∈ figureFields player) : Unbroken field := by
  have plain : ∀ numbers : List Int64, ∀ field ∈ numbers.map Figures.plain, Unbroken field := by
    intro numbers field member
    obtain ⟨number, _, rfl⟩ := List.mem_map.1 member
    exact unbroken_plain number
  simp only [figureFields, fields, List.cons_append, List.tail_cons, List.nil_append,
    List.mem_cons, List.mem_append] at member
  rcases member with rfl | rfl | rfl | rfl | rfl | rfl | rfl | (potion | guild) | number
  · exact unbroken_plain player.level
  · exact unbroken_plain player.gearScore
  · exact unbroken_lookUp (by decide) player.characterClass
  · exact unbroken_lookUp (by decide) player.race
  · exact unbroken_lookUp (by decide) player.sex
  · exact unbroken_of_isNumberCharacter fun _ => Binary64.isNumberCharacter_of_mem_fixed
  · exact unbroken_plain player.achievements
  · obtain ⟨slot, _, rfl⟩ := List.mem_map.1 potion
    exact unbroken_plain slot.duration
  · exact unbroken_guildFields guild
  · exact plain _ field number

/-! ## Lines -/

theorem toList_intercalate_fields (texts : List String) :
    (";".intercalate texts).toList = [';'].intercalate (texts.map String.toList) := by
  rw [String.toList_intercalate]
  rfl

theorem toList_row (player : Player) :
    (row player).toList = player.name.toList ++
      ';' :: [';'].intercalate ((figureFields player).map String.toList) := by
  have more := length_figureFields player
  rw [row, toList_intercalate_fields, fields_eq, List.map_cons]
  cases shape : figureFields player with
  | nil => simp [shape] at more
  | cons next others =>
    rw [List.map_cons, List.intercalate_cons_cons, List.append_assoc, List.singleton_append]

/-- A line cut at its semicolons: the pieces of the name and then one field for each figure. -/
theorem splitAt_row (player : Player) :
    Text.splitAt ';' (row player).toList =
      Text.splitAt ';' player.name.toList ++ (figureFields player).map String.toList := by
  have more := length_figureFields player
  rw [toList_row, Text.splitAt_append, Text.splitAt_intercalate]
  · intro empty
    rw [List.map_eq_nil_iff] at empty
    simp [empty] at more
  · intro piece member
    obtain ⟨field, known, rfl⟩ := List.mem_map.1 member
    exact (unbroken_figureFields known).1

theorem length_splitAt_row (player : Player) :
    (Text.splitAt ';' (row player).toList).length = player.name.toList.count ';' + 30 := by
  rw [splitAt_row, List.length_append, Text.length_splitAt, List.length_map,
    length_figureFields]

theorem lineEnd_mem_row_iff (player : Player) :
    '\n' ∈ (row player).toList ↔ '\n' ∈ player.name.toList := by
  have figures : '\n' ∉ [';'].intercalate ((figureFields player).map String.toList) := by
    apply Text.not_mem_intercalate (by decide)
    intro piece member
    obtain ⟨field, known, rfl⟩ := List.mem_map.1 member
    exact (unbroken_figureFields known).2
  rw [toList_row, List.mem_append, List.mem_cons]
  simp [figures]

theorem toList_header : header.toList = [';'].intercalate (headings.map String.toList) :=
  toList_intercalate_fields headings

theorem lineEnd_not_mem_header : '\n' ∉ header.toList := by
  have clean : ∀ heading ∈ headings, '\n' ∉ heading.toList := by decide
  rw [toList_header]
  apply Text.not_mem_intercalate (by decide)
  intro piece member
  obtain ⟨heading, known, rfl⟩ := List.mem_map.1 member
  exact clean heading known

theorem length_splitAt_header : (Text.splitAt ';' header.toList).length = 30 := by
  have clean : ∀ heading ∈ headings, ';' ∉ heading.toList := by decide
  rw [toList_header, Text.splitAt_intercalate (by decide)]
  · rfl
  · intro piece member
    obtain ⟨heading, known, rfl⟩ := List.mem_map.1 member
    exact clean heading known

theorem writeRows_eq (players : Roster) (written : Written) :
    writeRows players written =
      ⟨written.text ++ String.join (players.map fun player => "\n" ++ row player),
        written.rows + players.length⟩ := by
  induction players generalizing written with
  | nil => simp [writeRows]
  | cons player players ih =>
    rw [writeRows, ih]
    simp [String.append_assoc, Nat.add_assoc, Nat.add_comm 1]

/-- A table is the header and a line for each player, and all its rows are counted. -/
theorem write_eq (players : Roster) :
    write players = ⟨header ++ String.join (players.map fun player => "\n" ++ row player),
      players.length⟩ := by
  rw [write, writeRows_eq, Nat.zero_add]

/-- A table cut at its line ends: the header and then the pieces of each row. -/
theorem splitAt_table (players : Roster) :
    Text.splitAt '\n' (table players).toList =
      header.toList :: players.flatMap fun player => Text.splitAt '\n' (row player).toList := by
  have text : (table players).toList = header.toList ++
      (players.map fun player => (row player).toList).flatMap ('\n' :: ·) := by
    rw [table, write_eq, String.toList_append, String.toList_join, List.flatMap_map,
      List.flatMap_map]
    simp only [String.toList_append]
    rfl
  rw [text, Text.splitAt_append_flatMap, Text.splitAt_of_not_mem lineEnd_not_mem_header,
    List.flatMap_map]
  rfl

/-! ## Well-formed tables -/

/-- The table of some players falls into the header and one line for each of them, and each of
these lines into thirty fields. -/
structure WellFormed (players : Roster) : Prop where
  lines : Text.splitAt '\n' (table players).toList =
    header.toList :: players.map fun player => (row player).toList
  fields : ∀ line ∈ Text.splitAt '\n' (table players).toList,
    (Text.splitAt ';' line).length = 30

theorem WellFormed.unbroken_name {players : Roster} (wellFormed : WellFormed players)
    {player : Player} (member : player ∈ players) : Unbroken player.name := by
  have line : (row player).toList ∈ Text.splitAt '\n' (table players).toList := by
    rw [wellFormed.lines]
    exact List.mem_cons_of_mem _ (List.mem_map_of_mem member)
  refine ⟨?semicolon, ?lineEnd⟩
  case semicolon =>
    have count := wellFormed.fields _ line
    rw [length_splitAt_row] at count
    exact List.count_eq_zero.1 (by omega)
  case lineEnd =>
    rw [← lineEnd_mem_row_iff]
    exact Text.not_mem_of_mem_splitAt line

theorem wellFormed_of_unbroken {players : Roster}
    (unbroken : ∀ player ∈ players, Unbroken player.name) : WellFormed players := by
  have lines : Text.splitAt '\n' (table players).toList =
      header.toList :: players.map fun player => (row player).toList := by
    have whole : ∀ player ∈ players,
        Text.splitAt '\n' (row player).toList = [(row player).toList] := by
      intro player member
      apply Text.splitAt_of_not_mem
      rw [lineEnd_mem_row_iff]
      exact (unbroken player member).2
    rw [splitAt_table, List.flatMap_congr whole, ← List.map_eq_flatMap]
  refine ⟨lines, fun line member => ?_⟩
  rw [lines, List.mem_cons, List.mem_map] at member
  rcases member with heading | ⟨player, known, rfl⟩
  · rw [heading, length_splitAt_header]
  · rw [length_splitAt_row, List.count_eq_zero.2 (unbroken player known).1]

/-- The table of a roster is well formed just when none of the names in it holds a semicolon or a
line end. -/
theorem table_wellFormed_iff (roster : Roster) (onlyMembers : Bool) :
    WellFormed (exported onlyMembers roster) ↔
      ∀ player ∈ exported onlyMembers roster,
        ';' ∉ player.name.toList ∧ '\n' ∉ player.name.toList :=
  ⟨fun wellFormed _ member => wellFormed.unbroken_name member, wellFormed_of_unbroken⟩

/-- A semicolon in a name makes a field more than there are headings, a line end a line more than
there are players. -/
theorem table_not_wellFormed :
    ¬ WellFormed (exported false [{ name := "A;B" }]) ∧
      ¬ WellFormed (exported false [{ name := "A\nB" }]) := by
  constructor
  · intro wellFormed
    exact absurd (wellFormed.unbroken_name List.mem_cons_self) (by decide)
  · intro wellFormed
    exact absurd (wellFormed.unbroken_name List.mem_cons_self) (by decide)

end GuildRoster.Csv
