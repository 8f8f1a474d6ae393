import GuildRoster.Proofs.PathLaws
import GuildRoster.Proofs.TrimmedTexts
import GuildRoster.Sheet.Printed
import Mathlib.Data.List.GetD

/-!
# Columns beside each other

Two columns of lines are merged line by line. A right line begins behind the left column, or behind
a left line that is longer than its column, so the two never run into each other. Only blanks at the
ends of lines are lost: whoever knows how long the left lines are reads both columns back.
-/

set_option autoImplicit false

namespace GuildRoster

namespace Text

/-! ## Lines of a text -/

/-- Lines without line ends and without carriage returns at their own ends are the lines of the text
in which each of them is ended. -/
theorem lines_flatMap_ended {pieces : List (List Char)} (clean : ∀ piece ∈ pieces, '\n' ∉ piece)
    (whole : ∀ piece ∈ pieces, piece.getLast? ≠ some '\r') :
    lines (pieces.flatMap (· ++ ['\n'])) = pieces := by
  have same : pieces.map withoutReturn = pieces := by
    refine (List.map_congr_left fun piece member => ?_).trans (List.map_id' pieces)
    rw [withoutReturn, if_neg (whole piece member)]
  rw [lines, splitAt_flatMap_ended clean, List.reverse_append, List.reverse_singleton,
    List.singleton_append]
  simp only [List.isEmpty_nil, if_true, List.reverse_reverse, same]

end Text

namespace Sheet

/-- The line of a column at an index, which is empty below the end of the column. -/
def lineAt (column : List String) (index : Nat) : String := column.getD index ""

/-- Where the right line begins beside a left line of a length: four characters behind the left
column, or behind the line itself if it is longer than the column is wide. -/
def rightStart (width length : Nat) : Nat := max width length + 4

/-- A line shows a left line at its beginning and a right line from the character at `start` on, and
blanks between the two. The blanks at the end of all that are left out. -/
def Beside (start : Nat) (left right line : List Char) : Prop :=
  ∃ gap, (left ++ List.replicate gap ' ').length = start ∧
    Text.TrimsEnd (left ++ List.replicate gap ' ' ++ right) line

/-- What lines show of a left column whose lines have the given lengths. -/
def shownLefts (lengths : List Nat) (lines : List (List Char)) : List (List Char) :=
  List.zipWith (fun length line => Text.trimEnd (line.take length)) lengths lines

/-- What lines show of the column on the right of a column whose lines have the given lengths. -/
def shownRights (width : Nat) (lengths : List Nat) (lines : List (List Char)) : List (List Char) :=
  lines.mapIdx fun index line => line.drop (rightStart width (lengths.getD index 0))

/-- Lines show two columns beside each other. -/
structure Merged (width : Nat) (lefts rights : List String) (lines : List (List Char)) : Prop where
  count : lines.length = max lefts.length rights.length
  trimmed : ∀ line ∈ lines, ∀ character, line.getLast? = some character →
    Text.isBlank character = false
  beside : ∀ (index : Nat) (line : List Char), lines[index]? = some line →
    Beside (rightStart width (lineAt lefts index).length) (lineAt lefts index).toList
      (lineAt rights index).toList line
  aligned : ∀ (index : Nat) (line : List Char), lines[index]? = some line →
    (lineAt lefts index).length ≤ width →
    Beside (width + 4) (lineAt lefts index).toList (lineAt rights index).toList line
  keepsLefts : shownLefts (lefts.map String.length) lines
    = lefts.map fun left => Text.trimEnd left.toList
  keepsRights : shownRights width (lefts.map String.length) lines
    = rights.map (fun right => Text.trimEnd right.toList)
      ++ List.replicate (lefts.length - rights.length) []

/-! ## One line -/

namespace Beside

variable {start : Nat} {left right line : List Char}

theorem left_eq (shown : Beside start left right line) :
    Text.trimEnd (line.take left.length) = Text.trimEnd left := by
  obtain ⟨gap, -, trims⟩ := shown
  rw [List.append_assoc] at trims
  exact (Text.trimEnd_of_trimsEnd trims.take).symm

theorem right_eq (shown : Beside start left right line) :
    line.drop start = Text.trimEnd right := by
  obtain ⟨gap, rfl, trims⟩ := shown
  exact (Text.trimEnd_of_trimsEnd trims.drop).symm

theorem mem_or_mem (shown : Beside start left right line) {character : Char}
    (member : character ∈ line) : character = ' ' ∨ character ∈ left ∨ character ∈ right := by
  obtain ⟨gap, -, ⟨back, whole, -⟩, -⟩ := shown
  have found : character ∈ left ++ List.replicate gap ' ' ++ right := by
    rw [whole]
    exact List.mem_append_left back member
  rw [List.mem_append, List.mem_append, List.mem_replicate] at found
  tauto

end Beside

theorem mergeLine_beside (width : Nat) (left right : String) :
    Beside (rightStart width left.length) left.toList right.toList
      (mergeLine width left right).toList := by
  refine ⟨width - left.length + columnGap, ?_, ?_⟩
  · rw [List.length_append, List.length_replicate, String.length_toList, rightStart, columnGap]
    omega
  · have text : (Text.padEnd width left ++ Text.blanks columnGap ++ right).toList
        = left.toList ++ List.replicate (width - left.length + columnGap) ' ' ++ right.toList := by
      rw [Text.padEnd, Text.blanks, Text.blanks, String.toList_append, String.toList_append,
        String.toList_append, String.toList_ofList, String.toList_ofList, List.replicate_add,
        List.append_assoc left.toList]
    rw [← text, mergeLine, String.toList_ofList]
    exact Text.trimsEnd_trimEnd _

/-! ## All lines -/

theorem lineAt_of_lt {column : List String} {index : Nat} (inside : index < column.length) :
    lineAt column index = column[index] :=
  List.getD_eq_getElem column "" inside

theorem lineAt_of_le {column : List String} {index : Nat} (below : column.length ≤ index) :
    lineAt column index = "" :=
  List.getD_eq_default column "" below

theorem lineAt_mem_or_eq (column : List String) (index : Nat) :
    lineAt column index ∈ column ∨ lineAt column index = "" := by
  rcases Nat.lt_or_ge index column.length with inside | below
  · rw [lineAt_of_lt inside]
    exact .inl (List.getElem_mem inside)
  · exact .inr (lineAt_of_le below)

/-- Merging takes the lines at the same index of both columns, for each index of the longer one. -/
theorem mergeColumns_eq_map (width : Nat) (lefts rights : List String) :
    mergeColumns width lefts rights =
      (List.range (max lefts.length rights.length)).map fun index =>
        mergeLine width (lineAt lefts index) (lineAt rights index) := by
  fun_induction mergeColumns width lefts rights with
  | case1 => rfl
  | case2 left lefts ih => simp [ih, List.range_succ_eq_map, lineAt]
  | case3 right rights ih => simp [ih, List.range_succ_eq_map, lineAt]
  | case4 left lefts right rights ih => simp [ih, List.range_succ_eq_map, lineAt]

section Placed

variable {width : Nat} {lefts rights : List String} {lines : List (List Char)}
  (count : lines.length = max lefts.length rights.length)
  (beside : ∀ (index : Nat) (line : List Char), lines[index]? = some line →
    Beside (rightStart width (lineAt lefts index).length) (lineAt lefts index).toList
      (lineAt rights index).toList line)

include count beside

/-- The left lines are read back. -/
theorem shownLefts_eq :
    shownLefts (lefts.map String.length) lines
      = lefts.map fun left => Text.trimEnd left.toList := by
  apply List.ext_getElem
  · rw [shownLefts, List.length_zipWith, List.length_map, List.length_map, count]
    omega
  · intro index shown listed
    rw [List.length_map] at listed
    have inside : index < lines.length := by omega
    have read := (beside index _ (List.getElem?_eq_getElem inside)).left_eq
    rw [lineAt_of_lt listed, String.length_toList] at read
    simpa [shownLefts] using read

/-- The right lines are read back, and nothing is read where the left column is longer. -/
theorem shownRights_eq :
    shownRights width (lefts.map String.length) lines
      = rights.map (fun right => Text.trimEnd right.toList)
        ++ List.replicate (lefts.length - rights.length) [] := by
  apply List.ext_getElem
  · rw [shownRights, List.length_mapIdx, List.length_append, List.length_map, List.length_replicate,
      count]
    omega
  · intro index shown listed
    rw [shownRights, List.length_mapIdx] at shown
    have length : (lefts.map String.length).getD index 0 = (lineAt lefts index).length := by
      rw [lineAt, ← String.length_empty, List.getD_map]
    have read := (beside index _ (List.getElem?_eq_getElem shown)).right_eq
    simp only [shownRights, List.getElem_mapIdx, length, read]
    rcases Nat.lt_or_ge index rights.length with inside | below
    · rw [List.getElem_append_left (by simpa using inside), List.getElem_map, lineAt_of_lt inside]
    · rw [List.getElem_append_right (by simpa using below), List.getElem_replicate,
        lineAt_of_le below]
      rfl

theorem merged_of_beside : Merged width lefts rights lines where
  count := count
  trimmed := by
    intro line member
    obtain ⟨index, found⟩ := List.mem_iff_getElem?.1 member
    obtain ⟨gap, -, trims⟩ := beside index line found
    exact trims.last
  beside := beside
  aligned := by
    intro index line found narrow
    have start : rightStart width (lineAt lefts index).length = width + 4 := by
      rw [rightStart, Nat.max_eq_left narrow]
    exact start ▸ beside index line found
  keepsLefts := shownLefts_eq count beside
  keepsRights := shownRights_eq count beside

end Placed

theorem merged_mergeColumns (width : Nat) (lefts rights : List String) :
    Merged width lefts rights ((mergeColumns width lefts rights).map String.toList) := by
  rw [mergeColumns_eq_map]
  apply merged_of_beside
  · rw [List.length_map, List.length_map, List.length_range]
  · intro index line found
    rw [List.map_map, List.getElem?_map, Option.map_eq_some_iff] at found
    obtain ⟨position, listed, rfl⟩ := found
    obtain ⟨-, rfl⟩ := List.getElem?_eq_some_iff.1 listed
    rw [List.getElem_range]
    exact mergeLine_beside width _ _

theorem toList_ofLines (lines : List String) :
    (ofLines lines).toList = (lines.map String.toList).flatMap (· ++ ['\n']) := by
  rw [ofLines, String.toList_join, List.flatMap_map, List.flatMap_map]
  exact List.flatMap_congr fun line _ => String.toList_append

/-- The lines of two merged columns are those that the merged text falls into. -/
theorem lines_mergeColumns (width : Nat) {lefts rights : List String}
    (unbroken : ∀ line ∈ lefts ++ rights, '\n' ∉ line.toList) :
    Text.lines (ofLines (mergeColumns width lefts rights)).toList
      = (mergeColumns width lefts rights).map String.toList := by
  have merged := merged_mergeColumns width lefts rights
  have clean : ∀ column : List String, (∀ line ∈ column, line ∈ lefts ++ rights) →
      ∀ index, '\n' ∉ (lineAt column index).toList := by
    intro column listed index
    rcases lineAt_mem_or_eq column index with member | missing
    · exact unbroken _ (listed _ member)
    · simp [missing]
  rw [toList_ofLines]
  apply Text.lines_flatMap_ended
  · intro line member broken
    obtain ⟨index, found⟩ := List.mem_iff_getElem?.1 member
    rcases (merged.beside index line found).mem_or_mem broken with blank | left | right
    · cases blank
    · exact clean lefts (fun _ => List.mem_append_left rights) index left
    · exact clean rights (fun _ => List.mem_append_right lefts) index right
  · intro line member ending
    cases merged.trimmed line member '\r' ending

/-- Merging two columns loses nothing but blanks at the ends of lines. Every line of the text is
ended, there are as many as the longer column has, and none ends with a blank. Each shows its left
line, blanks, and its right line from four characters behind the left column on, or behind the left
line if that is longer. So right lines are aligned beside all left lines that fit into their column,
and both columns are read back from the lengths of the left lines. -/
theorem mergeColumns_keeps_lines (width : Nat) (lefts rights : List String)
    (unbroken : ∀ line ∈ lefts ++ rights, '\n' ∉ line.toList) :
    let text := (ofLines (mergeColumns width lefts rights)).toList
    text = (Text.lines text).flatMap (· ++ ['\n']) ∧
      Merged width lefts rights (Text.lines text) := by
  intro text
  have lines : Text.lines text = (mergeColumns width lefts rights).map String.toList :=
    lines_mergeColumns width unbroken
  rw [lines]
  exact ⟨toList_ofLines _, merged_mergeColumns width lefts rights⟩

/-- A left line that is too long for its column, one beside an empty line, and one that is
missing. -/
theorem mergeColumns_keeps_overlong_line :
    let lefts := ["Potions: -", "Armor "]
    let rights := ["+25%", "", "Wall: 7"]
    let lines := Text.lines (ofLines (mergeColumns 8 lefts rights)).toList
    (∀ line ∈ lefts ++ rights, '\n' ∉ line.toList) ∧
      shownLefts [10, 6] lines = ["Potions: -".toList, "Armor".toList] ∧
      shownRights 8 [10, 6] lines = ["+25%".toList, [], "Wall: 7".toList] := by
  intro lefts rights lines
  have unbroken : ∀ line ∈ lefts ++ rights, '\n' ∉ line.toList := by decide
  obtain ⟨-, merged⟩ := mergeColumns_keeps_lines 8 lefts rights unbroken
  refine ⟨unbroken, merged.keepsLefts.trans ?_, merged.keepsRights.trans ?_⟩ <;> decide

example : ofLines (mergeColumns 8 ["Potions: -", "Armor "] ["+25%", "", "Wall: 7"])
    = "Potions: -    +25%\nArmor\n            Wall: 7\n" := by cbv

end Sheet

end GuildRoster
