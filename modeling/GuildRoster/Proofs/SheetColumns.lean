import GuildRoster.Browser.SheetView
import GuildRoster.Proofs.Faults

/-!
# One sheet, two renderings

The columns of a printed stat sheet and those of the one on the screen, line by line: a printed line
is the text of the line on the screen with the mark of the standing that the screen shows by a
colour. Only the rankings are worded in another way, under a heading that the screen does without.
-/

set_option autoImplicit false

namespace GuildRoster

/-- The text of a line, however it is shown. -/
def textOf (line : StyledLine) : String := String.join (line.map (·.text))

/-- Lines, the standing of what stands on each of them, and the same lines printed: the text of each
followed by the mark of its standing, if it has one. -/
inductive PrintedAs : List StyledLine → List (Option Standing) → List String → Prop where
  | nil : PrintedAs [] [] []
  | cons (line : StyledLine) (standing : Option Standing) {lines : List StyledLine}
      {standings : List (Option Standing)} {texts : List String}
      (others : PrintedAs lines standings texts) :
      PrintedAs (line :: lines) (standing :: standings)
        ((textOf line ++ standingMark standing) :: texts)

namespace PrintedAs

variable {lines more : List StyledLine} {standings others : List (Option Standing)}
  {texts rest : List String}

theorem append (first : PrintedAs lines standings texts) (second : PrintedAs more others rest) :
    PrintedAs (lines ++ more) (standings ++ others) (texts ++ rest) := by
  induction first with
  | nil => exact second
  | cons line standing _ ih => exact .cons line standing ih

theorem length_texts (printed : PrintedAs lines standings texts) : texts.length = lines.length := by
  induction printed with
  | nil => rfl
  | cons _ _ _ ih => rw [List.length_cons, List.length_cons, ih]

theorem length_standings (printed : PrintedAs lines standings texts) :
    standings.length = lines.length := by
  induction printed with
  | nil => rfl
  | cons _ _ _ ih => rw [List.length_cons, List.length_cons, ih]

/-- A single line. -/
theorem line {line : StyledLine} {standing : Option Standing} {text : String}
    (same : text = textOf line ++ standingMark standing) : PrintedAs [line] [standing] [text] := by
  subst same
  exact .cons line standing .nil

/-- A single line that shows no standing. -/
theorem plain {line : StyledLine} {text : String} (same : text = textOf line) :
    PrintedAs [line] [none] [text] :=
  .line (by rw [same, standingMark, String.append_empty])

/-- One line for each item of a list. -/
theorem map {α : Type} {line : α → StyledLine} {standing : α → Option Standing} {text : α → String}
    (each : ∀ item, text item = textOf (line item) ++ standingMark (standing item))
    (items : List α) :
    PrintedAs (items.map line) (items.map standing) (items.map text) := by
  induction items with
  | nil => exact .nil
  | cons item items ih => exact (PrintedAs.line (each item)).append ih

end PrintedAs

@[simp] theorem textOf_nil : textOf [] = "" := rfl

@[simp] theorem textOf_cons (span : Span) (line : StyledLine) :
    textOf (span :: line) = span.text ++ textOf line := String.join_cons

namespace Sheet

/-! ## Parts of columns -/

theorem printedAs_blank : PrintedAs [[]] [none] [""] := .plain rfl

theorem printedAs_section (title : String) :
    PrintedAs (SheetView.sectionLines title) [none, none] (sectionLines .boxes title) :=
  (PrintedAs.plain (by simp)).append (PrintedAs.plain (by simp))

@[simp] theorem text_plain (text : String) : (SheetView.plain text).text = text := rfl

@[simp] theorem text_label (name : String) : (SheetView.label name).text = labelled name := rfl

/-- The blanks before further potions are as wide as a label. -/
@[simp] theorem text_blankLabel : SheetView.blankLabel.text = unlabelled := by decide

@[simp] theorem potionText_eq (potion : Potion) : SheetView.potionText potion = potion.printed :=
  rfl

theorem printedAs_labelled (label text : String) :
    PrintedAs [SheetView.labelled label text] [none] [labelled label ++ text] :=
  .plain (by simp [SheetView.labelled])

theorem printed_value (theme : Theme) (label : String) (value : Value) :
    labelled label ++ value.printed
      = textOf (SheetView.valueLine theme label value) ++ standingMark value.standing := by
  simp [SheetView.valueLine, Value.printed, String.append_assoc]

theorem printedAs_value (theme : Theme) (label : String) (value : Value) :
    PrintedAs [SheetView.valueLine theme label value] [value.standing]
      [labelled label ++ value.printed] :=
  .line (printed_value theme label value)

theorem printedAs_fields (theme : Theme) (fields : List Field) :
    PrintedAs (fields.map (SheetView.fieldLine theme)) (fields.map (·.value.standing))
      (fields.map Field.printed) := by
  refine .map (fun field => ?_) fields
  exact printed_value theme field.label field.value

theorem printedAs_bar (theme : Theme) (label : String) (bar : Bar) :
    PrintedAs (SheetView.barLines theme label bar) [bar.standing, none]
      (bar.printed .boxes label) :=
  (PrintedAs.line (by simp)).append (PrintedAs.plain (by simp))

/-- The label of the potions stands on the first of their lines only. -/
theorem printedAs_potions (potions : List Potion) :
    PrintedAs (SheetView.potionLines potions) (List.replicate (max 1 potions.length) none)
      (potionLines potions) := by
  cases potions with
  | nil => exact printedAs_labelled "Potions" "-"
  | cons first others =>
    have count : List.replicate (max 1 (first :: others).length) (none : Option Standing)
        = none :: others.map fun _ => none := by
      rw [List.length_cons, Nat.max_eq_right (Nat.succ_pos _), List.replicate_succ, List.map_const']
    rw [count]
    refine (printedAs_labelled "Potions" first.printed).append ?_
    exact .map (fun potion => by simp [standingMark]) others

theorem printedAs_group (theme : Theme) (group : Group) :
    PrintedAs (SheetView.groupLines theme group)
      [none, none, none, none, none, none, group.pet.standing, group.knights.standing]
      (group.printed .boxes) :=
  (((((printedAs_blank.append (printedAs_section "Group")).append
    (printedAs_labelled "Position" _)).append (printedAs_labelled "Treasure" _)).append
    (printedAs_labelled "Instructor" _)).append (printedAs_value theme "Pet" group.pet)).append
    (printedAs_value theme "Knights" group.knights)

/-! ## Columns -/

/-- The standings on the lines of the right column: those of the album and of the fields, and none
on headings, captions and empty lines. -/
def rightStandings (sheet : Sheet) : List (Option Standing) :=
  [none, none] ++ [sheet.book.standing, none] ++ [sheet.achievements.standing, none]
    ++ [none, none, none] ++ sheet.attributes.map (·.value.standing)
    ++ [none, none, none] ++ sheet.fortress.map (·.value.standing)

/-- The standings on the lines of the left column above the rankings. -/
def upperStandings (sheet : Sheet) : List (Option Standing) :=
  [none, none] ++ [sheet.mount.standing] ++ List.replicate (max 1 sheet.potions.length) none
    ++ [none, none, none]

/-- The standings on the lines of the left column below the rankings. -/
def lowerStandings (sheet : Sheet) : List (Option Standing) :=
  match sheet.group with
  | some group =>
    [none, none, none, none, none, none, group.pet.standing, group.knights.standing]
  | none => []

/-- The heading of the rankings, which only the printed sheet has. -/
def rankHeading : String := unlabelled ++ Text.padStart 8 "Rank" ++ "  " ++ Text.padStart 8 "Honor"

theorem printedAs_rightColumn (theme : Theme) (sheet : Sheet) :
    PrintedAs (SheetView.rightColumn theme sheet) sheet.rightStandings
      (rightColumn .boxes sheet) := by
  unfold SheetView.rightColumn rightStandings rightColumn
  exact ((((((((printedAs_section "Collectibles").append
    (printedAs_bar theme "Scrapbook" sheet.book)).append
    (printedAs_bar theme "Achievements" sheet.achievements)).append
    (printedAs_blank.append (printedAs_section "Attributes"))).append
    (printedAs_fields theme sheet.attributes)).append
    (printedAs_blank.append (printedAs_section "Fortress"))).append
    (printedAs_fields theme sheet.fortress)))

/-- Rankings are worded in two ways, so the left column is the same only above and below them. -/
theorem printedAs_leftColumn (theme : Theme) (sheet : Sheet) :
    ∃ upper lower above below,
      SheetView.leftColumn theme sheet
          = upper ++ sheet.rankings.map SheetView.rankLine ++ lower ∧
        leftColumn .boxes sheet
          = above ++ rankHeading :: sheet.rankings.map Rank.printed ++ below ∧
        PrintedAs upper sheet.upperStandings above ∧
        PrintedAs lower sheet.lowerStandings below := by
  have first := (((printedAs_section "Mount & Potions").append
    (printedAs_value theme "Mount" sheet.mount)).append (printedAs_potions sheet.potions)).append
    (printedAs_blank.append (printedAs_section "Rankings"))
  have last : PrintedAs
      (match sheet.group with
        | some group => SheetView.groupLines theme group
        | none => [])
      sheet.lowerStandings
      (match sheet.group with
        | some group => group.printed .boxes
        | none => []) := by
    unfold lowerStandings
    cases sheet.group with
    | none => exact .nil
    | some group => exact printedAs_group theme group
  refine ⟨_, _, _, _, rfl, ?_, first, last⟩
  cases group : sheet.group <;> simp [leftColumn, rankHeading, group]

theorem length_leftColumn (theme : Theme) (sheet : Sheet) :
    (leftColumn .boxes sheet).length = (SheetView.leftColumn theme sheet).length + 1 := by
  obtain ⟨upper, lower, above, below, shown, written, first, last⟩ :=
    printedAs_leftColumn theme sheet
  rw [shown, written]
  simp only [List.length_append, List.length_cons, List.length_map, first.length_texts,
    last.length_texts]
  omega

/-- The look of the columns does not change their height. -/
theorem preferredHeight_eq (theme : Theme) (sheet : Sheet) :
    SheetView.preferredHeight sheet = sumWithin 16 4
      (max (SheetView.leftColumn theme sheet).length (SheetView.rightColumn theme sheet).length
        % 65536) := by
  have left := (length_leftColumn {} sheet).symm.trans (length_leftColumn theme sheet)
  have right := (printedAs_rightColumn {} sheet).length_texts.symm.trans
    (printedAs_rightColumn theme sheet).length_texts
  rw [SheetView.preferredHeight, Nat.succ.inj left, right]
  rfl

/-- Columns that fit the screen are counted as they are. -/
theorem preferredHeight_of_le {theme : Theme} {sheet : Sheet}
    (fits : max (SheetView.leftColumn theme sheet).length
      (SheetView.rightColumn theme sheet).length ≤ 65531) :
    SheetView.preferredHeight sheet = .ok (4 + max (SheetView.leftColumn theme sheet).length
      (SheetView.rightColumn theme sheet).length) := by
  rw [preferredHeight_eq theme, Nat.mod_eq_of_lt (by omega)]
  apply sumWithin_of_lt
  have range : rangeSize 16 = 65536 := rfl
  omega

theorem length_activePotions_le (player : Player) : player.activePotions.length ≤ 3 :=
  List.length_filter_le _ player.potions.toList

theorem length_lowerStandings_le (sheet : Sheet) : sheet.lowerStandings.length ≤ 8 := by
  unfold lowerStandings
  split <;> simp

/-- The right column of a player has the same lines for everyone, and the left one never more. -/
theorem length_columns_of_build {config : Config} {player : Player} {sheet : Sheet}
    (built : build config player = .ok sheet) (theme : Theme) :
    max (SheetView.leftColumn theme sheet).length (SheetView.rightColumn theme sheet).length
      = 23 := by
  obtain ⟨missing, -, made⟩ := except_bind_eq_ok_iff.1 built
  have right : (SheetView.rightColumn theme sheet).length = 23 := by
    rw [← (printedAs_rightColumn theme sheet).length_standings]
    cases made
    rfl
  have left : (SheetView.leftColumn theme sheet).length ≤ 19 := by
    obtain ⟨upper, lower, above, below, shown, -, first, last⟩ := printedAs_leftColumn theme sheet
    have belt : sheet.potions.length ≤ 3 := by
      cases made
      rw [List.length_map]
      exact length_activePotions_le player
    have rows : sheet.rankings.length = 2 := by
      cases made
      rfl
    have group := length_lowerStandings_le sheet
    rw [shown, List.length_append, List.length_append, List.length_map, rows,
      ← first.length_standings, ← last.length_standings, upperStandings]
    simp only [List.length_append, List.length_cons, List.length_nil, List.length_replicate]
    omega
  rw [right, Nat.max_eq_right (by omega)]

/-- The printed sheet and the one on the screen show the same. The right columns are the same line
by line, and so are the left columns but for the rankings: these are printed under a heading of
their own, and each is worded in two ways with the same label, rank and honor. The height of the
sheet on the screen is that of its longer column under four lines, counted with 16 bits, and the
sheets of all players are so short that nothing is lost. -/
theorem columns_printed (theme : Theme) (sheet : Sheet) :
    PrintedAs (SheetView.rightColumn theme sheet) sheet.rightStandings (rightColumn .boxes sheet) ∧
    (∃ upper lower above below,
      SheetView.leftColumn theme sheet
          = upper ++ sheet.rankings.map SheetView.rankLine ++ lower ∧
        leftColumn .boxes sheet
          = above ++ rankHeading :: sheet.rankings.map Rank.printed ++ below ∧
        PrintedAs upper sheet.upperStandings above ∧
        PrintedAs lower sheet.lowerStandings below) ∧
    (∀ rank : Rank,
      textOf (SheetView.rankLine rank) = "  " ++ Text.padEnd 14 (rank.label ++ ":") ++ "#"
          ++ Figures.plain rank.rank ++ " (" ++ Figures.plain rank.honor ++ " honor)" ∧
        rank.printed = "  " ++ Text.padEnd 14 (rank.label ++ ":")
          ++ Text.padStart 8 (Figures.plain rank.rank) ++ "  "
          ++ Text.padStart 8 (Figures.plain rank.honor)) ∧
    (rightColumn .boxes sheet).length = (SheetView.rightColumn theme sheet).length ∧
    (leftColumn .boxes sheet).length = (SheetView.leftColumn theme sheet).length + 1 ∧
    let lines := max (SheetView.leftColumn theme sheet).length
      (SheetView.rightColumn theme sheet).length
    SheetView.preferredHeight sheet = sumWithin 16 4 (lines % 65536) ∧
    (lines ≤ 65531 → SheetView.preferredHeight sheet = .ok (4 + lines)) ∧
    ∀ config player, build config player = .ok sheet →
      SheetView.preferredHeight sheet = .ok (4 + lines) ∧ 4 + lines = 27 := by
  refine ⟨printedAs_rightColumn theme sheet, printedAs_leftColumn theme sheet,
    fun rank => ⟨?worded, rfl⟩, (printedAs_rightColumn theme sheet).length_texts,
    length_leftColumn theme sheet, preferredHeight_eq theme sheet, preferredHeight_of_le,
    fun config player built => ⟨preferredHeight_of_le ?short, ?exact⟩⟩
  case worded => simp [SheetView.rankLine, SheetView.labelled, labelled, labelWidth,
    String.append_assoc]
  case short =>
    rw [length_columns_of_build built]
    decide
  case exact => rw [length_columns_of_build built]

/-- The sheet of a player of a guild who has one potion in use. -/
theorem columns_printed_of_member :
    ∃ sheet, build {} { membership := some { role := .member }, potions := { first := ⟨1, 25⟩ } }
        = .ok sheet ∧
      SheetView.preferredHeight sheet = .ok 27 := by
  obtain ⟨sheet, built⟩ : ∃ sheet, build {}
      { membership := some { role := .member }, potions := { first := ⟨1, 25⟩ } } = .ok sheet :=
    ⟨_, rfl⟩
  obtain ⟨_, _, _, _, _, _, _, heights⟩ := columns_printed {} sheet
  obtain ⟨height, lines⟩ := heights {} _ built
  exact ⟨sheet, built, lines ▸ height⟩

end Sheet

end GuildRoster
