import GuildRoster.Image.Block
import GuildRoster.Proofs.Drawing
import GuildRoster.Proofs.GridLaws
import GuildRoster.Proofs.Rows

/-!
# When pictures cannot be drawn

A picture of a block that fits 32 bits is drawn unless a change between two snapshots of one of its
players leaves 64 bits. Nothing else that drawing computes can leave its range.
-/

set_option autoImplicit false

namespace GuildRoster

namespace Block

/-- Headings have rectangles above the first line. -/
theorem heading_rect {heading : Heading} (known : heading ∈ headings) :
    ∃ rect, Grid.cellRect heading.column.index heading.span
        (Grid.total (Grid.headingHeights.take heading.row))
        (Grid.total ((Grid.headingHeights.drop heading.row).take heading.rows)) = .ok rect ∧
      rect.y + rect.height ≤ 35 ∧ 0 < rect.width ∧
      rect.x + rect.width ≤ Grid.pictureWidth := by
  have spans : ∀ heading ∈ headings,
      heading.column.index + heading.span ≤ Grid.columnWidths.length ∧ 0 < heading.span := by
    decide
  have heights : ∀ heading ∈ headings, Grid.total (Grid.headingHeights.take heading.row)
      + Grid.total ((Grid.headingHeights.drop heading.row).take heading.rows) ≤ 35 := by
    decide
  obtain ⟨inside, positive⟩ := spans heading known
  have low := heights heading known
  obtain ⟨rect, found, top, height, wide, right⟩ := Grid.cellRect_eq_ok inside positive
    (Grid.total (Grid.headingHeights.take heading.row))
    (Grid.total ((Grid.headingHeights.drop heading.row).take heading.rows))
  exact ⟨rect, found, by omega, wide, right⟩

theorem drawHeading_succeeds (picture : Picture) {heading : Heading} (known : heading ∈ headings) :
    Succeeds (drawHeading picture heading) := by
  obtain ⟨rect, found, low, wide, right⟩ := heading_rect known
  have width : Grid.pictureWidth = 840 := rfl
  have size : Canvas.glyphSize = 8 := rfl
  have range := rangeSize_32
  have inRange : rect.InRange := ⟨by omega, by omega, by omega⟩
  refine Succeeds.bind_of_eq found ?_
  exact Canvas.drawText_succeeds picture inRange heading.text.toList Canvas.black wide
    (by rw [Alignment.padding]; omega)

/-- The text of a cell and, if there is one, the change below it. -/
private theorem cellText_succeeds (filled : Picture) {rect : Rect} (cell : RowCell)
    (right : rect.x + rect.width ≤ Grid.pictureWidth)
    (bottom : rect.y + rect.height < rangeSize 32) (tall : 2 * Canvas.glyphSize ≤ rect.height) :
    Succeeds (match cell.change with
      | some change => do
        let (upper, lower) ← rect.split
        let drawn ← Canvas.drawText filled upper cell.text.toList Canvas.black (.left 2) false
        Canvas.drawText drawn lower change.toList Canvas.grey (.right 2) false
      | none => Canvas.drawText filled rect cell.text.toList Canvas.black .center false) := by
  have width : Grid.pictureWidth = 840 := rfl
  have size : Canvas.glyphSize = 8 := rfl
  have range := rangeSize_32
  cases cell.change with
  | none =>
    have inRange : rect.InRange := ⟨by omega, bottom, by omega⟩
    exact Canvas.drawText_succeeds filled inRange _ _ (Nat.zero_le _)
      (by rw [Alignment.padding]; omega)
  | some change =>
    have split : rect.split = .ok ({ rect with height := rect.height / 2 },
        { rect with y := rect.y + rect.height / 2, height := rect.height - rect.height / 2 }) := by
      have below : rect.y + rect.height / 2 < rangeSize 32 := by omega
      simp only [Rect.split, sumWithin_of_lt below]
      rfl
    have upper : Rect.InRange { rect with height := rect.height / 2 } :=
      ⟨by dsimp only; omega, by dsimp only; omega, by dsimp only; omega⟩
    have lower : Rect.InRange { rect with
        y := rect.y + rect.height / 2, height := rect.height - rect.height / 2 } :=
      ⟨by dsimp only; omega, by dsimp only; omega, by dsimp only; omega⟩
    refine Succeeds.bind_of_eq split ?_
    refine (Canvas.drawText_succeeds filled upper _ _ (Nat.zero_le _)
      (by rw [Alignment.padding]; dsimp only; omega)).bind fun drawn _ => ?_
    exact Canvas.drawText_succeeds drawn lower _ _ (Nat.zero_le _)
      (by rw [Alignment.padding]; dsimp only; omega)

theorem drawCell_succeeds {y height : Nat} (bottom : y + height < rangeSize 32)
    (tall : 2 * Canvas.glyphSize ≤ height) (picture : Picture) (cell : RowCell) :
    Succeeds (drawCell y height picture cell) := by
  obtain ⟨rect, found, rfl, rfl, _, right⟩ :=
    Grid.cellRect_eq_ok (Grid.column_lt cell.column) Nat.one_pos y height
  have width : Grid.pictureWidth = 840 := rfl
  have range := rangeSize_32
  have text := fun filled => cellText_succeeds filled cell right bottom tall
  refine Succeeds.bind_of_eq found ?_
  cases cell.fill with
  | none => exact text picture
  | some fill =>
    have filled := Canvas.fill_succeeds picture (by omega) bottom fill.rgb
    exact filled.bind fun filled _ => text filled

/-- A line across the whole picture. -/
private theorem fillColumns_succeeds (picture : Picture) {column span y height : Nat}
    (inside : column + span ≤ Grid.columnWidths.length) (positive : 0 < span)
    (bottom : y + height < rangeSize 32) :
    Succeeds (do Canvas.fill picture (← Grid.cellRect column span y height) Canvas.black) := by
  obtain ⟨rect, found, rfl, rfl, _, right⟩ := Grid.cellRect_eq_ok inside positive y height
  have width : Grid.pictureWidth = 840 := rfl
  have range := rangeSize_32
  refine Succeeds.bind_of_eq found ?_
  exact Canvas.fill_succeeds picture (by omega) bottom Canvas.black

/-- A slot is drawn unless it belongs to a player with a change that is no number of 64 bits. -/
theorem drawSlot_failsJust (config : Config) (compare : Option Roster) (block : Roster)
    (picture : Picture) {slot : Grid.RowSlot} (bottom : slot.y + slot.height < rangeSize 32)
    (present : ∀ index, slot.kind = .data index → index < block.length) :
    FailsJust Row.changeFault
      (∃ index player, slot.kind = .data index ∧ block[index]? = some player ∧
        Row.FaultyIn compare player)
      (drawSlot config compare block picture slot) := by
  obtain ⟨kind, y⟩ := slot
  cases kind with
  | heading index =>
    refine (FailsJust.of_succeeds ⟨picture, rfl⟩).congr ?_
    simp
  | rule =>
    refine (FailsJust.of_succeeds ?_).congr (by simp)
    exact fillColumns_succeeds picture (by decide) (by decide) bottom
  | separator =>
    refine (FailsJust.of_succeeds ?_).congr (by simp)
    exact fillColumns_succeeds picture (by decide) (by decide) bottom
  | data index =>
    have there : index < block.length := present index rfl
    have found : block[index]? = some block[index] := List.getElem?_eq_getElem there
    have row := Row.build_failsJust config block[index]
      (compare.bind fun roster => roster.findByName? block[index].name)
    simp only [drawSlot, found]
    refine FailsJust.congr (row.bind fun cells _ => FailsJust.of_succeeds ?_) ?_
    · apply Succeeds.foldlM
      intro state cell _
      have tall : 2 * Canvas.glyphSize ≤ 17 := by decide
      exact drawCell_succeeds bottom tall state cell
    · simp [found, Row.FaultyIn]

/-- The slots of a picture are drawn unless some player has a change that is no number of 64
bits. -/
theorem drawSlots_failsJust (config : Config) (compare : Option Roster) {block : Roster}
    {slots : List Grid.RowSlot} (kinds : slots.map (·.kind) = Grid.rowKinds block.length)
    (inside : ∀ slot ∈ slots, slot.y + slot.height < rangeSize 32) (picture : Picture) :
    FailsJust Row.changeFault (∃ player ∈ block, Row.FaultyIn compare player)
      (slots.foldlM (drawSlot config compare block) picture) := by
  have known : ∀ index, .data index ∈ slots.map (·.kind) ↔ index < block.length := by
    intro index
    rw [kinds]
    exact Grid.data_mem_rowKinds_iff
  have drawn : FailsJust Row.changeFault
      (∃ slot ∈ slots, ∃ index player, slot.kind = .data index ∧ block[index]? = some player ∧
        Row.FaultyIn compare player)
      (slots.foldlM (drawSlot config compare block) picture) := by
    apply FailsJust.foldlM
    intro state slot member
    apply drawSlot_failsJust config compare block state (inside slot member)
    intro index data
    exact (known index).1 (data ▸ List.mem_map_of_mem member)
  refine drawn.congr ⟨?_, ?_⟩
  · intro assumed
    rcases assumed with ⟨_, _, index, player, _, found, faulty⟩
    exact ⟨player, List.mem_of_getElem? found, faulty⟩
  · intro assumed
    rcases assumed with ⟨player, member, faulty⟩
    obtain ⟨index, there, found⟩ := List.getElem_of_mem member
    obtain ⟨slot, present, kind⟩ := List.mem_map.1 ((known index).2 there)
    exact ⟨slot, present, index, player, kind, List.getElem?_eq_some_iff.2 ⟨there, found⟩, faulty⟩

theorem drawBorder_succeeds (picture : Picture) {y height column : Nat}
    (inside : column + 1 ≤ Grid.columnWidths.length) (bottom : y + height < rangeSize 32) :
    Succeeds (drawBorder y height picture column) :=
  fillColumns_succeeds picture inside Nat.one_pos bottom

theorem drawFullBorders_succeeds (picture : Picture) {bottom : Nat} (fits : bottom < rangeSize 32) :
    Succeeds (Grid.fullBorders.foldlM (drawBorder 0 bottom) picture) := by
  have columns : ∀ column ∈ Grid.fullBorders, column + 1 ≤ Grid.columnWidths.length := by decide
  apply Succeeds.foldlM
  intro state column known
  exact drawBorder_succeeds state (columns column known) (by omega)

theorem bottom_rowPlan {players : Nat} {slots : List Grid.RowSlot}
    (fits : 37 + 17 * players + players / 2 < rangeSize 32)
    (planned : Grid.rowPlan players = .ok slots) :
    bottom slots = .ok (37 + 17 * players + players / 2) := by
  obtain ⟨same, alsoPlanned, _, _, final, last, lowest⟩ := Grid.rowPlan_eq_ok fits
  obtain rfl : slots = same := by
    rw [planned] at alsoPlanned
    cases alsoPlanned
    rfl
  rw [bottom, last]
  dsimp only
  rw [sumWithin_of_lt (by omega), lowest]

/-- Drawing a block that fits 32 bits: headings, rows, the borders of the whole picture and the
border below the headings. -/
theorem render_eq (config : Config) (compare : Option Roster) {block : Roster}
    {slots : List Grid.RowSlot} (fits : 37 + 17 * block.length + block.length / 2 < rangeSize 32)
    (planned : Grid.rowPlan block.length = .ok slots) :
    render config compare block = (do
      let headed ← headings.foldlM drawHeading
        (Picture.blank Grid.pictureWidth Grid.pictureHeight Canvas.white)
      let drawn ← slots.foldlM (drawSlot config compare block) headed
      let bordered ← Grid.fullBorders.foldlM
        (drawBorder 0 (37 + 17 * block.length + block.length / 2)) drawn
      drawBorder (Grid.total Grid.headingHeights)
        (37 + 17 * block.length + block.length / 2 - Grid.total Grid.headingHeights) bordered
        Grid.innerBorder) := by
  simp only [render, planned, bottom_rowPlan fits planned, bind, Except.bind]

/-- A block that fits 32 bits is drawn unless one of its players has a change that is no number of
64 bits. -/
theorem render_failsJust (config : Config) (compare : Option Roster) {block : Roster}
    (fits : 37 + 17 * block.length + block.length / 2 < rangeSize 32) :
    FailsJust Row.changeFault (∃ player ∈ block, Row.FaultyIn compare player)
      (render config compare block) := by
  obtain ⟨slots, planned, kinds, inside, _⟩ := Grid.rowPlan_eq_ok fits
  have top : Grid.total Grid.headingHeights = 35 := rfl
  rw [render_eq config compare fits planned]
  -- Only the slots can fail: headings and borders lie within the picture whatever the players are.
  have headed : Succeeds (headings.foldlM drawHeading
      (Picture.blank Grid.pictureWidth Grid.pictureHeight Canvas.white)) := by
    apply Succeeds.foldlM
    intro state heading known
    exact drawHeading_succeeds state known
  have drawn := drawSlots_failsJust config compare kinds fun slot member =>
    Nat.lt_of_le_of_lt (inside slot member) fits
  have inner : ∀ bordered, Succeeds (drawBorder (Grid.total Grid.headingHeights)
      (37 + 17 * block.length + block.length / 2 - Grid.total Grid.headingHeights) bordered
      Grid.innerBorder) :=
    fun bordered => drawBorder_succeeds bordered (by decide) (by omega)
  refine FailsJust.congr ((FailsJust.of_succeeds headed).bind fun picture _ =>
    (drawn picture).bind fun picture _ =>
      (FailsJust.of_succeeds (drawFullBorders_succeeds picture fits)).bind
        fun picture _ => FailsJust.of_succeeds (inner picture)) ?_
  rw [false_or, or_false, or_false]

end Block

end GuildRoster
