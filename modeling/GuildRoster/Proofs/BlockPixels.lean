import GuildRoster.Proofs.BlockDrawing
import GuildRoster.Proofs.Painting

/-!
# The pixels of a picture

What each pixel of the picture of a block shows. Rows and columns have no place in common and the
borders are drawn last, so a place shows what the one row and the one cell it belongs to leave
there.
-/

set_option autoImplicit false

namespace GuildRoster

variable {x y : Nat}

/-! ## Cells of a row -/

/-- A colour that a cell may show in a line of pixels, when its upper half ends at a middle: the
fill, which is white for a cell without one, the black of the text and the grey of the change. A
cell with a change has text above the middle and the change below it. -/
structure RowCell.MayShow (cell : RowCell) (middle y : Nat) (color : Rgb) : Prop where
  known : color = (cell.fill.map Fill.rgb).getD Canvas.white ∨ color = Canvas.black ∨
    color = Canvas.grey
  grey : color = Canvas.grey → cell.change.isSome = true ∧ middle ≤ y
  black : color = Canvas.black → cell.change.isSome = true → y < middle

namespace RowCell.MayShow

variable {cell : RowCell} {middle : Nat}

theorem fill (cell : RowCell) (middle y : Nat) :
    cell.MayShow middle y ((cell.fill.map Fill.rgb).getD Canvas.white) := by
  have fills : (cell.fill.map Fill.rgb).getD Canvas.white ≠ Canvas.grey ∧
      (cell.fill.map Fill.rgb).getD Canvas.white ≠ Canvas.black := by
    cases cell.fill with
    | none => decide
    | some fill => cases fill <;> decide
  exact ⟨.inl rfl, fun same => absurd same fills.1, fun same => absurd same fills.2⟩

theorem text (upper : cell.change.isSome = true → y < middle) :
    cell.MayShow middle y Canvas.black :=
  ⟨.inr (.inl rfl), fun same => absurd same (by decide), fun _ => upper⟩

theorem change (changed : cell.change.isSome = true) (lower : middle ≤ y) :
    cell.MayShow middle y Canvas.grey :=
  ⟨.inr (.inr rfl), fun _ => ⟨changed, lower⟩, fun same => absurd same (by decide)⟩

end RowCell.MayShow

namespace Block

/-! ## Headings -/

theorem exists_headings_paints : ∃ paint, Paints x y paint (headings.foldlM drawHeading ·) := by
  apply Paints.exists_foldlM
  intro heading known
  obtain ⟨rect, found, _⟩ := heading_rect known
  obtain ⟨paint, painted, _⟩ := Canvas.drawText_inks (x := x) (y := y) rect heading.text.toList
    Canvas.black .center true
  exact ⟨paint, Paints.of_bind found painted⟩

/-! ## Cells -/

/-- What the fill of a cell leaves at a place. -/
private theorem cellFill_paints (cell : RowCell) (rect : Rect) :
    Paints x y (if rect.holds x y = true then cell.fill.map Fill.rgb else none)
      (fun picture => match cell.fill with
        | some fill => Canvas.fill picture rect fill.rgb
        | none => .ok picture) := by
  cases cell.fill with
  | none => simpa using Paints.ok
  | some fill => exact Canvas.fill_paints rect fill.rgb

/-- What the text of a cell and the change below it leave at a place. -/
private theorem cellText_paints (cell : RowCell) (rect : Rect) :
    ∃ paint, Paints x y paint (fun filled => match cell.change with
      | some change => do
        let (upper, lower) ← rect.split
        let drawn ← Canvas.drawText filled upper cell.text.toList Canvas.black (.left 2) false
        Canvas.drawText drawn lower change.toList Canvas.grey (.right 2) false
      | none => Canvas.drawText filled rect cell.text.toList Canvas.black .center false) ∧
    (paint = none ∨ rect.holds x y = true ∧
      (paint = some Canvas.black ∧ (cell.change.isSome = true → y < rect.y + rect.height / 2) ∨
        paint = some Canvas.grey ∧ cell.change.isSome = true ∧
          rect.y + rect.height / 2 ≤ y)) := by
  cases cell.change with
  | none =>
    obtain ⟨paint, painted, rfl | ⟨rfl, inside⟩⟩ := Canvas.drawText_inks (x := x) (y := y) rect
      cell.text.toList Canvas.black .center false
    · exact ⟨none, painted, .inl rfl⟩
    · exact ⟨some Canvas.black, painted, .inr ⟨inside, .inl ⟨rfl, by simp⟩⟩⟩
  | some change =>
    cases split : rect.split with
    | error fault =>
      refine ⟨none, fun before after done => ?_, .inl rfl⟩
      cases done
    | ok halves =>
      obtain ⟨upper, lower⟩ := halves
      obtain ⟨middle, sum, same⟩ := except_bind_eq_ok_iff.1 split
      obtain ⟨_, rfl⟩ := sumWithin_eq_ok_iff.1 sum
      cases same
      obtain ⟨textPaint, textPaints, textBound⟩ := Canvas.drawText_inks (x := x) (y := y)
        { rect with height := rect.height / 2 } cell.text.toList Canvas.black (.left 2) false
      obtain ⟨changePaint, changePaints, changeBound⟩ := Canvas.drawText_inks (x := x) (y := y)
        { rect with y := rect.y + rect.height / 2, height := rect.height - rect.height / 2 }
        change.toList Canvas.grey (.right 2) false
      refine ⟨changePaint.or textPaint, textPaints.bind changePaints, ?_⟩
      rcases changeBound with rfl | ⟨rfl, inLower⟩
      · rcases textBound with rfl | ⟨rfl, inUpper⟩
        · exact .inl rfl
        · rw [Rect.holds_iff] at inUpper
          dsimp only at inUpper
          refine .inr ⟨Rect.holds_iff.2 (by omega), .inl ⟨rfl, fun _ => by omega⟩⟩
      · rw [Rect.holds_iff] at inLower
        dsimp only at inLower
        exact .inr ⟨Rect.holds_iff.2 (by omega), .inr ⟨rfl, rfl, by omega⟩⟩

/-- A cell leaves everything outside its rectangle alone, and what it shows in it is known. -/
theorem drawCell_paints (cell : RowCell) (top height : Nat) :
    ∃ paint, Paints x y paint (drawCell top height · cell) ∧
      ((Grid.columnRect cell.column.index top height).holds x y = false → paint = none) ∧
      ((Grid.columnRect cell.column.index top height).holds x y = true →
        cell.MayShow (top + height / 2) y (paint.getD Canvas.white)) := by
  have found := Grid.cellRect_column (Grid.column_lt cell.column) top height
  generalize shape : Grid.columnRect cell.column.index top height = rect at found ⊢
  have middle : rect.y + rect.height / 2 = top + height / 2 := by
    rw [← shape]
    rfl
  obtain ⟨ink, inked, bound⟩ := @cellText_paints x y cell rect
  rw [middle] at bound
  have filled := @cellFill_paints x y cell rect
  refine ⟨ink.or (if rect.holds x y = true then cell.fill.map Fill.rgb else none),
    Paints.of_bind found ?drawn, ?outside, ?inside⟩
  case drawn =>
    have both := filled.bind inked
    cases kind : cell.fill with
    | none =>
      simp only [kind] at both ⊢
      exact both
    | some fill =>
      simp only [kind] at both ⊢
      exact both
  case outside =>
    intro outside
    rcases bound with rfl | ⟨inside, _⟩
    · simp [outside]
    · rw [outside] at inside
      cases inside
  case inside =>
    intro inside
    rw [if_pos inside]
    rcases bound with rfl | ⟨_, ⟨rfl, upper⟩ | ⟨rfl, changed, lower⟩⟩
    · exact RowCell.MayShow.fill cell (top + height / 2) y
    · exact RowCell.MayShow.text upper
    · exact RowCell.MayShow.change changed lower

theorem exists_drawCells_paints {cells : List RowCell} {top height : Nat} :
    ∃ paint, Paints x y paint (cells.foldlM (drawCell top height) ·) := by
  apply Paints.exists_foldlM
  intro cell _
  obtain ⟨paint, painted, _⟩ := @drawCell_paints x y cell top height
  exact ⟨paint, painted⟩

theorem drawCells_paints_none {cells : List RowCell} {top height : Nat}
    (outside : ∀ cell ∈ cells, (Grid.columnRect cell.column.index top height).holds x y = false) :
    Paints x y none (cells.foldlM (drawCell top height) ·) := by
  apply Paints.foldlM_none
  intro cell member
  obtain ⟨paint, painted, nothing, _⟩ := @drawCell_paints x y cell top height
  rwa [nothing (outside cell member)] at painted

section Rows

variable {config : Config} {compare : Option Roster} {block : Roster}

theorem drawSlot_data {slot : Grid.RowSlot} {index : Nat} {player : Player} {cells : List RowCell}
    (data : slot.kind = .data index) (found : block[index]? = some player)
    (built : Row.build config player
      (compare.bind fun roster => roster.findByName? player.name) = .ok cells)
    (picture : Picture) : drawSlot config compare block picture slot =
      cells.foldlM (drawCell slot.y slot.height) picture := by
  rw [drawSlot, data]
  dsimp only
  rw [found]
  dsimp only
  rw [built]
  rfl

theorem drawLine_paints {slot : Grid.RowSlot}
    (line : slot.kind = .rule ∨ slot.kind = .separator) :
    Paints x y (if x < Grid.pictureWidth ∧ slot.Holds y then some Canvas.black else none)
      (drawSlot config compare block · slot) := by
  have filled := @Canvas.fill_paints x y ⟨0, slot.y, Grid.pictureWidth, slot.height⟩ Canvas.black
  have same : Rect.holds ⟨0, slot.y, Grid.pictureWidth, slot.height⟩ x y = true ↔
      x < Grid.pictureWidth ∧ slot.Holds y := by
    rw [Rect.holds_iff]
    simp [Grid.RowSlot.Holds]
  simp only [same] at filled
  have found := Grid.cellRect_all slot.y slot.height
  rcases line with rule | separator
  · simp only [drawSlot, rule]
    exact Paints.of_bind found filled
  · simp only [drawSlot, separator]
    exact Paints.of_bind found filled

/-- A row leaves something only at its own places. -/
theorem exists_drawSlot_paints (config : Config) (compare : Option Roster) (block : Roster)
    (slot : Grid.RowSlot) :
    ∃ paint, Paints x y paint (drawSlot config compare block · slot) ∧
      (¬ slot.Holds y → paint = none) := by
  cases kind : slot.kind with
  | heading index =>
    simp only [drawSlot, kind]
    exact ⟨none, Paints.ok, fun _ => rfl⟩
  | rule =>
    have painted := @drawLine_paints x y config compare block slot (.inl kind)
    exact ⟨_, painted, fun outside => if_neg fun both => outside both.2⟩
  | separator =>
    have painted := @drawLine_paints x y config compare block slot (.inr kind)
    exact ⟨_, painted, fun outside => if_neg fun both => outside both.2⟩
  | data index =>
    cases found : block[index]? with
    | none =>
      refine ⟨none, fun before after done => ?_, fun _ => rfl⟩
      simp only [drawSlot, kind, found] at done
      cases done
    | some player =>
      cases built : Row.build config player
          (compare.bind fun roster => roster.findByName? player.name) with
      | error fault =>
        refine ⟨none, fun before after done => ?_, fun _ => rfl⟩
        simp only [drawSlot, kind, found, built] at done
        cases done
      | ok cells =>
        simp only [drawSlot_data kind found built]
        by_cases holds : slot.Holds y
        · obtain ⟨paint, painted⟩ := @exists_drawCells_paints x y cells slot.y slot.height
          exact ⟨paint, painted, fun outside => absurd holds outside⟩
        · refine ⟨none, drawCells_paints_none fun cell _ => ?_, fun _ => rfl⟩
          rw [← Bool.not_eq_true, Grid.columnRect_holds_iff]
          exact fun inside => holds inside.2

theorem exists_drawSlots_paints (config : Config) (compare : Option Roster) (block : Roster)
    (slots : List Grid.RowSlot) :
    ∃ paint, Paints x y paint (slots.foldlM (drawSlot config compare block) ·) := by
  apply Paints.exists_foldlM
  intro slot _
  obtain ⟨paint, painted, _⟩ := @exists_drawSlot_paints x y config compare block slot
  exact ⟨paint, painted⟩

end Rows

/-! ## Borders -/

theorem drawBorder_paints {column : Nat} (inside : column + 1 ≤ Grid.columnWidths.length)
    (top height : Nat) :
    Paints x y (if Grid.InColumn column x ∧ top ≤ y ∧ y < top + height then some Canvas.black
      else none) (drawBorder top height · column) := by
  have filled := @Canvas.fill_paints x y (Grid.columnRect column top height) Canvas.black
  simp only [Grid.columnRect_holds_iff] at filled
  exact Paints.of_bind (Grid.cellRect_column inside top height) filled

theorem fullBorder_lt {column : Nat} (known : column ∈ Grid.fullBorders) :
    column + 1 ≤ Grid.columnWidths.length := by
  have columns : ∀ column ∈ Grid.fullBorders, column + 1 ≤ Grid.columnWidths.length := by decide
  exact columns column known

/-- A place on one of the borders of rows that end above `bottom`. -/
def OnBorder (bottom x y : Nat) : Prop :=
  y < bottom ∧ ((∃ column ∈ Grid.fullBorders, Grid.InColumn column x) ∨
    Grid.InColumn Grid.innerBorder x ∧ 35 ≤ y)

instance (bottom x y : Nat) : Decidable (OnBorder bottom x y) :=
  inferInstanceAs (Decidable (_ ∧ (_ ∨ _)))

theorem drawFullBorders_paints (bottom : Nat) :
    Paints x y (if y < bottom ∧ ∃ column ∈ Grid.fullBorders, Grid.InColumn column x
      then some Canvas.black else none) (Grid.fullBorders.foldlM (drawBorder 0 bottom) ·) := by
  split
  next inside =>
    obtain ⟨above, column, known, inColumn⟩ := inside
    have here := @drawBorder_paints x y column (fullBorder_lt known) 0 bottom
    rw [if_pos ⟨inColumn, Nat.zero_le y, by omega⟩] at here
    apply Paints.foldlM_at known here
    intro other alsoKnown different
    have elsewhere := @drawBorder_paints x y other (fullBorder_lt alsoKnown) 0 bottom
    rwa [if_neg fun inside => different (inside.1.unique inColumn)] at elsewhere
  next outside =>
    apply Paints.foldlM_none
    intro column known
    have elsewhere := @drawBorder_paints x y column (fullBorder_lt known) 0 bottom
    rwa [if_neg fun inside => outside ⟨by omega, column, known, inside.1⟩] at elsewhere

/-- What all borders leave: the ones of the whole picture, then the one below the headings. -/
theorem borders_paints {bottom : Nat} (low : 35 ≤ bottom) :
    Paints x y (if OnBorder bottom x y then some Canvas.black else none)
      (fun picture => Grid.fullBorders.foldlM (drawBorder 0 bottom) picture >>=
        (drawBorder 35 (bottom - 35) · Grid.innerBorder)) := by
  have both := (@drawFullBorders_paints x y bottom).bind
    (@drawBorder_paints x y Grid.innerBorder (by decide) 35 (bottom - 35))
  by_cases inner : Grid.InColumn Grid.innerBorder x ∧ 35 ≤ y ∧ y < 35 + (bottom - 35)
  · rw [if_pos inner, Option.some_or] at both
    rwa [if_pos ⟨by omega, .inr ⟨inner.1, inner.2.1⟩⟩]
  · rw [if_neg inner, Option.none_or] at both
    have same : OnBorder bottom x y ↔
        y < bottom ∧ ∃ column ∈ Grid.fullBorders, Grid.InColumn column x := by
      constructor
      · intro ⟨above, either⟩
        refine ⟨above, either.resolve_right fun inside => inner ⟨inside.1, inside.2, ?_⟩⟩
        omega
      · exact fun inside => ⟨inside.1, .inl inside.2⟩
    simpa only [same] using both

/-- The lower end of the rows of a picture of some players. -/
def rowsEnd (players : Nat) : Nat := 37 + 17 * players + players / 2

/-- A row of the picture of a block, the player that it is about, and the cells of that player. -/
structure PlayerRow (config : Config) (compare : Option Roster) (block : Roster)
    (slots : List Grid.RowSlot) (slot : Grid.RowSlot) (player : Player)
    (cells : List RowCell) : Prop where
  member : slot ∈ slots
  found : ∃ index, slot.kind = .data index ∧ block[index]? = some player
  built : Row.build config player (compare.bind fun roster => roster.findByName? player.name)
    = .ok cells

/-- What the picture of a block shows at its places, `slots` being its rows. Below the rows it is
white, the borders and lines are black, and in the row of a player each cell shows what it may show
while the rest is white. -/
structure Shows (config : Config) (compare : Option Roster) (block : Roster)
    (slots : List Grid.RowSlot) (picture : Picture) : Prop where
  size : ∀ x y, (picture.pixel? x y).isSome = true ↔
    x < Grid.pictureWidth ∧ y < Grid.pictureHeight
  below : ∀ x y, x < Grid.pictureWidth → rowsEnd block.length ≤ y → y < Grid.pictureHeight →
    picture.pixel? x y = some Canvas.white
  borders : ∀ column ∈ Grid.fullBorders, ∀ x y, Grid.InColumn column x →
    y < rowsEnd block.length → picture.pixel? x y = some Canvas.black
  innerBorder : ∀ x y, Grid.InColumn Grid.innerBorder x → 35 ≤ y → y < rowsEnd block.length →
    picture.pixel? x y = some Canvas.black
  lines : ∀ slot ∈ slots, slot.kind = .rule ∨ slot.kind = .separator →
    ∀ x y, x < Grid.pictureWidth → slot.Holds y → picture.pixel? x y = some Canvas.black
  cells : ∀ slot player cells, PlayerRow config compare block slots slot player cells →
    ∀ cell ∈ cells, ∀ x y, Grid.InColumn cell.column.index x → slot.Holds y →
    ∃ color, picture.pixel? x y = some color ∧
      cell.MayShow (slot.y + slot.height / 2) y color
  rest : ∀ slot player cells, PlayerRow config compare block slots slot player cells →
    ∀ x y, x < Grid.pictureWidth → slot.Holds y →
    (∀ column ∈ Grid.innerBorder :: Grid.fullBorders, ¬ Grid.InColumn column x) →
    (∀ cell ∈ cells, ¬ Grid.InColumn cell.column.index x) →
    picture.pixel? x y = some Canvas.white
  guild : ∀ slot player cells, PlayerRow config compare block slots slot player cells →
    player.isMember = false →
    ∀ column ∈ Row.guildColumns, ∀ x y, Grid.InColumn column.index x → slot.Holds y →
    picture.pixel? x y = some Canvas.white

/-- A place of a picture shows a border, or what was left there last by the rows or by the
headings. -/
theorem pixel?_render {config : Config} {compare : Option Roster} {block : Roster}
    {slots : List Grid.RowSlot} {picture : Picture} (fits : rowsEnd block.length < rangeSize 32)
    (planned : Grid.rowPlan block.length = .ok slots)
    (drawn : render config compare block = .ok picture) {headed rows : Option Rgb}
    (first : Paints x y headed (headings.foldlM drawHeading ·))
    (second : Paints x y rows (slots.foldlM (drawSlot config compare block) ·)) :
    picture.pixel? x y = if x < Grid.pictureWidth ∧ y < Grid.pictureHeight
      then some (if OnBorder (rowsEnd block.length) x y then Canvas.black
        else (rows.or headed).getD Canvas.white) else none := by
  rw [render_eq config compare fits planned] at drawn
  have low : 35 ≤ rowsEnd block.length := by
    unfold rowsEnd
    omega
  have whole := first.bind (second.bind (borders_paints low)) _ _ drawn
  rw [Painted, Picture.pixel?_blank] at whole
  rw [whole]
  by_cases inside : x < Grid.pictureWidth ∧ y < Grid.pictureHeight
  · rw [if_pos inside, if_pos inside, Option.map_some]
    split
    · rfl
    · rfl
  · rw [if_neg inside, if_neg inside]
    rfl

section Drawn

variable {config : Config} {compare : Option Roster} {block : Roster} {slots : List Grid.RowSlot}
  {picture : Picture} (fits : rowsEnd block.length < rangeSize 32)
  (planned : Grid.rowPlan block.length = .ok slots)
  (drawn : render config compare block = .ok picture)

include fits planned drawn

theorem isSome_pixel?_render (x y : Nat) : (picture.pixel? x y).isSome = true ↔
    x < Grid.pictureWidth ∧ y < Grid.pictureHeight := by
  obtain ⟨headed, first⟩ := @exists_headings_paints x y
  obtain ⟨rows, second⟩ := @exists_drawSlots_paints x y config compare block slots
  rw [pixel?_render fits planned drawn first second]
  split
  next inside => simp [inside]
  next outside => simp [outside]

variable {slot : Grid.RowSlot} {player : Player} {cells : List RowCell}
  (row : PlayerRow config compare block slots slot player cells)

include row

end Drawn

/-- A member, and the same player at a lower level and outside the guild. -/
def grownMember : Player := { name := "A", level := 2, membership := some { role := .member } }

def grownFrom : Player := { name := "A", level := 1 }

theorem not_faulty_grownMember : ¬ Row.Faulty grownFrom grownMember := by decide

end Block

end GuildRoster
