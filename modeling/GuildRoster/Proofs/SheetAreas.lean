import GuildRoster.Browser.SheetView

/-!
# Areas of sheets

A line of text changes only cells of its row, from its place on and within its width. So a stat
sheet changes only cells of its rectangle, and below its headings each of the two columns changes
only cells of its own half.
-/

set_option autoImplicit false

namespace GuildRoster

/-- A rectangle inside another one. -/
structure Rect.Within (rect outer : Rect) : Prop where
  left : outer.x ≤ rect.x
  right : rect.x + rect.width ≤ outer.x + outer.width
  top : outer.y ≤ rect.y
  bottom : rect.y + rect.height ≤ outer.y + outer.height

theorem Rect.Within.trans {rect between outer : Rect} (first : rect.Within between)
    (second : between.Within outer) : rect.Within outer where
  left := Nat.le_trans second.left first.left
  right := Nat.le_trans first.right second.right
  top := Nat.le_trans second.top first.top
  bottom := Nat.le_trans first.bottom second.bottom

theorem Rect.Within.holds {rect outer : Rect} (inside : rect.Within outer) {x y : Nat}
    (held : rect.holds x y = true) : outer.holds x y = true := by
  obtain ⟨left, right, top, bottom⟩ := inside
  rw [Rect.holds_iff] at held ⊢
  omega

namespace Screen

/-! ## Changes in a region -/

/-- Two screens at one place and of one size whose cells differ only in a region. -/
structure ChangesOnly (region : Nat → Nat → Prop) (before after : Screen) : Prop where
  place : after.toRect = before.toRect
  kept : ∀ x y, ¬ region x y → after.cell? x y = before.cell? x y

namespace ChangesOnly

variable {region other : Nat → Nat → Prop} {before between after : Screen}

theorem refl (screen : Screen) : ChangesOnly region screen screen := ⟨rfl, fun _ _ _ => rfl⟩

theorem trans (first : ChangesOnly region before between)
    (second : ChangesOnly region between after) : ChangesOnly region before after where
  place := second.place.trans first.place
  kept := fun x y outside => (second.kept x y outside).trans (first.kept x y outside)

theorem mono (changes : ChangesOnly region before after)
    (inside : ∀ x y, region x y → other x y) : ChangesOnly other before after where
  place := changes.place
  kept := fun x y outside => changes.kept x y fun within => outside (inside x y within)

theorem modifyCell (screen : Screen) {x y : Nat} (inside : region x y)
    (change : ScreenCell → ScreenCell) :
    ChangesOnly region screen (screen.modifyCell x y change) where
  place := toRect_modifyCell screen x y change
  kept := by
    intro column row outside
    rw [cell?_modifyCell, if_neg]
    rintro ⟨rfl, rfl⟩
    exact outside inside

theorem clearCells (screen : Screen) {x y : Nat} (count : Nat)
    (inside : ∀ column, x ≤ column → column < x + count → region column y) :
    ChangesOnly region screen (screen.clearCells x y count) := by
  induction count with
  | zero => exact refl screen
  | succ count ih =>
    have fewer := ih fun column left right => inside column left (by omega)
    exact fewer.trans (modifyCell _ (inside (x + count) (by omega) (by omega)) _)

end ChangesOnly

/-! ## Text at a place -/

/-- The cells of a row from a place on. -/
def OnRow (x y width : Nat) (column row : Nat) : Prop :=
  row = y ∧ x ≤ column ∧ column < x + width

theorem OnRow.mono {x y width column row : Nat} {start room : Nat}
    (inside : OnRow start y room column row) (left : x ≤ start)
    (right : start + room ≤ x + width) : OnRow x y width column row := by
  obtain ⟨same, after, before⟩ := inside
  exact ⟨same, by omega, by omega⟩

/-- A row of the screen has the cells from a place on. -/
structure HasCells (screen : Screen) (x y width : Nat) : Prop where
  left : screen.x ≤ x
  right : x + width ≤ screen.x + screen.width
  top : screen.y ≤ y
  bottom : y < screen.y + screen.height

namespace HasCells

variable {screen : Screen} {x y width : Nat}

theorem holds (has : HasCells screen x y width) (some : 0 < width) :
    screen.holds x y = true := by
  obtain ⟨left, right, top, bottom⟩ := has
  rw [Rect.holds_iff]
  omega

theorem mono (has : HasCells screen x y width) {start room : Nat} (left : x ≤ start)
    (right : start + room ≤ x + width) : HasCells screen start y room where
  left := Nat.le_trans has.left left
  right := Nat.le_trans right has.right
  top := has.top
  bottom := has.bottom

theorem of_changes (has : HasCells screen x y width) {region : Nat → Nat → Prop} {after : Screen}
    (changes : ChangesOnly region screen after) : HasCells after x y width where
  left := changes.place ▸ has.left
  right := changes.place ▸ has.right
  top := changes.place ▸ has.top
  bottom := changes.place ▸ has.bottom

end HasCells

theorem putClusters_changes {y : Nat} (style : Style) (clusters : List (List Char)) {x left : Nat}
    {screen : Screen} (has : HasCells screen x y left) :
    ∃ drawn next, putClusters y style clusters x left screen = .ok (drawn, next) ∧
      x ≤ next ∧ next ≤ x + left ∧ ChangesOnly (OnRow x y left) screen drawn := by
  induction clusters generalizing x left screen with
  | nil => exact ⟨screen, x, rfl, by omega, by omega, .refl screen⟩
  | cons cluster clusters ih =>
    rw [putClusters]
    dsimp only
    split
    next skipped => exact ih has
    next shown =>
      split
      next wide => exact ⟨screen, x, rfl, by omega, by omega, .refl screen⟩
      next fits =>
        have some : 0 < Text.displayWidth cluster := by
          rw [Bool.or_eq_true, beq_iff_eq, not_or] at shown
          exact Nat.pos_of_ne_zero shown.2
        have put : ChangesOnly (OnRow x y left) screen
            ((screen.putSymbol x y cluster style).clearCells (x + 1) y
              (Text.displayWidth cluster - 1)) := by
          have symbol : ChangesOnly (OnRow x y left) screen (screen.putSymbol x y cluster style) :=
            .modifyCell screen ⟨rfl, by omega, by omega⟩ _
          refine symbol.trans (.clearCells _ _ ?_)
          intro column after before
          exact ⟨rfl, by omega, by omega⟩
        have behind : HasCells screen (x + Text.displayWidth cluster) y
            (left - Text.displayWidth cluster) := has.mono (by omega) (by omega)
        obtain ⟨drawn, next, done, start, ending, changes⟩ := ih (behind.of_changes put)
        rw [if_pos (has.holds (by omega))]
        refine ⟨drawn, next, done, by omega, by omega, put.trans (changes.mono ?_)⟩
        intro column row within
        exact within.mono (by omega) (by omega)

theorem putText_changes {x y limit : Nat} (text : String) (style : Style) {screen : Screen}
    (has : HasCells screen x y limit) :
    ∃ drawn next, screen.putText x y text limit style = .ok (drawn, next) ∧
      x ≤ next ∧ next ≤ x + limit ∧ ChangesOnly (OnRow x y limit) screen drawn := by
  have room : min (screen.x + screen.width - x) limit = limit := by
    have right := has.right
    omega
  rw [putText, room]
  exact putClusters_changes style (Text.clusters text.toList) has

theorem putLine_changes {x y limit : Nat} (line : StyledLine) {screen : Screen}
    (has : HasCells screen x y limit) :
    ∃ drawn, putLine y line x limit screen = .ok drawn ∧
      ChangesOnly (OnRow x y limit) screen drawn := by
  induction line generalizing x limit screen with
  | nil => exact ⟨screen, rfl, .refl screen⟩
  | cons span line ih =>
    rw [putLine]
    split
    next full => exact ⟨screen, rfl, .refl screen⟩
    next room =>
      obtain ⟨drawn, next, done, start, ending, changes⟩ :=
        putText_changes span.text span.style has
      have behind : HasCells screen next y (limit - (next - x)) :=
        has.mono start (by omega)
      obtain ⟨whole, rest, later⟩ := ih (behind.of_changes changes)
      refine ⟨whole, ?_, changes.trans (later.mono ?_)⟩
      · rw [done]
        exact rest
      · intro column row within
        exact within.mono (by omega) (by omega)

end Screen

namespace SheetView

open Screen (ChangesOnly)

/-! ## Columns of lines -/

/-- A rectangle of a screen with numbers of 16 bits for its places. -/
structure Fits (area : Rect) (screen : Screen) : Prop where
  within : area.Within screen.toRect
  columns : screen.x + screen.width < rangeSize 16
  rows : screen.y + screen.height < rangeSize 16

theorem Fits.of_changes {area : Rect} {region : Nat → Nat → Prop} {before after : Screen}
    (fits : Fits area before) (changes : ChangesOnly region before after) : Fits area after where
  within := changes.place ▸ fits.within
  columns := changes.place ▸ fits.columns
  rows := changes.place ▸ fits.rows

theorem Fits.mono {part area : Rect} {screen : Screen} (fits : Fits area screen)
    (inside : part.Within area) : Fits part screen where
  within := inside.trans fits.within
  columns := fits.columns
  rows := fits.rows

theorem drawColumn_changes {area : Rect} (lines : List StyledLine) (index : Nat) {screen : Screen}
    (fits : Fits area screen) :
    ∃ drawn, drawColumn area lines index screen = .ok drawn ∧
      ChangesOnly (fun x y => area.holds x y = true ∧ y < area.y + index + lines.length)
        screen drawn := by
  induction lines generalizing index screen with
  | nil => exact ⟨screen, rfl, .refl screen⟩
  | cons line lines ih =>
    rw [drawColumn]
    split
    next inside =>
      obtain ⟨left, right, top, bottom⟩ := fits.within
      have rows := fits.rows
      have has : Screen.HasCells screen area.x (area.y + index) area.width :=
        ⟨left, right, by omega, by omega⟩
      have sum : sumWithin 16 area.y index = .ok (area.y + index) := sumWithin_of_lt (by omega)
      obtain ⟨put, done, changes⟩ := Screen.putLine_changes line has
      obtain ⟨drawn, rest, later⟩ := ih (index + 1) (fits.of_changes changes)
      refine ⟨drawn, ?_, (changes.mono ?_).trans (later.mono ?_)⟩
      · exact except_bind_eq_ok_iff.2 ⟨_, sum, except_bind_eq_ok_iff.2 ⟨put, done, rest⟩⟩
      · rintro x y ⟨rfl, after, before⟩
        rw [Rect.holds_iff, List.length_cons]
        omega
      · rintro x y ⟨inside, above⟩
        rw [List.length_cons]
        exact ⟨inside, by omega⟩
    next below => exact ⟨screen, rfl, .refl screen⟩

/-! ## Halves of a rectangle -/

/-- The rectangle of the left column: half of each row below the headings. -/
def leftHalf (area : Rect) : Rect :=
  { x := area.x, y := area.y + headerRows, width := area.width / 2
    height := area.height - headerRows }

/-- The rectangle of the right column: the rest of each row below the headings. -/
def rightHalf (area : Rect) : Rect :=
  { x := area.x + area.width / 2, y := area.y + headerRows
    width := area.width - area.width / 2, height := area.height - headerRows }

theorem leftHalf_within {area : Rect} (room : headerRows < area.height) :
    (leftHalf area).Within area := by
  constructor <;> simp only [leftHalf] <;> omega

theorem rightHalf_within {area : Rect} (room : headerRows < area.height) :
    (rightHalf area).Within area := by
  constructor <;> simp only [rightHalf] <;> omega

theorem halves_eq_ok {area : Rect} {screen : Screen} (fits : Fits area screen)
    (room : headerRows < area.height) : halves area = .ok (leftHalf area, rightHalf area) := by
  obtain ⟨⟨_, right, _, bottom⟩, columns, rows⟩ := fits
  have size : rangeSize 16 = 65536 := rfl
  rw [size] at columns rows
  have height : differenceWithin area.height headerRows = .ok (area.height - headerRows) :=
    differenceWithin_of_le (by omega)
  have y : sumWithin 16 area.y headerRows = .ok (area.y + headerRows) :=
    sumWithin_of_lt (by omega)
  have middle : sumWithin 16 area.x (area.width / 2) = .ok (area.x + area.width / 2) :=
    sumWithin_of_lt (by omega)
  have rightWidth : differenceWithin area.width (area.width / 2)
      = .ok (area.width - area.width / 2) := differenceWithin_of_le (by omega)
  have whole : ∀ {x y width height : Nat}, x + width ≤ 65535 → y + height ≤ 65535 →
      Screen.rect x y width height = ⟨x, y, width, height⟩ := by
    intro x y width height inWidth inHeight
    rw [Screen.rect, Nat.min_eq_left (by omega), Nat.min_eq_left (by omega)]
  refine except_bind_eq_ok_iff.2 ⟨_, height, ?_⟩
  refine except_bind_eq_ok_iff.2 ⟨_, y, except_bind_eq_ok_iff.2 ⟨_, middle, ?_⟩⟩
  refine except_bind_eq_ok_iff.2 ⟨_, rightWidth, ?_⟩
  rw [whole (by omega) (by omega), whole (by omega) (by omega)]
  rfl

/-! ## Whole sheets -/

/-- The rows of the headings at the top of a rectangle. -/
def OnHeader (area : Rect) (x y : Nat) : Prop :=
  area.holds x y = true ∧ y < area.y + headerRows

/-- A sheet is drawn without a fault into every rectangle of a screen and changes only cells of the
rectangle. The headings change only the first rows, and a rectangle with no further rows shows
nothing else. In a higher one the left column changes only the first half of each further row, and
the right column only the other half. -/
theorem draw_stays_inside (theme : Theme) (sheet : Sheet) {area : Rect} {screen : Screen}
    (fits : Fits area screen) :
    ∃ headed drawn, drawColumn area (header theme sheet) 0 screen = .ok headed ∧
      draw theme sheet area screen = .ok drawn ∧
      ChangesOnly (fun x y => area.holds x y = true) screen drawn ∧
      ChangesOnly (OnHeader area) screen headed ∧
      (area.height ≤ headerRows → drawn = headed) ∧
      (headerRows < area.height → ∃ between,
        halves area = .ok (leftHalf area, rightHalf area) ∧
        drawColumn (leftHalf area) (leftColumn theme sheet) 0 headed = .ok between ∧
        drawColumn (rightHalf area) (rightColumn theme sheet) 0 between = .ok drawn ∧
        ChangesOnly (fun x y => (leftHalf area).holds x y = true) headed between ∧
        ChangesOnly (fun x y => (rightHalf area).holds x y = true) between drawn) := by
  obtain ⟨headed, head, top⟩ := drawColumn_changes (header theme sheet) 0 fits
  have onHeader : ChangesOnly (OnHeader area) screen headed := by
    refine top.mono ?_
    rintro x y ⟨inside, above⟩
    have three : (header theme sheet).length = 3 := rfl
    have four : headerRows = 4 := rfl
    exact ⟨inside, by omega⟩
  have inArea : ChangesOnly (fun x y => area.holds x y = true) screen headed :=
    onHeader.mono fun _ _ inside => inside.1
  by_cases low : area.height ≤ headerRows
  · refine ⟨headed, headed, head, ?_, inArea, onHeader, fun _ => rfl, fun room => ?_⟩
    · refine except_bind_eq_ok_iff.2 ⟨headed, head, ?_⟩
      rw [if_pos low]
      rfl
    · omega
  · have room : headerRows < area.height := Nat.lt_of_not_le low
    have divided := halves_eq_ok fits room
    have stillFits := fits.of_changes onHeader
    obtain ⟨between, left, leftChanges⟩ :=
      drawColumn_changes (leftColumn theme sheet) 0 (stillFits.mono (leftHalf_within room))
    obtain ⟨drawn, right, rightChanges⟩ :=
      drawColumn_changes (rightColumn theme sheet) 0
        ((stillFits.of_changes leftChanges).mono (rightHalf_within room))
    have onLeft := leftChanges.mono fun _ _ inside => inside.1
    have onRight := rightChanges.mono fun _ _ inside => inside.1
    refine ⟨headed, drawn, head, ?_, ?_, onHeader, fun none => absurd none low,
      fun _ => ⟨between, divided, left, right, onLeft, onRight⟩⟩
    · refine except_bind_eq_ok_iff.2 ⟨headed, head, ?_⟩
      rw [if_neg low]
      exact except_bind_eq_ok_iff.2 ⟨_, divided, except_bind_eq_ok_iff.2 ⟨between, left, right⟩⟩
    · have inLeft := onLeft.mono fun _ _ => (leftHalf_within room).holds
      have inRight := onRight.mono fun _ _ => (rightHalf_within room).holds
      exact inArea.trans (inLeft.trans inRight)

/-- The sheet of a player in a rectangle with a margin around it and one row below the headings. -/
theorem draw_stays_inside_margin :
    Fits ⟨1, 1, 5, 5⟩ (.blank 7 7) ∧
    ∃ sheet drawn, Sheet.build {} {} = .ok sheet ∧
      draw {} sheet ⟨1, 1, 5, 5⟩ (.blank 7 7) = .ok drawn ∧
      drawn.cell? 6 5 = some {} ∧ drawn.cell? 3 6 = some {} := by
  have fits : Fits ⟨1, 1, 5, 5⟩ (.blank 7 7) :=
    ⟨⟨by decide, by decide, by decide, by decide⟩, by decide, by decide⟩
  obtain ⟨sheet, built⟩ : ∃ sheet, Sheet.build {} {} = .ok sheet := ⟨_, rfl⟩
  obtain ⟨_, drawn, _, done, changes, _⟩ := draw_stays_inside {} sheet fits
  refine ⟨fits, sheet, drawn, built, done, ?_, ?_⟩
  · rw [changes.kept 6 5 (by decide), Screen.cell?_blank]
    rfl
  · rw [changes.kept 3 6 (by decide), Screen.cell?_blank]
    rfl

end SheetView

end GuildRoster
