import GuildRoster.Proofs.Drawing
import GuildRoster.Proofs.Painting

/-!
# The pixels of a text

A text in a rectangle of a picture shows the characters that fit the width of the rectangle, each in
its full width. It gives the dots of these characters its colour, as far down as the rectangle goes,
and leaves all other pixels alone.
-/

set_option autoImplicit false

namespace GuildRoster.Canvas

variable {x y : Nat}

/-! ## Where characters lie -/

theorem OnCharacter.within {character : Char} {bold : Bool} {left top : Nat}
    (dotted : OnCharacter character bold left top x y) :
    left ≤ x ∧ x < left + glyphSize + bold.toNat ∧ top ≤ y := by
  rcases dotted with thin | ⟨rfl, thick⟩
  · obtain ⟨row, _, column, narrow, _, rfl, rfl⟩ := thin
    omega
  · obtain ⟨row, _, column, narrow, _, rfl, rfl⟩ := thick
    rw [Bool.toNat_true]
    omega

theorem OnText.exists_index {text : List Char} {bold : Bool} {left top : Nat}
    (shown : OnText text bold left top x y) :
    ∃ index < text.length, left + index * glyphSize ≤ x ∧
      x < left + index * glyphSize + glyphSize + bold.toNat ∧ top ≤ y := by
  obtain ⟨index, character, found, dotted⟩ := shown
  exact ⟨index, (List.getElem?_eq_some_iff.1 found).1, dotted.within⟩

/-! ## Texts in rectangles -/

/-- What drawing some characters half way between the top and the bottom of a rectangle leaves, when
the first of them starts at a place from left to right. -/
structure ShowsText (rect : Rect) (shown : List Char) (color : Rgb) (bold : Bool) (left : Nat)
    (before after : Picture) : Prop where
  columns : ∀ index < shown.length, rect.x ≤ left + index * 8 ∧
    left + index * 8 + 8 + bold.toNat ≤ rect.x + rect.width
  drawn : ∀ x y, OnText shown bold left (rect.y + (rect.height - 8) / 2) x y →
    y < rect.y + rect.height → after.pixel? x y = some color
  untouched : ∀ x y, ¬ OnText shown bold left (rect.y + (rect.height - 8) / 2) x y →
    after.pixel? x y = before.pixel? x y
  inside : ∀ x y, after.pixel? x y ≠ before.pixel? x y →
    rect.holds x y = true ∧ after.pixel? x y = some color

theorem showsText_of_drawGlyphs {rect : Rect} {shown : List Char} {color : Rgb} {bold : Bool}
    {left : Nat} {before after : Picture}
    (inPicture : rect.x + rect.width ≤ before.width ∧ rect.y + rect.height ≤ before.height)
    (least : rect.x ≤ left)
    (most : left + shown.length * glyphSize + bold.toNat ≤ rect.x + rect.width)
    (done : drawGlyphs left (rect.y + (rect.height - glyphSize) / 2) color bold rect shown 0 before
      = .ok after) : ShowsText rect shown color bold left before after := by
  have size : glyphSize = 8 := rfl
  have marks := drawGlyphs_marks color bold least
    (Nat.le_add_right rect.y ((rect.height - glyphSize) / 2)) shown 0
  rw [Nat.zero_mul, Nat.add_zero] at marks
  have columns : ∀ index < shown.length, rect.x ≤ left + index * 8 ∧
      left + index * 8 + 8 + bold.toNat ≤ rect.x + rect.width := by
    intro index early
    rw [size] at most
    omega
  have holds : ∀ x y, OnText shown bold left (rect.y + (rect.height - glyphSize) / 2) x y →
      y < rect.y + rect.height → rect.holds x y = true := by
    intro x y dotted above
    obtain ⟨index, early, atLeast, atMost, below⟩ := dotted.exists_index
    have room := columns index early
    rw [size] at atLeast atMost
    rw [Rect.holds_iff]
    omega
  have marked : ∀ x y, rect.holds x y = true →
      OnText shown bold left (rect.y + (rect.height - glyphSize) / 2) x y →
      after.pixel? x y = some color := by
    intro x y held dotted
    have painted := (marks x y).1 ⟨held, dotted⟩ before after done
    rw [Rect.holds_iff] at held
    exact painted.colored (by omega)
  have unmarked : ∀ x y, ¬ (rect.holds x y = true ∧
      OnText shown bold left (rect.y + (rect.height - glyphSize) / 2) x y) →
      after.pixel? x y = before.pixel? x y := by
    intro x y free
    exact ((marks x y).2 free before after done).kept
  refine ⟨columns, fun x y dotted above => marked x y (holds x y dotted above) dotted,
    fun x y free => unmarked x y fun both => free both.2, fun x y changed => ?_⟩
  by_cases both : rect.holds x y = true ∧
      OnText shown bold left (rect.y + (rect.height - glyphSize) / 2) x y
  · exact ⟨both.1, marked x y both.1 both.2⟩
  · exact absurd (unmarked x y both) changed

/-- A text in a rectangle of a picture is drawn without a fault. It shows its first characters, as
many as fit the width, and what it leaves depends on no other characters. -/
theorem drawText_stays_inside {picture : Picture} {rect : Rect} {alignment : Alignment}
    {bold : Bool}
    (inPicture : rect.x + rect.width ≤ picture.width ∧ rect.y + rect.height ≤ picture.height)
    (sides : picture.width < rangeSize 31 ∧ picture.height < rangeSize 31)
    (padded : alignment.padding < rangeSize 31) (room : bold = true → 1 ≤ rect.width)
    (text : List Char) (color : Rgb) :
    ∃ left after, drawText picture rect text color alignment bold = .ok after ∧
      ShowsText rect (text.take ((rect.width - bold.toNat) / 8)) color bold left picture after ∧
      ∀ other : List Char,
        other.take ((rect.width - bold.toNat) / 8) = text.take ((rect.width - bold.toNat) / 8) →
        drawText picture rect other color alignment bold = .ok after := by
  have range := rangeSize_32
  have halfRange : rangeSize 31 = 2147483648 := rfl
  have size : glyphSize = 8 := rfl
  have inRange : rect.InRange := ⟨by omega, by omega, by omega⟩
  have wide : bold.toNat ≤ rect.width := by
    cases bold with
    | false => exact Nat.zero_le _
    | true => exact room rfl
  have narrow : rect.width + alignment.padding < rangeSize 32 := by omega
  obtain ⟨after, done⟩ := drawText_succeeds picture inRange text color wide narrow
  obtain ⟨left, least, most, drawn⟩ := drawText_eq inRange text color wide narrow
  refine ⟨left, after, done, ?_, fun other same => ?_⟩
  · rw [drawn] at done
    exact showsText_of_drawGlyphs inPicture least most done
  · rw [← done, drawText, drawText, fitting, size, same]

theorem drawText_stays_inside_corner :
    let picture := Picture.blank 64 20 white
    let rect : Rect := ⟨10, 12, 20, 8⟩
    (rect.x + rect.width ≤ picture.width ∧ rect.y + rect.height ≤ picture.height) ∧
    (picture.width < rangeSize 31 ∧ picture.height < rangeSize 31) ∧
    Alignment.padding (.right 3) < rangeSize 31 ∧ 1 ≤ rect.width ∧
    ∃ left after, drawText picture rect ['W', 'i', 'd', 'e'] black (.right 3) true = .ok after ∧
      drawText picture rect ['W', 'i'] black (.right 3) true = .ok after ∧
      ShowsText rect ['W', 'i'] black true left picture after := by
  obtain ⟨left, after, done, shows, alike⟩ :=
    @drawText_stays_inside (Picture.blank 64 20 white) ⟨10, 12, 20, 8⟩ (.right 3) true (by decide)
      (by decide) (by decide) (by decide) ['W', 'i', 'd', 'e'] black
  exact ⟨by decide, by decide, by decide, by decide, left, after, done, alike ['W', 'i'] rfl, shows⟩

end GuildRoster.Canvas
