import GuildRoster.Image.Canvas
import GuildRoster.Proofs.Faults

/-!
# Drawing without faults

Filling a rectangle and writing text into one have a result whenever the rectangle lies below 32
bits. The glyphs of a text stay within the columns of its rectangle, so their places need no more
room than the rectangle itself.
-/

set_option autoImplicit false

namespace GuildRoster

/-- A rectangle whose edges are numbers of 32 bits, with room for one line of glyphs. -/
structure Rect.InRange (rect : Rect) : Prop where
  right : rect.x + rect.width < rangeSize 32
  bottom : rect.y + rect.height < rangeSize 32
  line : rect.y + Canvas.glyphSize ≤ rangeSize 32

theorem Rect.right_eq_ok {rect : Rect} (fits : rect.x + rect.width < rangeSize 32) :
    rect.right = .ok (rect.x + rect.width) := sumWithin_of_lt fits

theorem Rect.bottom_eq_ok {rect : Rect} (fits : rect.y + rect.height < rangeSize 32) :
    rect.bottom = .ok (rect.y + rect.height) := sumWithin_of_lt fits

/-- The pixels that an alignment keeps free at the edge. -/
def Alignment.padding : Alignment → Nat
  | .center => 0
  | .right padding => padding
  | .left padding => padding

namespace Canvas

theorem fill_succeeds (picture : Picture) {rect : Rect}
    (right : rect.x + rect.width < rangeSize 32) (bottom : rect.y + rect.height < rangeSize 32)
    (color : Rgb) : Succeeds (fill picture rect color) := by
  simp only [fill, Rect.right_eq_ok right, Rect.bottom_eq_ok bottom]
  exact ⟨_, rfl⟩

theorem drawDot_succeeds (picture : Picture) (x y : Nat) (color : Rgb) {clip : Rect}
    (inRange : clip.InRange) : Succeeds (drawDot picture x y color clip) := by
  simp only [drawDot, Rect.right_eq_ok inRange.right, Rect.bottom_eq_ok inRange.bottom, bind,
    Except.bind]
  split
  · split
    · exact ⟨_, rfl⟩
    · exact ⟨_, rfl⟩
  · exact ⟨_, rfl⟩

theorem drawDots_succeeds {x y : Nat} (glyph : UInt64) (color : Rgb) {clip : Rect}
    (inRange : clip.InRange) (right : x + glyphSize ≤ rangeSize 32)
    (bottom : y + glyphSize ≤ rangeSize 32) {places : List (Nat × Nat)}
    (inside : ∀ place ∈ places, place.1 < glyphSize ∧ place.2 < glyphSize) (picture : Picture) :
    Succeeds (drawDots x y glyph color clip places picture) := by
  induction places generalizing picture with
  | nil => exact ⟨picture, rfl⟩
  | cons place places ih =>
    obtain ⟨row, column⟩ := place
    obtain ⟨rowInside, columnInside⟩ := inside (row, column) List.mem_cons_self
    have others := ih fun place member => inside place (List.mem_cons_of_mem _ member)
    have dotX : sumWithin 32 x column = .ok (x + column) :=
      sumWithin_of_lt (by dsimp only at columnInside; omega)
    have dotY : sumWithin 32 y row = .ok (y + row) :=
      sumWithin_of_lt (by dsimp only at rowInside; omega)
    unfold drawDots
    split
    next =>
      refine Succeeds.bind_of_eq dotX (Succeeds.bind_of_eq dotY ?_)
      exact (drawDot_succeeds picture _ _ color inRange).bind fun drawn _ => others drawn
    next => exact others picture

theorem drawGlyph_succeeds (picture : Picture) {x y : Nat} (character : Char) (color : Rgb)
    {clip : Rect} (inRange : clip.InRange) (right : x + glyphSize ≤ rangeSize 32)
    (bottom : y + glyphSize ≤ rangeSize 32) :
    Succeeds (drawGlyph picture x y character color clip) := by
  have inside : ∀ place ∈ glyphPlaces, place.1 < glyphSize ∧ place.2 < glyphSize := by decide
  exact drawDots_succeeds _ color inRange right bottom inside picture

theorem drawGlyphs_succeeds {x y : Nat} (color : Rgb) (bold : Bool) {clip : Rect}
    (inRange : clip.InRange) (bottom : y + glyphSize ≤ rangeSize 32) {text : List Char}
    {position : Nat}
    (right : x + (position + text.length) * glyphSize + bold.toNat ≤ rangeSize 32)
    (picture : Picture) :
    Succeeds (drawGlyphs x y color bold clip text position picture) := by
  induction text generalizing position picture with
  | nil => exact ⟨picture, rfl⟩
  | cons character text ih =>
    have size : glyphSize = 8 := rfl
    rw [List.length_cons, size, rangeSize_32] at right
    have glyphX : sumWithin 32 x (position * glyphSize) = .ok (x + position * glyphSize) :=
      sumWithin_of_lt (by rw [size, rangeSize_32]; omega)
    have inside : x + position * glyphSize + bold.toNat + glyphSize ≤ rangeSize 32 := by
      rw [size, rangeSize_32]
      omega
    have others := fun drawn => @ih (position + 1) (by rw [size, rangeSize_32]; omega) drawn
    unfold drawGlyphs
    refine Succeeds.bind_of_eq glyphX ?_
    refine (drawGlyph_succeeds picture character color inRange (by omega) bottom).bind
      fun drawn _ => ?_
    cases bold with
    | false => exact others drawn
    | true =>
      rw [Bool.toNat_true] at inside
      have next : sumWithin 32 (x + position * glyphSize) 1 = .ok (x + position * glyphSize + 1) :=
        sumWithin_of_lt (by omega)
      refine Succeeds.bind_of_eq next ?_
      exact (drawGlyph_succeeds drawn character color inRange (by omega) bottom).bind
        fun thick _ => others thick

/-- A text that is no wider than its rectangle stays between the edges of the rectangle. -/
theorem textX_eq_ok {rect : Rect} {width : Nat} (alignment : Alignment)
    (narrow : width ≤ rect.width) (right : rect.x + rect.width < rangeSize 32)
    (padded : width + alignment.padding < rangeSize 32) :
    ∃ x, textX rect width alignment = .ok x ∧ rect.x ≤ x ∧ x + width ≤ rect.x + rect.width := by
  cases alignment with
  | center =>
    refine ⟨rect.x + (rect.width - width) / 2, ?_, by omega, by omega⟩
    simp only [textX, differenceWithin_of_le narrow, bind, Except.bind]
    exact sumWithin_of_lt (by omega)
  | right padding =>
    refine ⟨rect.x + (rect.width - (width + padding)), ?_, by omega, by omega⟩
    have sum : sumWithin 32 width padding = .ok (width + padding) := sumWithin_of_lt padded
    simp only [textX, sum, bind, Except.bind]
    exact sumWithin_of_lt (by omega)
  | left padding =>
    refine ⟨rect.x + min padding (rect.width - width), ?_, by omega, by omega⟩
    simp only [textX, differenceWithin_of_le narrow, bind, Except.bind]
    exact sumWithin_of_lt (by omega)

/-- Where the glyphs of a text go. They are as many as fit, and none of them is cut off at the left
or at the right edge of the rectangle. -/
theorem drawText_eq {rect : Rect} (inRange : rect.InRange) (text : List Char) (color : Rgb)
    {alignment : Alignment} {bold : Bool} (room : bold.toNat ≤ rect.width)
    (padded : rect.width + alignment.padding < rangeSize 32) :
    ∃ left, rect.x ≤ left ∧
      left + (text.take (fitting rect.width bold)).length * glyphSize + bold.toNat
        ≤ rect.x + rect.width ∧
      ∀ picture, drawText picture rect text color alignment bold =
        drawGlyphs left (rect.y + (rect.height - glyphSize) / 2) color bold rect
          (text.take (fitting rect.width bold)) 0 picture := by
  obtain ⟨right, bottom, line⟩ := inRange
  have size : glyphSize = 8 := rfl
  rw [size] at line
  have short : (text.take (fitting rect.width bold)).length ≤ (rect.width - bold.toNat) / 8 :=
    List.length_take_le _ _
  simp only [drawText]
  generalize text.take (fitting rect.width bold) = shown at short ⊢
  have narrow : shown.length * glyphSize + bold.toNat ≤ rect.width := by
    rw [size]
    omega
  have textWidth : textWidth shown = .ok (shown.length * glyphSize) := if_pos (by omega)
  have width : sumWithin 32 (shown.length * glyphSize) bold.toNat
      = .ok (shown.length * glyphSize + bold.toNat) := sumWithin_of_lt (by omega)
  obtain ⟨left, placed, atLeast, inside⟩ := textX_eq_ok alignment narrow right (by omega)
  have top : sumWithin 32 rect.y ((rect.height - glyphSize) / 2)
      = .ok (rect.y + (rect.height - glyphSize) / 2) := sumWithin_of_lt (by omega)
  refine ⟨left, atLeast, by omega, fun picture => ?_⟩
  simp only [textWidth, width, placed, top, bind, Except.bind]

theorem drawText_succeeds (picture : Picture) {rect : Rect} (inRange : rect.InRange)
    (text : List Char) (color : Rgb) {alignment : Alignment} {bold : Bool}
    (room : bold.toNat ≤ rect.width) (padded : rect.width + alignment.padding < rangeSize 32) :
    Succeeds (drawText picture rect text color alignment bold) := by
  obtain ⟨left, _, inside, drawn⟩ := drawText_eq inRange text color room padded
  have size : glyphSize = 8 := rfl
  have right := inRange.right
  have bottom := inRange.bottom
  have line := inRange.line
  rw [drawn]
  apply drawGlyphs_succeeds color bold inRange
  · rw [size] at line ⊢
    omega
  · rw [Nat.zero_add]
    omega

end Canvas

end GuildRoster
