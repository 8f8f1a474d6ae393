import GuildRoster.Rect
import GuildRoster.Tier

/-!
# Pictures

A rectangle of coloured pixels, stored row by row from the top.
-/

set_option autoImplicit false

namespace GuildRoster

structure Picture where
  width : Nat
  height : Nat
  pixels : Array Rgb
  size_pixels : pixels.size = width * height

namespace Picture

def blank (width height : Nat) (color : Rgb) : Picture :=
  ⟨width, height, Array.replicate (width * height) color, by simp⟩

def pixel? (picture : Picture) (x y : Nat) : Option Rgb :=
  if inside : x < picture.width ∧ y < picture.height then
    have within : y * picture.width + x < picture.pixels.size := by
      rw [picture.size_pixels]; exact Rect.index_lt inside.1 inside.2
    some picture.pixels[y * picture.width + x]
  else none

/-- A picture with one pixel recoloured. A pixel outside changes nothing. -/
def setPixel (picture : Picture) (x y : Nat) (color : Rgb) : Picture :=
  if inside : x < picture.width ∧ y < picture.height then
    let index := y * picture.width + x
    { picture with
      pixels := picture.pixels.set index color (by
        rw [picture.size_pixels]; exact Rect.index_lt inside.1 inside.2)
      size_pixels := by rw [Array.size_set]; exact picture.size_pixels }
  else picture

@[simp] theorem width_setPixel (picture : Picture) (x y : Nat) (color : Rgb) :
    (picture.setPixel x y color).width = picture.width := by
  unfold setPixel; split <;> rfl

@[simp] theorem height_setPixel (picture : Picture) (x y : Nat) (color : Rgb) :
    (picture.setPixel x y color).height = picture.height := by
  unfold setPixel; split <;> rfl

theorem pixel?_blank (width height x y : Nat) (color : Rgb) :
    (blank width height color).pixel? x y
      = if x < width ∧ y < height then some color else none := by
  simp only [pixel?, blank, Array.getElem_replicate]
  split <;> rfl

theorem pixel?_setPixel (picture : Picture) (x y otherX otherY : Nat) (color : Rgb) :
    (picture.setPixel x y color).pixel? otherX otherY
      = if x = otherX ∧ y = otherY ∧ x < picture.width ∧ y < picture.height then some color
        else picture.pixel? otherX otherY := by
  unfold setPixel
  split
  next inside =>
    simp only [pixel?]
    split
    next otherInside =>
      simp only [Array.getElem_set, Rect.index_inj inside.1 otherInside.1]
      split
      next same => simp [same.1, same.2, otherInside]
      next differs =>
        rw [if_neg fun same => differs ⟨same.2.1, same.1⟩]
    next otherOutside =>
      rw [if_neg]
      rintro ⟨rfl, rfl, _⟩
      exact otherOutside inside
  next outside => rw [if_neg fun same => outside same.2.2]

end Picture

end GuildRoster
