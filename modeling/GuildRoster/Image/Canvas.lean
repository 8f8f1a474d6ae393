import GuildRoster.Image.Glyph
import GuildRoster.Image.Grid
import GuildRoster.Image.Picture

/-!
# Drawing on pictures

Filled rectangles and text of eight by eight dots. Whatever leaves the picture is not drawn; sums
and differences of places that leave 32 bits are faults.
-/

set_option autoImplicit false

namespace GuildRoster

/-- Where a text stands in its rectangle. Text at an edge keeps some pixels away from it. -/
inductive Alignment where
  | center
  | right (padding : Nat)
  | left (padding : Nat)
  deriving DecidableEq, Repr

namespace Canvas

def glyphSize : Nat := 8

def black : Rgb := ⟨0, 0, 0⟩

def white : Rgb := ⟨255, 255, 255⟩

def grey : Rgb := ⟨96, 96, 96⟩

def textWidth (text : List Char) : Except Fault Nat :=
  if text.length * glyphSize < rangeSize 32 then .ok (text.length * glyphSize)
  else .error (.overflow .multiplication)

def fillRow (color : Rgb) (y x : Nat) : Nat → Picture → Picture
  | 0, picture => picture
  | count + 1, picture => fillRow color y (x + 1) count (picture.setPixel x y color)

def fillRows (color : Rgb) (x width y : Nat) : Nat → Picture → Picture
  | 0, picture => picture
  | count + 1, picture =>
    fillRows color x width (y + 1) count (fillRow color y x width picture)

def fill (picture : Picture) (rect : Rect) (color : Rgb) : Except Fault Picture := do
  let right := min (← rect.right) picture.width
  let bottom := min (← rect.bottom) picture.height
  return fillRows color rect.x (right - rect.x) rect.y (bottom - rect.y) picture

def drawDot (picture : Picture) (x y : Nat) (color : Rgb) (clip : Rect) : Except Fault Picture := do
  let right ← clip.right
  if x < right then
    let bottom ← clip.bottom
    if y < bottom then return picture.setPixel x y color else return picture
  else return picture

def drawDots (x y : Nat) (glyph : UInt64) (color : Rgb) (clip : Rect) :
    List (Nat × Nat) → Picture → Except Fault Picture
  | [], picture => .ok picture
  | (row, column) :: places, picture =>
    if Glyph.hasDot glyph row column then do
      let dotX ← sumWithin 32 x column
      let dotY ← sumWithin 32 y row
      drawDots x y glyph color clip places (← drawDot picture dotX dotY color clip)
    else drawDots x y glyph color clip places picture

def glyphPlaces : List (Nat × Nat) :=
  (List.range 8).flatMap fun row => (List.range 8).map fun column => (row, column)

def drawGlyph (picture : Picture) (x y : Nat) (character : Char) (color : Rgb) (clip : Rect) :
    Except Fault Picture :=
  drawDots x y (Glyph.ofChar character) color clip glyphPlaces picture

/-- The number of glyphs that fit a width. Bold text needs one pixel more. -/
def fitting (width : Nat) (bold : Bool) : Nat := (width - bold.toNat) / glyphSize

def textX (rect : Rect) (width : Nat) : Alignment → Except Fault Nat
  | .center => do sumWithin 32 rect.x ((← differenceWithin rect.width width) / 2)
  | .right padding => do sumWithin 32 rect.x (rect.width - (← sumWithin 32 width padding))
  | .left padding => do sumWithin 32 rect.x (min padding (← differenceWithin rect.width width))

/-- Draws glyphs one behind the other, the first of them at a position of the text. Bold glyphs are
drawn twice, one pixel apart. -/
def drawGlyphs (x y : Nat) (color : Rgb) (bold : Bool) (clip : Rect) :
    List Char → Nat → Picture → Except Fault Picture
  | [], _, picture => .ok picture
  | character :: text, position, picture => do
    let glyphX ← sumWithin 32 x (position * glyphSize)
    let drawn ← drawGlyph picture glyphX y character color clip
    let drawn ←
      if bold then drawGlyph drawn (← sumWithin 32 glyphX 1) y character color clip
      else .ok drawn
    drawGlyphs x y color bold clip text (position + 1) drawn

/-- Draws a text in a rectangle, as many of its characters as fit, half way between top and
bottom. -/
def drawText (picture : Picture) (rect : Rect) (text : List Char) (color : Rgb)
    (alignment : Alignment) (bold : Bool) : Except Fault Picture := do
  let shown := text.take (fitting rect.width bold)
  let width ← sumWithin 32 (← textWidth shown) bold.toNat
  let x ← textX rect width alignment
  let y ← sumWithin 32 rect.y ((rect.height - glyphSize) / 2)
  drawGlyphs x y color bold rect shown 0 picture

def pixel (picture : Picture) (x y : Nat) : Except Fault Rgb :=
  match picture.pixel? x y with
  | some color => .ok color
  | none => .error .outOfBounds

end Canvas

end GuildRoster
