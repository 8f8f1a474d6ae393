/-!
# Rectangles

Rectangles of pixels or of screen cells, given by their upper left corner and their size.
-/

set_option autoImplicit false

namespace GuildRoster

structure Rect where
  x : Nat
  y : Nat
  width : Nat
  height : Nat
  deriving DecidableEq, Repr

namespace Rect

def isEmpty (rect : Rect) : Bool := rect.width == 0 || rect.height == 0

def holds (rect : Rect) (x y : Nat) : Bool :=
  rect.x ≤ x && x < rect.x + rect.width && rect.y ≤ y && y < rect.y + rect.height

def intersection (rect other : Rect) : Rect :=
  let x := max rect.x other.x
  let y := max rect.y other.y
  { x, y
    width := min (rect.x + rect.width) (other.x + other.width) - x
    height := min (rect.y + rect.height) (other.y + other.height) - y }

def dropColumns (rect : Rect) (count : Nat) : Rect :=
  { rect with x := rect.x + min count rect.width, width := rect.width - count }

def row (rect : Rect) (index : Nat) : Rect :=
  { rect with y := rect.y + index, height := 1 }

def inner (rect : Rect) : Rect :=
  { x := min (rect.x + 1) (rect.x + rect.width)
    y := min (rect.y + 1) (rect.y + rect.height)
    width := rect.width - 2
    height := rect.height - 2 }

theorem holds_iff {rect : Rect} {x y : Nat} :
    rect.holds x y = true ↔
      (rect.x ≤ x ∧ x < rect.x + rect.width) ∧ rect.y ≤ y ∧ y < rect.y + rect.height := by
  simp [holds, and_assoc]

theorem index_lt {width height x y : Nat} (inWidth : x < width) (inHeight : y < height) :
    y * width + x < width * height := by
  calc y * width + x < y * width + width := by omega
    _ = (y + 1) * width := by rw [Nat.succ_mul]
    _ ≤ height * width := Nat.mul_le_mul_right width inHeight
    _ = width * height := Nat.mul_comm height width

theorem index_inj {width x y otherX otherY : Nat} (inWidth : x < width)
    (otherInWidth : otherX < width) :
    y * width + x = otherY * width + otherX ↔ y = otherY ∧ x = otherX := by
  constructor
  · intro same
    have columns : (y * width + x) % width = (otherY * width + otherX) % width := by rw [same]
    have rows : (y * width + x) / width = (otherY * width + otherX) / width := by rw [same]
    have positive : 0 < width := by omega
    rw [Nat.mul_comm, Nat.mul_add_mod, Nat.mod_eq_of_lt inWidth, Nat.mul_comm, Nat.mul_add_mod,
      Nat.mod_eq_of_lt otherInWidth] at columns
    rw [Nat.mul_comm, Nat.mul_add_div positive, Nat.div_eq_of_lt inWidth, Nat.mul_comm,
      Nat.mul_add_div positive, Nat.div_eq_of_lt otherInWidth] at rows
    omega
  · rintro ⟨rfl, rfl⟩
    rfl

end Rect

end GuildRoster
