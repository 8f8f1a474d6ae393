import GuildRoster.Proofs.BlockFiles
import GuildRoster.Proofs.GridLaws
import Mathlib.Logic.ExistsUnique

/-!
# The layout of the rows

The rows of a picture cover the places from its top to the end of its last row, each place once:
headings, a rule, and then one row for each player, with a line after every second one. The picture
has room for the rows of fifty players and no more.
-/

set_option autoImplicit false

namespace GuildRoster

namespace Grid

variable {players top bottom y : Nat} {slots : List RowSlot}

/-! ## Rows without gaps -/

/-- Rows fill the places from one to another: each starts where the one before it ends. -/
def Tiles (top : Nat) : List RowSlot → Nat → Prop
  | [], bottom => top = bottom
  | slot :: slots, bottom => slot.y = top ∧ Tiles (slot.y + slot.height) slots bottom

theorem Tiles.le (tiled : Tiles top slots bottom) : top ≤ bottom := by
  induction slots generalizing top with
  | nil => exact Nat.le_of_eq tiled
  | cons slot slots ih =>
    obtain ⟨rfl, rest⟩ := tiled
    exact Nat.le_trans (Nat.le_add_right _ _) (ih rest)

theorem Tiles.bottom_le (tiled : Tiles top slots bottom) {slot : RowSlot} (member : slot ∈ slots) :
    slot.y + slot.height ≤ bottom := by
  induction slots generalizing top with
  | nil => cases member
  | cons first slots ih =>
    obtain ⟨_, rest⟩ := tiled
    rcases List.mem_cons.1 member with rfl | later
    · exact rest.le
    · exact ih rest later

theorem Tiles.exists_holds_iff (tiled : Tiles top slots bottom) :
    (∃ slot ∈ slots, slot.Holds y) ↔ top ≤ y ∧ y < bottom := by
  induction slots generalizing top with
  | nil =>
    obtain rfl : top = bottom := tiled
    simp only [List.not_mem_nil, false_and, exists_false, false_iff]
    omega
  | cons slot slots ih =>
    obtain ⟨rfl, rest⟩ := tiled
    have below := rest.le
    rw [List.exists_mem_cons_iff, ih rest, RowSlot.Holds]
    omega

theorem place_tiles {kinds : List RowKind} (placed : place y kinds = .ok slots) :
    Tiles y slots (y + heights kinds) := by
  induction kinds generalizing y slots with
  | nil =>
    cases placed
    rfl
  | cons kind kinds ih =>
    obtain ⟨later, rfl, others⟩ := place_cons placed
    rw [heights_cons, ← Nat.add_assoc]
    exact ⟨rfl, ih others⟩

/-! ## The rows of a plan -/

/-- The row of a player and the line that follows every second one. -/
def playerKinds (index : Nat) : List RowKind :=
  if index % 2 = 1 then [.data index, .separator] else [.data index]

theorem dataKinds_eq (first count : Nat) :
    dataKinds first count = (List.range' first count).flatMap playerKinds := by
  induction count generalizing first with
  | zero => rfl
  | succ count ih =>
    rw [dataKinds, List.range'_succ, List.flatMap_cons, playerKinds, ih]
    split
    · rfl
    · rfl

/-- What the rows of a picture of some players are and where they lie. -/
structure Layout (players : Nat) (slots : List RowSlot) : Prop where
  kinds : slots.map (·.kind) =
    [.heading 0, .heading 1, .rule] ++ (List.range players).flatMap playerKinds
  tiles : Tiles 0 slots (37 + 17 * players + players / 2)
  once : ∀ y, y < 37 + 17 * players + players / 2 ↔ ∃! slot, slot ∈ slots ∧ slot.Holds y
  data : ∀ slot ∈ slots, ∀ index, slot.kind = .data index → slot.y = 37 + 17 * index + index / 2

theorem layout_of_rowPlan (planned : rowPlan players = .ok slots) : Layout players slots := by
  have tiled : Tiles 0 slots (37 + 17 * players + players / 2) := by
    have placed := place_tiles planned
    rwa [heights_rowKinds, Nat.zero_add] at placed
  refine ⟨?kinds, tiled, fun y => ?once, fun slot member index data =>
    rowPlan_data planned member data⟩
  case kinds =>
    rw [kinds_of_place planned, rowKinds, dataKinds_eq, List.range_eq_range']
  case once =>
    have covered := @Tiles.exists_holds_iff 0 _ y _ tiled
    constructor
    · intro above
      obtain ⟨slot, member, holds⟩ := covered.2 ⟨Nat.zero_le y, above⟩
      refine ⟨slot, ⟨member, holds⟩, fun other alsoHolds => ?_⟩
      exact RowSlot.Holds.unique (place_ascending planned).2 alsoHolds.1 member alsoHolds.2 holds
    · intro only
      obtain ⟨slot, ⟨member, holds⟩, _⟩ := only
      exact (covered.1 ⟨slot, member, holds⟩).2

/-- The rows of fifty players reach to the end of the picture. -/
theorem rows_fit_iff (planned : rowPlan players = .ok slots) :
    (∀ slot ∈ slots, slot.y + slot.height ≤ pictureHeight) ↔ players ≤ 50 := by
  have tiled := (layout_of_rowPlan planned).tiles
  have height : pictureHeight = 912 := rfl
  constructor
  · intro inside
    have last := (@Tiles.exists_holds_iff 0 _ (36 + 17 * players + players / 2) _ tiled).2
      ⟨Nat.zero_le _, by omega⟩
    obtain ⟨slot, member, holds⟩ := last
    have above := inside slot member
    have below := holds.2
    omega
  · intro few slot member
    have above := tiled.bottom_le member
    omega

end Grid

namespace Block

/-- Rows that fit 32 bits are laid out without gaps, and they lie within the picture just when there
are at most fifty players. So the rows of every block of a roster do, and of a block of fifty-one
players the last one would start where the picture ends. -/
theorem rows_laid_out {players : Nat} (fits : 37 + 17 * players + players / 2 < rangeSize 32) :
    (∃ slots, Grid.rowPlan players = .ok slots ∧ Grid.Layout players slots ∧
      ((∀ slot ∈ slots, slot.y + slot.height ≤ Grid.pictureHeight) ↔ players ≤ 50)) ∧
    (∀ roster onlyMembers, ∀ block ∈ plan roster onlyMembers,
      ∃ slots, Grid.rowPlan block.length = .ok slots ∧
        ∀ slot ∈ slots, slot.y + slot.height ≤ Grid.pictureHeight) ∧
    ∃ slots slot, Grid.rowPlan 51 = .ok slots ∧ slot ∈ slots ∧ slot.kind = .data 50 ∧
      slot.y = Grid.pictureHeight := by
  have range := rangeSize_32
  refine ⟨?any, ?blocks, ?more⟩
  case any =>
    obtain ⟨slots, planned, _⟩ := Grid.rowPlan_eq_ok fits
    exact ⟨slots, planned, Grid.layout_of_rowPlan planned, Grid.rows_fit_iff planned⟩
  case blocks =>
    intro roster onlyMembers block member
    have few : block.length ≤ 50 := length_plan_le member
    obtain ⟨slots, planned, _⟩ := @Grid.rowPlan_eq_ok block.length (by omega)
    exact ⟨slots, planned, (Grid.rows_fit_iff planned).2 few⟩
  case more =>
    obtain ⟨slots, planned, kinds, _⟩ := @Grid.rowPlan_eq_ok 51 (by omega)
    have there : .data 50 ∈ slots.map (·.kind) := by
      rw [kinds]
      exact Grid.data_mem_rowKinds_iff.2 (by decide)
    obtain ⟨slot, member, data⟩ := List.mem_map.1 there
    exact ⟨slots, slot, planned, member, data, Grid.rowPlan_data planned member data⟩

theorem rows_of_seven_laid_out :
    37 + 17 * 7 + 7 / 2 < rangeSize 32 ∧ ∃ slots, Grid.rowPlan 7 = .ok slots ∧
      Grid.Layout 7 slots ∧ ∀ slot ∈ slots, slot.y + slot.height ≤ Grid.pictureHeight := by
  obtain ⟨⟨slots, planned, layout, inside⟩, _⟩ := @rows_laid_out 7 (by decide)
  exact ⟨by decide, slots, planned, layout, inside.2 (by decide)⟩

end Block

end GuildRoster
