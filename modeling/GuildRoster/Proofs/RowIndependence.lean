import GuildRoster.Proofs.BlockPixels

/-!
# Rows that do not influence each other

Headings, lines and borders of a picture depend on the number of players alone, and what the row of
a player leaves behind stays in the band of that row. So two pictures of as many players, of which
only one has other cells in the second picture, differ at most in the band of that player.
-/

set_option autoImplicit false

namespace GuildRoster

variable {x y : Nat}

/-! ## Pictures by their pixels -/

namespace Picture

theorem isSome_pixel?_iff {picture : Picture} :
    (picture.pixel? x y).isSome = true ↔ x < picture.width ∧ y < picture.height := by
  unfold pixel?
  split
  next inside => simp [inside]
  next outside => simp [outside]

/-- The sides of a picture are known from the places that have a pixel. -/
theorem sides_eq {picture : Picture} {width height : Nat} (wide : 0 < width) (high : 0 < height)
    (pixels : ∀ x y, (picture.pixel? x y).isSome = true ↔ x < width ∧ y < height) :
    picture.width = width ∧ picture.height = height := by
  simp only [isSome_pixel?_iff] at pixels
  have corner := (pixels 0 0).2 ⟨wide, high⟩
  have right := pixels picture.width 0
  have otherRight := pixels width 0
  have bottom := pixels 0 picture.height
  have otherBottom := pixels 0 height
  omega

/-- Pictures of the same size with the same pixels are the same. -/
theorem eq_of_pixel? {picture other : Picture} (width : picture.width = other.width)
    (height : picture.height = other.height)
    (same : ∀ x y, picture.pixel? x y = other.pixel? x y) : picture = other := by
  obtain ⟨wide, high, pixels, size⟩ := picture
  obtain ⟨_, _, otherPixels, otherSize⟩ := other
  cases width
  cases height
  have equal : pixels = otherPixels := by
    apply Array.ext
    · rw [size, otherSize]
    · intro index inside _
      rw [size] at inside
      have positive : 0 < wide := Nat.pos_of_mul_pos_right (Nat.zero_lt_of_lt inside)
      have column : index % wide < wide := Nat.mod_lt index positive
      have row : index / wide < high := Nat.div_lt_of_lt_mul inside
      have here := same (index % wide) (index / wide)
      simpa [pixel?, column, row, Nat.div_add_mod'] using here
  cases equal
  rfl

end Picture

/-! ## Steps that leave the same -/

/-- Two steps of drawing leave the same at a place. -/
def Alike (x y : Nat) (step other : Picture → Except Fault Picture) : Prop :=
  ∃ paint, Paints x y paint step ∧ Paints x y paint other

theorem Alike.foldlM {β : Type} {items : List β} {step other : Picture → β → Except Fault Picture}
    (each : ∀ item ∈ items, Alike x y (step · item) (other · item)) :
    Alike x y (items.foldlM step ·) (items.foldlM other ·) := by
  induction items with
  | nil => exact ⟨none, Paints.ok, Paints.ok⟩
  | cons item items ih =>
    obtain ⟨first, here, alsoHere⟩ := each item List.mem_cons_self
    obtain ⟨later, rest, alsoRest⟩ :=
      ih fun another member => each another (List.mem_cons_of_mem item member)
    exact ⟨later.or first, here.bind rest, alsoHere.bind alsoRest⟩

/-- A place from top to bottom lies in the band of a player's row. -/
def Grid.InBand (index y : Nat) : Prop :=
  37 + 17 * index + index / 2 ≤ y ∧ y < 37 + 17 * index + index / 2 + 17

namespace Block

/-! ## Rows of two blocks -/

/-- The cells of the player at an index of a block, with the changes since the first player of the
same name in the roster to compare with. -/
def cellsAt? (config : Config) (compare : Option Roster) (block : Roster) (index : Nat) :
    Option (Except Fault (List RowCell)) :=
  block[index]?.map fun player =>
    Row.build config player (compare.bind fun roster => roster.findByName? player.name)

theorem drawSlot_cellsAt? {config : Config} {compare : Option Roster} {block : Roster}
    {slot : Grid.RowSlot} {index : Nat} (data : slot.kind = .data index) (picture : Picture) :
    drawSlot config compare block picture slot =
      match cellsAt? config compare block index with
      | none => .error .outOfBounds
      | some built =>
        built >>= fun cells => cells.foldlM (drawCell slot.y slot.height) picture := by
  simp only [drawSlot, data, cellsAt?]
  cases block[index]? with
  | none => rfl
  | some player => rfl

section TwoBlocks

variable {config otherConfig : Config} {compare otherCompare : Option Roster}
  {block otherBlock : Roster} {row : Nat}

/-- A row is drawn from its cells alone. -/
theorem drawSlot_congr {slot : Grid.RowSlot}
    (cells : ∀ index, slot.kind = .data index →
      cellsAt? config compare block index = cellsAt? otherConfig otherCompare otherBlock index)
    (picture : Picture) :
    drawSlot config compare block picture slot
      = drawSlot otherConfig otherCompare otherBlock picture slot := by
  cases kind : slot.kind with
  | data index => rw [drawSlot_cellsAt? kind, drawSlot_cellsAt? kind, cells index kind]
  | heading index => simp only [drawSlot, kind]
  | rule => simp only [drawSlot, kind]
  | separator => simp only [drawSlot, kind]

/-- Outside the band of the one row that may differ, rows leave the same. -/
theorem drawSlots_alike {slots : List Grid.RowSlot} {players : Nat}
    (planned : Grid.rowPlan players = .ok slots)
    (rows : ∀ index, index ≠ row →
      cellsAt? config compare block index = cellsAt? otherConfig otherCompare otherBlock index)
    (outside : ¬ Grid.InBand row y) :
    Alike x y (slots.foldlM (drawSlot config compare block) ·)
      (slots.foldlM (drawSlot otherConfig otherCompare otherBlock) ·) := by
  apply Alike.foldlM
  intro slot member
  obtain ⟨paint, painted, nothing⟩ := @exists_drawSlot_paints x y config compare block slot
  by_cases differs : slot.kind = .data row
  · have free : ¬ slot.Holds y := by
      intro holds
      have top := Grid.rowPlan_data planned member differs
      have height : slot.height = 17 := by rw [Grid.RowSlot.height, differs, Grid.RowKind.height]
      rw [Grid.RowSlot.Holds, top, height] at holds
      exact outside holds
    obtain ⟨otherPaint, otherPainted, otherNothing⟩ :=
      @exists_drawSlot_paints x y otherConfig otherCompare otherBlock slot
    rw [nothing free] at painted
    rw [otherNothing free] at otherPainted
    exact ⟨none, painted, otherPainted⟩
  · have same : ∀ picture, drawSlot config compare block picture slot
        = drawSlot otherConfig otherCompare otherBlock picture slot :=
      drawSlot_congr fun index data => rows index fun equal => differs (equal ▸ data)
    refine ⟨paint, painted, ?_⟩
    simpa only [same] using painted

/-- A block that fits 32 bits is drawn just when the rows of all its players can be built. -/
theorem render_succeeds_iff (config : Config) (compare : Option Roster) {block : Roster}
    (fits : rowsEnd block.length < rangeSize 32) :
    Succeeds (render config compare block) ↔ ∀ player ∈ block, Succeeds (Row.build config player
      (compare.bind fun roster => roster.findByName? player.name)) := by
  rw [(render_failsJust config compare fits).succeeds_iff]
  simp only [(Row.build_failsJust config _ _).succeeds_iff, Row.FaultyIn]
  exact ⟨fun sound player member faulty => sound ⟨player, member, faulty⟩,
    fun sound assumed => assumed.elim fun player faulty => sound player faulty.1 faulty.2⟩

/-- Of two blocks of one length, let all players but one have the same cells. Each block is drawn
just when its rows can be built, and then the two pictures show the same outside the band of that
one player; so they are the same when the band lies below them. -/
theorem render_agrees_off_row (length : otherBlock.length = block.length)
    (fits : rowsEnd block.length < rangeSize 32)
    (rows : ∀ index, index ≠ row →
      cellsAt? config compare block index = cellsAt? otherConfig otherCompare otherBlock index) :
    (Succeeds (render config compare block) ↔ ∀ player ∈ block, Succeeds (Row.build config player
      (compare.bind fun roster => roster.findByName? player.name))) ∧
    (Succeeds (render otherConfig otherCompare otherBlock) ↔ ∀ player ∈ otherBlock,
      Succeeds (Row.build otherConfig player
        (otherCompare.bind fun roster => roster.findByName? player.name))) ∧
    ∀ picture other, render config compare block = .ok picture →
      render otherConfig otherCompare otherBlock = .ok other →
      (∀ x y, ¬ Grid.InBand row y → picture.pixel? x y = other.pixel? x y) ∧
      (Grid.pictureHeight ≤ 37 + 17 * row + row / 2 → picture = other) := by
  have otherFits : rowsEnd otherBlock.length < rangeSize 32 := length ▸ fits
  refine ⟨render_succeeds_iff config compare fits,
    render_succeeds_iff otherConfig otherCompare otherFits, ?_⟩
  intro picture other drawn otherDrawn
  obtain ⟨slots, planned, _⟩ := Grid.rowPlan_eq_ok fits
  have otherPlanned : Grid.rowPlan otherBlock.length = .ok slots := length ▸ planned
  have offBand : ∀ x y, ¬ Grid.InBand row y → picture.pixel? x y = other.pixel? x y := by
    intro x y outside
    obtain ⟨headed, first⟩ := @exists_headings_paints x y
    obtain ⟨left, second, otherSecond⟩ := drawSlots_alike (x := x) planned rows outside
    rw [pixel?_render fits planned drawn first second,
      pixel?_render otherFits otherPlanned otherDrawn first otherSecond, length]
  refine ⟨offBand, fun below => ?_⟩
  have pixels := isSome_pixel?_render fits planned drawn
  have otherPixels := isSome_pixel?_render otherFits otherPlanned otherDrawn
  obtain ⟨width, height⟩ := Picture.sides_eq (by decide) (by decide) pixels
  obtain ⟨otherWidth, otherHeight⟩ := Picture.sides_eq (by decide) (by decide) otherPixels
  apply Picture.eq_of_pixel? (width.trans otherWidth.symm) (height.trans otherHeight.symm)
  intro x y
  by_cases inside : y < Grid.pictureHeight
  · apply offBand
    intro band
    have least := band.1
    omega
  · have missing : ¬ (picture.pixel? x y).isSome = true := fun some =>
      inside ((pixels x y).1 some).2
    have otherMissing : ¬ (other.pixel? x y).isSome = true := fun some =>
      inside ((otherPixels x y).1 some).2
    rw [Option.not_isSome_iff_eq_none] at missing otherMissing
    rw [missing, otherMissing]

end TwoBlocks

/-- The grown member and another player. -/
def grownAbove : Roster := [grownMember, { name := "B" }]

theorem grownAbove_agrees_off_first_row :
    (∀ index, index ≠ 0 → cellsAt? {} (some [grownFrom]) grownAbove index =
      cellsAt? {} none grownAbove index) ∧
    ∃ picture other, render {} (some [grownFrom]) grownAbove = .ok picture ∧
      render {} none grownAbove = .ok other ∧
      ∀ x y, ¬ Grid.InBand 0 y → picture.pixel? x y = other.pixel? x y := by
  have rows : ∀ index, index ≠ 0 → cellsAt? {} (some [grownFrom]) grownAbove index =
      cellsAt? {} none grownAbove index := by
    intro index different
    match index with
    | 0 => exact absurd rfl different
    | 1 => simp [cellsAt?, grownAbove, Roster.findByName?, grownFrom]
    | _ + 2 => simp [cellsAt?, grownAbove]
  obtain ⟨drawn, otherDrawn, agree⟩ := render_agrees_off_row rfl (by decide) rows
  have near : ∀ player ∈ grownAbove, ¬ Row.Exceeds grownFrom.level player.level ∧
      ¬ Row.Exceeds grownFrom.gearScore player.gearScore ∧
      ¬ Row.Exceeds grownFrom.book player.book := by decide
  obtain ⟨picture, shown⟩ := drawn.2 fun player member => by
    apply (Row.build_failsJust {} player _).succeeds
    rintro ⟨before, found, faulty⟩
    change [grownFrom].find? (·.name == player.name) = some before at found
    obtain rfl := List.mem_singleton.1 (List.mem_of_find?_eq_some found)
    obtain ⟨level, gear, book⟩ := near player member
    rcases faulty with outside | outside | outside | ⟨_, _, guild, _⟩
    · exact level outside
    · exact gear outside
    · exact book outside
    · cases guild
  obtain ⟨other, otherShown⟩ := otherDrawn.2 fun player _ => by
    apply (Row.build_failsJust {} player _).succeeds
    simp
  exact ⟨rows, picture, other, shown, otherShown, (agree picture other shown otherShown).1⟩

end Block

end GuildRoster
