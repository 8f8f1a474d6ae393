import GuildRoster.Image.Grid

/-!
# Laws of the grid

The rows of a picture lie one below the other without gaps, every column lies within the width of
the picture, and places stay within 32 bits as long as the last row does.
-/

set_option autoImplicit false

namespace GuildRoster.Grid

/-! ## Columns -/

theorem total_append (front back : List Nat) :
    total (front ++ back) = total front + total back := by
  induction front with
  | nil => simp [total]
  | cons size front ih => simp [total, ih, Nat.add_assoc]

theorem total_take_add (sizes : List Nat) (start count : Nat) :
    total (sizes.take start) + total ((sizes.drop start).take count) ≤ total sizes := by
  have whole : sizes = sizes.take start ++ ((sizes.drop start).take count
      ++ (sizes.drop start).drop count) := by
    rw [List.take_append_drop, List.take_append_drop]
  calc total (sizes.take start) + total ((sizes.drop start).take count)
      ≤ total (sizes.take start) + (total ((sizes.drop start).take count)
          + total ((sizes.drop start).drop count)) := by omega
    _ = total sizes := by rw [← total_append, ← total_append, ← whole]

/-- Some columns next to each other have a rectangle, which lies within the width of the picture. -/
theorem cellRect_eq_ok {column span : Nat} (inside : column + span ≤ columnWidths.length)
    (positive : 0 < span) (y height : Nat) :
    ∃ rect, cellRect column span y height = .ok rect ∧ rect.y = y ∧ rect.height = height ∧
      0 < rect.width ∧ rect.x + rect.width ≤ pictureWidth := by
  have count : columnWidths.length = 17 := rfl
  have start : column ≤ columnWidths.length := by omega
  have sum : sumWithin 64 column span = .ok (column + span) := by
    apply sumWithin_of_lt
    have size : rangeSize 64 = 18446744073709551616 := rfl
    omega
  refine ⟨⟨total (columnWidths.take column), y,
    total ((columnWidths.drop column).take span), height⟩, ?_, rfl, rfl, ?_, ?_⟩
  · simp only [cellRect, columnX, spanWidth, if_pos start, sum, bind, Except.bind, if_pos inside]
    rfl
  · have there : column < columnWidths.length := by omega
    have first : columnWidths[column] ∈ columnWidths := List.getElem_mem there
    have wide : ∀ width ∈ columnWidths, 0 < width := by decide
    obtain ⟨count, rfl⟩ := Nat.exists_eq_succ_of_ne_zero (Nat.ne_of_gt positive)
    have above := wide columnWidths[column] first
    rw [List.drop_eq_getElem_cons there, List.take_succ_cons]
    change 0 < columnWidths[column] + _
    omega
  · exact total_take_add columnWidths column span

theorem total_take_le (sizes : List Nat) {count more : Nat} (fewer : count ≤ more) :
    total (sizes.take count) ≤ total (sizes.take more) := by
  have front : sizes.take count = (sizes.take more).take count := by
    rw [List.take_take, Nat.min_eq_left fewer]
  calc total (sizes.take count)
      ≤ total (sizes.take count) + total ((sizes.take more).drop count) := Nat.le_add_right _ _
    _ = total (sizes.take more) := by rw [front, ← total_append, List.take_append_drop]

/-- A place from left to right lies in a column. -/
def InColumn (column x : Nat) : Prop :=
  total (columnWidths.take column) ≤ x ∧ x < total (columnWidths.take (column + 1))

instance (column x : Nat) : Decidable (InColumn column x) := inferInstanceAs (Decidable (_ ∧ _))

/-- Columns have no place in common. -/
theorem InColumn.unique {column other x : Nat} (inside : InColumn column x)
    (alsoInside : InColumn other x) : column = other := by
  obtain ⟨least, most⟩ := inside
  obtain ⟨otherLeast, otherMost⟩ := alsoInside
  rcases Nat.lt_trichotomy column other with before | same | behind
  · have apart : total (columnWidths.take (column + 1)) ≤ total (columnWidths.take other) :=
      total_take_le columnWidths before
    omega
  · exact same
  · have apart : total (columnWidths.take (other + 1)) ≤ total (columnWidths.take column) :=
      total_take_le columnWidths behind
    omega

theorem column_lt (column : Column) : column.index + 1 ≤ columnWidths.length := by
  have count : columnWidths.length = 17 := rfl
  cases column with
  | potion slot =>
    have few := slot.isLt
    simp only [Column.index]
    omega
  | _ => decide

/-- The part of a column between two rows. -/
def columnRect (column y height : Nat) : Rect :=
  { x := total (columnWidths.take column), y, width := total ((columnWidths.drop column).take 1)
    height }

theorem cellRect_column {column : Nat} (inside : column + 1 ≤ columnWidths.length)
    (y height : Nat) : cellRect column 1 y height = .ok (columnRect column y height) := by
  have count : columnWidths.length = 17 := rfl
  have start : column ≤ columnWidths.length := by omega
  have sum : sumWithin 64 column 1 = .ok (column + 1) := by
    apply sumWithin_of_lt
    have size : rangeSize 64 = 18446744073709551616 := rfl
    omega
  simp only [cellRect, columnX, spanWidth, if_pos start, sum, bind, Except.bind, if_pos inside]
  rfl

theorem columnRect_holds_iff {column top height x y : Nat} :
    (columnRect column top height).holds x y = true ↔
      InColumn column x ∧ top ≤ y ∧ y < top + height := by
  have next : total (columnWidths.take column) + total ((columnWidths.drop column).take 1)
      = total (columnWidths.take (column + 1)) := by
    rw [List.take_add, total_append]
  rw [Rect.holds_iff, InColumn, ← next]
  rfl

/-- The rectangle of all columns together. -/
theorem cellRect_all (y height : Nat) :
    cellRect 0 columnWidths.length y height = .ok ⟨0, y, pictureWidth, height⟩ := rfl

/-! ## Rows -/

/-- The height of rows one below the other. -/
def heights (kinds : List RowKind) : Nat := total (kinds.map RowKind.height)

theorem heights_cons (kind : RowKind) (kinds : List RowKind) :
    heights (kind :: kinds) = kind.height + heights kinds := rfl

/-- Rows that fit 32 bits are placed one below the other, the first at the given place. -/
theorem place_eq_ok {y : Nat} {kinds : List RowKind}
    (fits : y + heights kinds < rangeSize 32) :
    ∃ slots, place y kinds = .ok slots ∧ slots.map (·.kind) = kinds ∧
      (∀ slot ∈ slots, slot.y + slot.height ≤ y + heights kinds) ∧
      (∀ slot, slots.getLast? = some slot → slot.y + slot.height = y + heights kinds) := by
  induction kinds generalizing y with
  | nil => exact ⟨[], rfl, rfl, by simp, by simp⟩
  | cons kind kinds ih =>
    rw [heights_cons] at fits ⊢
    have next : sumWithin 32 y kind.height = .ok (y + kind.height) :=
      sumWithin_of_lt (by omega)
    obtain ⟨slots, placed, same, inside, last⟩ := ih (y := y + kind.height) (by omega)
    refine ⟨⟨kind, y⟩ :: slots, ?_, ?_, ?_, ?_⟩
    · simp only [place, next, placed, bind, Except.bind]
      rfl
    · simp [same]
    · intro slot member
      cases member with
      | head =>
        change y + kind.height ≤ _
        omega
      | tail _ later =>
        have below := inside slot later
        omega
    · intro slot found
      cases slots with
      | nil =>
        have empty : kinds = [] := by simpa using same.symm
        subst empty
        cases found
        rfl
      | cons first others =>
        rw [List.getLast?_cons_cons] at found
        have below := last slot found
        omega

theorem place_cons {y : Nat} {kind : RowKind} {kinds : List RowKind} {slots : List RowSlot}
    (placed : place y (kind :: kinds) = .ok slots) :
    ∃ later, slots = ⟨kind, y⟩ :: later ∧ place (y + kind.height) kinds = .ok later := by
  rw [place] at placed
  obtain ⟨next, sum, placed⟩ := except_bind_eq_ok_iff.1 placed
  obtain ⟨later, others, same⟩ := except_bind_eq_ok_iff.1 placed
  obtain ⟨_, rfl⟩ := sumWithin_eq_ok_iff.1 sum
  cases same
  exact ⟨later, rfl, others⟩

theorem kinds_of_place {y : Nat} {kinds : List RowKind} {slots : List RowSlot}
    (placed : place y kinds = .ok slots) : slots.map (·.kind) = kinds := by
  induction kinds generalizing y slots with
  | nil =>
    cases placed
    rfl
  | cons kind kinds ih =>
    obtain ⟨later, rfl, others⟩ := place_cons placed
    rw [List.map_cons, ih others]

/-- Rows lie one below the other. -/
theorem place_ascending {y : Nat} {kinds : List RowKind} {slots : List RowSlot}
    (placed : place y kinds = .ok slots) :
    (∀ slot ∈ slots, y ≤ slot.y) ∧
      slots.Pairwise fun upper lower => upper.y + upper.height ≤ lower.y := by
  induction kinds generalizing y slots with
  | nil =>
    cases placed
    simp
  | cons kind kinds ih =>
    obtain ⟨later, rfl, others⟩ := place_cons placed
    obtain ⟨below, ascending⟩ := ih others
    refine ⟨fun slot member => ?_, List.pairwise_cons.2 ⟨below, ascending⟩⟩
    rcases List.mem_cons.1 member with rfl | known
    · exact Nat.le_refl y
    · have lower := below slot known
      omega

/-- A place from top to bottom lies in a row. -/
def RowSlot.Holds (slot : RowSlot) (y : Nat) : Prop := slot.y ≤ y ∧ y < slot.y + slot.height

instance (slot : RowSlot) (y : Nat) : Decidable (slot.Holds y) :=
  inferInstanceAs (Decidable (_ ∧ _))

/-- Rows that lie one below the other have no place in common. -/
theorem RowSlot.Holds.unique {slots : List RowSlot}
    (ascending : slots.Pairwise fun upper lower => upper.y + upper.height ≤ lower.y)
    {slot other : RowSlot} {y : Nat} (member : slot ∈ slots) (alsoMember : other ∈ slots)
    (holds : slot.Holds y) (alsoHolds : other.Holds y) : slot = other := by
  obtain ⟨least, most⟩ := holds
  obtain ⟨otherLeast, otherMost⟩ := alsoHolds
  induction slots with
  | nil => cases member
  | cons first slots ih =>
    obtain ⟨below, ascending⟩ := List.pairwise_cons.1 ascending
    rcases List.mem_cons.1 member with rfl | later
    · rcases List.mem_cons.1 alsoMember with rfl | alsoLater
      · rfl
      · have apart := below other alsoLater
        omega
    · rcases List.mem_cons.1 alsoMember with rfl | alsoLater
      · have apart := below slot later
        omega
      · exact ih ascending later alsoLater

theorem mem_dataKinds {first count index : Nat} (member : .data index ∈ dataKinds first count) :
    first ≤ index ∧ index < first + count := by
  induction count generalizing first with
  | zero => cases member
  | succ count ih =>
    rw [dataKinds, List.mem_cons] at member
    rcases member with here | later
    · cases here
      omega
    · split at later
      next =>
        rw [List.mem_cons] at later
        rcases later with line | later
        · cases line
        · have bounds := ih later
          omega
      next =>
        have bounds := ih later
        omega

/-- The row of a player, one of those from the given one on, is as far down as the rows and lines
before it are high. -/
theorem place_data {y first count index : Nat} {slots : List RowSlot} {slot : RowSlot}
    (placed : place y (dataKinds first count) = .ok slots) (member : slot ∈ slots)
    (data : slot.kind = .data index) :
    slot.y = y + 17 * (index - first) + (index / 2 - first / 2) := by
  induction count generalizing y first slots with
  | zero =>
    cases placed
    cases member
  | succ count ih =>
    have later : ∀ {start : Nat} {rows : List RowSlot},
        place start (dataKinds (first + 1) count) = .ok rows → slot ∈ rows → first < index := by
      intro start rows placed member
      have kind := List.mem_map_of_mem (f := (·.kind)) member
      rw [kinds_of_place placed, data] at kind
      exact (mem_dataKinds kind).1
    rw [dataKinds] at placed
    obtain ⟨others, rfl, below⟩ := place_cons placed
    change place (y + 17) _ = _ at below
    rcases List.mem_cons.1 member with rfl | known
    · cases data
      dsimp only
      omega
    · split at below
      next odd =>
        obtain ⟨rest, rfl, lower⟩ := place_cons below
        change place (y + 17 + 1) _ = _ at lower
        rcases List.mem_cons.1 known with rfl | known
        · cases data
        · have place := ih lower known
          have bound := later lower known
          omega
      next even =>
        have place := ih below known
        have bound := later below known
        omega

theorem heights_dataKinds (first count : Nat) :
    heights (dataKinds first count) = 17 * count + ((first + count) / 2 - first / 2) := by
  induction count generalizing first with
  | zero => simp [dataKinds, heights, total]
  | succ count ih =>
    rw [dataKinds, heights_cons]
    split
    next odd =>
      rw [heights_cons, ih]
      change 17 + (1 + _) = _
      omega
    next even =>
      rw [ih]
      change 17 + _ = _
      omega

/-- The height of all rows of a picture of some players. -/
theorem heights_rowKinds (players : Nat) :
    heights (rowKinds players) = 37 + 17 * players + players / 2 := by
  have data := heights_dataKinds 0 players
  change 18 + (17 + (2 + heights (dataKinds 0 players))) = _
  omega

theorem data_mem_dataKinds {first count index : Nat} (least : first ≤ index)
    (most : index < first + count) : .data index ∈ dataKinds first count := by
  induction count generalizing first with
  | zero => omega
  | succ count ih =>
    rw [dataKinds, List.mem_cons]
    by_cases same : index = first
    · exact .inl (by rw [same])
    · have later := @ih (first + 1) (by omega) (by omega)
      right
      split
      next => exact .tail _ later
      next => exact later

theorem data_mem_rowKinds_iff {players index : Nat} :
    .data index ∈ rowKinds players ↔ index < players := by
  simp only [rowKinds, List.cons_append, List.nil_append, List.mem_cons, reduceCtorEq, false_or]
  constructor
  · intro member
    have bounds := mem_dataKinds member
    omega
  · intro bound
    exact data_mem_dataKinds (Nat.zero_le index) (by omega)

/-- The rows of a picture that fits 32 bits, and where the last of them ends. -/
theorem rowPlan_eq_ok {players : Nat} (fits : 37 + 17 * players + players / 2 < rangeSize 32) :
    ∃ slots, rowPlan players = .ok slots ∧ slots.map (·.kind) = rowKinds players ∧
      (∀ slot ∈ slots, slot.y + slot.height ≤ 37 + 17 * players + players / 2) ∧
      ∃ final, slots.getLast? = some final ∧
        final.y + final.height = 37 + 17 * players + players / 2 := by
  have whole := heights_rowKinds players
  obtain ⟨slots, placed, kinds, inside, last⟩ :=
    @place_eq_ok 0 (rowKinds players) (by omega)
  rw [whole, Nat.zero_add] at inside last
  have nonempty : slots ≠ [] := by
    intro equal
    subst equal
    cases kinds
  have found := List.getLast?_eq_some_getLast nonempty
  exact ⟨slots, placed, kinds, inside, _, found, last _ found⟩

theorem rowPlan_data {players index : Nat} {slots : List RowSlot} {slot : RowSlot}
    (planned : rowPlan players = .ok slots) (member : slot ∈ slots)
    (data : slot.kind = .data index) : slot.y = 37 + 17 * index + index / 2 := by
  obtain ⟨afterFirst, rfl, second⟩ := place_cons planned
  obtain ⟨afterSecond, rfl, third⟩ := place_cons second
  obtain ⟨rows, rfl, placed⟩ := place_cons third
  change place 37 (dataKinds 0 players) = .ok rows at placed
  rcases List.mem_cons.1 member with rfl | member
  · cases data
  rcases List.mem_cons.1 member with rfl | member
  · cases data
  rcases List.mem_cons.1 member with rfl | member
  · cases data
  have top := place_data placed member data
  omega

end GuildRoster.Grid
