import GuildRoster.Proofs.BlockPixels
import GuildRoster.Proofs.SheetFaults

/-!
# Colours of tiers

A figure has the same tier in the stat sheet and in the row of a picture. The settings decide on
these tiers only: whatever else a sheet or a row shows is the same under all settings, and to
highlight all players touches only those who are no members.
-/

set_option autoImplicit false

namespace GuildRoster

/-! ## Standings and fills -/

/-- The fill that stands for a standing in a picture. -/
def Standing.fill : Standing → Fill
  | .low => .red
  | .middle => .yellow
  | .high => .green

theorem Thresholds.map_fill_standing (thresholds : Thresholds) (highlighted : Bool)
    (value : Int64) : (thresholds.standing highlighted value).map Standing.fill =
      if highlighted then some (thresholds.fill value) else none := by
  cases highlighted with
  | false => rfl
  | true =>
    simp only [standing, fill, if_true, Option.map_some]
    split
    · rfl
    · split <;> rfl

/-! ## Rows -/

/-- A row and a stat sheet show the same tiers and the same figures of the guild. -/
structure Sheet.AgreesWith (sheet : Sheet) (cells : List RowCell) : Prop where
  mount : (Row.cell? cells Grid.Column.mount.index).map (·.fill)
    = some (sheet.mount.standing.map Standing.fill)
  book : (Row.cell? cells Grid.Column.album.index).map (·.fill)
    = some (sheet.book.standing.map Standing.fill)
  treasure : (Row.cell? cells Grid.Column.treasure.index).map (·.text)
    = sheet.group.map fun group => Figures.plain group.treasure
  instructor : (Row.cell? cells Grid.Column.instructor.index).map (·.text)
    = sheet.group.map fun group => Figures.plain group.instructor
  pet : (Row.cell? cells Grid.Column.pet.index).map (fun cell => (cell.text, cell.fill))
    = sheet.group.map fun group => (group.pet.text, group.pet.standing.map Standing.fill)
  knights : (Row.cell? cells Grid.Column.knights.index).map (fun cell => (cell.text, cell.fill))
    = sheet.group.map fun group => (group.knights.text, group.knights.standing.map Standing.fill)

/-- A player whose sheet can be shown has a row as well, and every row of the player under the same
settings agrees with the sheet, whatever it is compared with. -/
theorem Sheet.agrees_with_row (config : Config) {player : Player} (bounded : ¬ player.Boundless) :
    ∃ sheet, Sheet.build config player = .ok sheet ∧ Succeeds (Row.build config player none) ∧
      ∀ previous cells, Row.build config player previous = .ok cells → sheet.AgreesWith cells := by
  obtain ⟨sheet, shown⟩ := (Sheet.build_failsJust config player).succeeds bounded
  refine ⟨sheet, shown, ?_, ?_⟩
  · refine (Row.build_failsJust config player none).succeeds ?_
    rintro ⟨_, ⟨⟩, _⟩
  · intro previous cells built
    obtain ⟨missing, _, same⟩ := except_bind_eq_ok_iff.1 shown
    cases same
    rw [Row.eq_of_build built]
    cases shape : player.membership with
    | none =>
      simp only [Row.plainCells, shape]
      exact {
        mount := congrArg some (config.thresholds.mount.map_fill_standing _ _).symm
        book := congrArg some (config.thresholds.book.map_fill_standing _ _).symm
        treasure := rfl
        instructor := rfl
        pet := rfl
        knights := rfl }
    | some figures =>
      have fill (thresholds : Thresholds) (value : Int64) : some (thresholds.fill value) =
          (thresholds.standing true value).map Standing.fill :=
        (thresholds.map_fill_standing true value).symm
      simp only [Row.plainCells, shape]
      exact {
        mount := congrArg some (config.thresholds.mount.map_fill_standing _ _).symm
        book := congrArg some (config.thresholds.book.map_fill_standing _ _).symm
        treasure := rfl
        instructor := rfl
        pet := congrArg (fun fill => some (Figures.plain figures.pet, fill)) (fill _ _)
        knights := congrArg (fun fill => some (Figures.plain figures.knights, fill)) (fill _ _) }

theorem Sheet.agrees_with_row_of_grown_member :
    ∃ sheet cells, Sheet.build { thresholds := { pet := ⟨10, 5⟩ } } Block.grownMember = .ok sheet ∧
      Row.build { thresholds := { pet := ⟨10, 5⟩ } } Block.grownMember none = .ok cells ∧
      sheet.AgreesWith cells := by
  obtain ⟨sheet, shown, ⟨cells, built⟩, agrees⟩ :=
    @Sheet.agrees_with_row { thresholds := { pet := ⟨10, 5⟩ } } Block.grownMember (by decide)
  exact ⟨sheet, cells, shown, built, agrees none cells built⟩

/-! ## Settings -/

namespace Row

/-- The fill of a column in the row of a player. -/
def fill? (config : Config) (player : Player) : Grid.Column → Option Fill
  | .album => if player.isMember || config.highlightAll
      then some (config.thresholds.book.fill player.book) else none
  | .mount => if player.isMember || config.highlightAll
      then some (config.thresholds.mount.fill player.mount) else none
  | .potion slot => player.potions.toList[slot.val]?.map fun potion =>
      potionThresholds.fill potion.duration
  | .pet => player.membership.map fun figures => config.thresholds.pet.fill figures.pet
  | .knights => player.membership.map fun figures => config.thresholds.knights.fill figures.knights
  | .name | .level | .gear | .awards | .treasure | .instructor => none

/-- A cell with the fill that its column has in the row of a player. -/
def refilled (config : Config) (player : Player) (cell : RowCell) : RowCell :=
  { cell with fill := fill? config player cell.column }

theorem map_refilled_plainCells (config other : Config) (player : Player) :
    (plainCells other player).map (refilled config player) = plainCells config player := by
  cases member : player.membership with
  | none =>
    simp [plainCells, potionCells, PotionBelt.toList, refilled, fill?, Player.isMember, member]
  | some figures =>
    simp [plainCells, potionCells, PotionBelt.toList, guildCells, refilled, fill?, Player.isMember,
      member]

/-- The row under some settings is the row under any others with the fills of the former. -/
theorem build_refilled (config other : Config) (player : Player) (previous : Option Player) :
    build config player previous
      = List.map (refilled config player) <$> build other player previous := by
  by_cases faulty : ∃ before, previous = some before ∧ Faulty before player
  · rw [(build_failsJust config player previous).fails faulty,
      (build_failsJust other player previous).fails faulty]
    rfl
  · have sound : ∀ before, previous = some before → ¬ Faulty before player :=
      fun before found assumed => faulty ⟨before, found, assumed⟩
    rw [build_eq config sound, build_eq other sound, ← map_refilled_plainCells config other]
    exact congrArg Except.ok (by simp only [withChanges, List.map_map]; rfl)

/-- Two rows of a player look the same to those who do not see how their fills differ. -/
theorem map_build_congr {β : Type} {view : RowCell → β} {config other : Config} {player : Player}
    (same : ∀ cell, view (refilled config player cell) = view (refilled other player cell))
    (previous : Option Player) :
    List.map view <$> build config player previous
      = List.map view <$> build other player previous := by
  have views : view ∘ refilled config player = view ∘ refilled other player := funext same
  rw [build_refilled other config]
  conv_lhs => rw [build_refilled config config]
  simp only [Functor.map_map, List.map_map, views]

end Row

/-- A cell without its fill. -/
def RowCell.unfilled (cell : RowCell) : RowCell := { cell with fill := none }

/-- A cell without its fill if it shows the mount or the album. -/
def RowCell.unhighlighted (cell : RowCell) : RowCell :=
  if cell.column = .mount ∨ cell.column = .album then cell.unfilled else cell

namespace Row

variable {config other : Config} {player : Player}

theorem unfilled_build (config other : Config) (player : Player) (previous : Option Player) :
    List.map RowCell.unfilled <$> build config player previous
      = List.map RowCell.unfilled <$> build other player previous := by
  apply map_build_congr
  intro cell
  simp only [RowCell.unfilled, refilled]

theorem build_congr (thresholds : config.thresholds = other.thresholds)
    (highlighted : (player.isMember || config.highlightAll)
      = (player.isMember || other.highlightAll)) (previous : Option Player) :
    build config player previous = build other player previous := by
  have same : plainCells config player = plainCells other player := by
    simp only [plainCells, thresholds, highlighted]
  cases previous <;> simp only [build, same]

theorem fill?_congr (thresholds : config.thresholds = other.thresholds) {column : Grid.Column}
    (notMount : column ≠ .mount) (notAlbum : column ≠ .album) :
    fill? config player column = fill? other player column := by
  cases column with
  | mount => exact absurd rfl notMount
  | album => exact absurd rfl notAlbum
  | _ => simp only [fill?, thresholds]

theorem unhighlighted_build (thresholds : config.thresholds = other.thresholds) (player : Player)
    (previous : Option Player) :
    List.map RowCell.unhighlighted <$> build config player previous
      = List.map RowCell.unhighlighted <$> build other player previous := by
  apply map_build_congr
  intro cell
  by_cases highlighted : cell.column = .mount ∨ cell.column = .album
  · simp only [RowCell.unhighlighted, refilled, RowCell.unfilled, highlighted, if_true]
  · obtain ⟨notMount, notAlbum⟩ := not_or.1 highlighted
    simp only [refilled, fill?_congr thresholds notMount notAlbum]

end Row

namespace Sheet

def Value.colorless (value : Value) : Value := { value with standing := none }

def Field.colorless (field : Field) : Field := { field with value := field.value.colorless }

def Bar.colorless (bar : Bar) : Bar := { bar with standing := none }

def Group.colorless (group : Group) : Group :=
  { group with pet := group.pet.colorless, knights := group.knights.colorless }

/-- A stat sheet without any standings. -/
def colorless (sheet : Sheet) : Sheet :=
  { sheet with
    experience := sheet.experience.colorless
    mount := sheet.mount.colorless
    book := sheet.book.colorless
    achievements := sheet.achievements.colorless
    attributes := sheet.attributes.map Field.colorless
    fortress := sheet.fortress.map Field.colorless
    group := sheet.group.map Group.colorless }

/-- A stat sheet without the standings of the mount and the album. -/
def unhighlighted (sheet : Sheet) : Sheet :=
  { sheet with mount := sheet.mount.colorless, book := sheet.book.colorless }

theorem colorless_standingValue (number : Int64) (standing : Option Standing) :
    (standingValue number standing).colorless = ⟨Figures.plain number, none⟩ := rfl

/-- The group of a member without its standings is the same for all thresholds. -/
theorem colorless_comp_memberGroup (thresholds other : TierThresholds) :
    Group.colorless ∘ memberGroup thresholds = Group.colorless ∘ memberGroup other := by
  funext figures
  simp only [Function.comp_apply, Group.colorless, memberGroup, colorless_standingValue]

theorem colorless_build (config other : Config) (player : Player) :
    colorless <$> build config player = colorless <$> build other player := by
  simp only [build, map_bind, map_pure, colorless, Bar.colorless, colorless_standingValue,
    Option.map_map, colorless_comp_memberGroup config.thresholds other.thresholds]

theorem build_congr {config other : Config} {player : Player}
    (thresholds : config.thresholds = other.thresholds)
    (highlighted : isHighlighted config player = isHighlighted other player) :
    build config player = build other player := by
  simp only [build, thresholds, highlighted]

theorem unhighlighted_build {config other : Config}
    (thresholds : config.thresholds = other.thresholds) (player : Player) :
    unhighlighted <$> build config player = unhighlighted <$> build other player := by
  simp only [build, thresholds, map_bind]
  exact bind_congr fun missing => rfl

end Sheet

namespace Config

/-- All settings give a player the same row and the same stat sheet but for fills and standings. If
they differ only in whether all players are highlighted, a member has the very same row and sheet,
and those of another player differ at most in mount and album. -/
theorem touches_colors_only (config other : Config) (player : Player) (previous : Option Player) :
    List.map RowCell.unfilled <$> Row.build config player previous
      = List.map RowCell.unfilled <$> Row.build other player previous ∧
    Sheet.colorless <$> Sheet.build config player
      = Sheet.colorless <$> Sheet.build other player ∧
    (other = { config with highlightAll := other.highlightAll } →
      (player.isMember = true →
        Row.build config player previous = Row.build other player previous ∧
        Sheet.build config player = Sheet.build other player) ∧
      (player.isMember = false →
        List.map RowCell.unhighlighted <$> Row.build config player previous
          = List.map RowCell.unhighlighted <$> Row.build other player previous ∧
        Sheet.unhighlighted <$> Sheet.build config player
          = Sheet.unhighlighted <$> Sheet.build other player)) := by
  refine ⟨Row.unfilled_build config other player previous,
    Sheet.colorless_build config other player, fun alike => ?_⟩
  have thresholds : config.thresholds = other.thresholds :=
    (congrArg Config.thresholds alike).symm
  constructor
  · intro isMember
    have highlighted : (player.isMember || config.highlightAll)
        = (player.isMember || other.highlightAll) := by
      simp only [isMember, Bool.true_or]
    exact ⟨Row.build_congr thresholds highlighted previous,
      Sheet.build_congr thresholds highlighted⟩
  · intro _
    exact ⟨Row.unhighlighted_build thresholds player previous,
      Sheet.unhighlighted_build thresholds player⟩

theorem touches_colors_of_outsider_only :
    Row.build {} Block.grownMember (some Block.grownFrom)
      = Row.build { highlightAll := true } Block.grownMember (some Block.grownFrom) ∧
    List.map RowCell.unhighlighted <$> Row.build {} { name := "B" } none
      = List.map RowCell.unhighlighted <$>
        Row.build { highlightAll := true } { name := "B" } none :=
  ⟨((touches_colors_only {} { highlightAll := true } Block.grownMember _).2.2 rfl).1 rfl |>.1,
    ((touches_colors_only {} { highlightAll := true } { name := "B" } none).2.2 rfl).2 rfl |>.1⟩

end Config

end GuildRoster
