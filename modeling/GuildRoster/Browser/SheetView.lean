import GuildRoster.Browser.Looks
import GuildRoster.Sheet
import GuildRoster.Sheet.Drawing
import GuildRoster.Sheet.Printed

/-!
# Stat sheets on the screen

A stat sheet in a rectangle of the screen: three lines at the top and below them two columns, each
in one half of the rectangle. Lines are cut at the side of their half, and what does not fit the
height is left out.
-/

set_option autoImplicit false

namespace GuildRoster

/-- A rectangle of screen cells. Places are numbers of 16 bits; a rectangle that goes beyond them is
cut. -/
def Screen.rect (x y width height : Nat) : Rect :=
  { x, y, width := min width (65535 - x), height := min height (65535 - y) }

namespace SheetView

/-- The rows above the columns: title, guild, experience and an empty one. -/
def headerRows : Nat := 4

def plain (text : String) : Span := { text }

def sectionLines (title : String) : List StyledLine :=
  let rule := List.replicate (Text.headingWidth title.toList) DrawingSet.boxes.rule
  [[{ text := title, style := .heading }], [{ text := String.ofList rule, style := .muted }]]

def label (name : String) : Span := plain ("  " ++ Text.padEnd Sheet.labelWidth (name ++ ":"))

/-- The blanks in place of the label of a line that goes on with what the line above it lists. -/
def blankLabel : Span := plain (Text.blanks (Sheet.labelWidth + 2))

def labelled (name text : String) : StyledLine := [label name, plain text]

def valueLine (theme : Theme) (name : String) (value : Sheet.Value) : StyledLine :=
  [label name, { text := value.text, style := theme.standing value.standing }]

def fieldLine (theme : Theme) (field : Sheet.Field) : StyledLine :=
  valueLine theme field.label field.value

def barLines (theme : Theme) (name : String) (bar : Sheet.Bar) : List StyledLine :=
  let drawn := DrawingSet.boxes.bar bar.fraction (Sheet.barWidth / 2)
  [[label name, { text := drawn, style := theme.standing bar.standing }],
    [{ text := "    " ++ bar.caption, style := .muted }]]

def potionText (potion : Sheet.Potion) : String := Text.padEnd 6 potion.duration ++ potion.name

def potionLines : List Sheet.Potion → List StyledLine
  | [] => [labelled "Potions" "-"]
  | first :: others =>
    labelled "Potions" (potionText first)
      :: others.map fun potion => [blankLabel, plain (potionText potion)]

def rankLine (rank : Sheet.Rank) : StyledLine :=
  labelled rank.label
    ("#" ++ Figures.plain rank.rank ++ " (" ++ Figures.plain rank.honor ++ " honor)")

def groupLines (theme : Theme) (group : Sheet.Group) : List StyledLine :=
  [] :: sectionLines "Group" ++ [
    labelled "Position" group.position,
    labelled "Treasure" (Figures.plain group.treasure),
    labelled "Instructor" (Figures.plain group.instructor),
    valueLine theme "Pet" group.pet,
    valueLine theme "Knights" group.knights]

def header (theme : Theme) (sheet : Sheet) : List StyledLine :=
  [[{ text := sheet.title, style := .heading }, plain "    ",
      { text := sheet.gear, style := { foreground := some theme.selection } }],
    [{ text := sheet.guild.getD "", style := .muted }],
    [plain "XP ", plain (DrawingSet.boxes.bar sheet.experience.fraction Sheet.barWidth),
      { text := "  " ++ sheet.experience.caption, style := .muted }]]

def leftColumn (theme : Theme) (sheet : Sheet) : List StyledLine :=
  sectionLines "Mount & Potions"
    ++ [valueLine theme "Mount" sheet.mount]
    ++ potionLines sheet.potions
    ++ [] :: sectionLines "Rankings"
    ++ sheet.rankings.map rankLine
    ++ (match sheet.group with
      | some group => groupLines theme group
      | none => [])

def rightColumn (theme : Theme) (sheet : Sheet) : List StyledLine :=
  sectionLines "Collectibles"
    ++ barLines theme "Scrapbook" sheet.book
    ++ barLines theme "Achievements" sheet.achievements
    ++ [] :: sectionLines "Attributes"
    ++ sheet.attributes.map (fieldLine theme)
    ++ [] :: sectionLines "Fortress"
    ++ sheet.fortress.map (fieldLine theme)

/-- The height of a sheet that leaves nothing out. Only the last 16 bits of the number of lines in
the longer column count. -/
def preferredHeight (sheet : Sheet) : Except Fault Nat :=
  let lines := max (leftColumn {} sheet).length (rightColumn {} sheet).length
  sumWithin 16 headerRows (lines % rangeSize 16)

def drawColumn (area : Rect) : List StyledLine → Nat → Screen → Except Fault Screen
  | [], _, screen => .ok screen
  | line :: lines, index, screen =>
    if index < area.height then do
      let y ← sumWithin 16 area.y index
      drawColumn area lines (index + 1) (← Screen.putLine y line area.x area.width screen)
    else .ok screen

/-- The rectangles of the two columns. The right one has the odd cell of a row. -/
def halves (area : Rect) : Except Fault (Rect × Rect) := do
  let height ← differenceWithin area.height headerRows
  let leftWidth := area.width / 2
  let y ← sumWithin 16 area.y headerRows
  let middle ← sumWithin 16 area.x leftWidth
  let rightWidth ← differenceWithin area.width leftWidth
  return (Screen.rect area.x y leftWidth height, Screen.rect middle y rightWidth height)

def draw (theme : Theme) (sheet : Sheet) (area : Rect) (screen : Screen) :
    Except Fault Screen := do
  let headed ← drawColumn area (header theme sheet) 0 screen
  if area.height ≤ headerRows then return headed
  else
    let (left, right) ← halves area
    let drawn ← drawColumn left (leftColumn theme sheet) 0 headed
    drawColumn right (rightColumn theme sheet) 0 drawn

end SheetView

end GuildRoster
