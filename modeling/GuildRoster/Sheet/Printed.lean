import GuildRoster.Sheet
import GuildRoster.Sheet.Drawing
import GuildRoster.Text.Blank
import GuildRoster.Text.Lines

/-!
# Printed stat sheets

A stat sheet as lines of text in two columns under a heading. Columns are filled up by the number
of characters, headings underlined by their width.
-/

set_option autoImplicit false

namespace GuildRoster

def Standing.mark : Standing → String
  | .low => " [low]"
  | .middle => " [mid]"
  | .high => " [ok]"

def standingMark (standing : Option Standing) : String :=
  match standing with
  | some standing => standing.mark
  | none => ""

namespace Sheet

def columnWidth : Nat := 36

def columnGap : Nat := 4

def labelWidth : Nat := 14

def barWidth : Nat := 30

def Value.printed (value : Value) : String := value.text ++ standingMark value.standing

def labelled (label : String) : String := "  " ++ Text.padEnd labelWidth (label ++ ":")

def unlabelled : String := "  " ++ Text.padEnd labelWidth ""

def sectionLines (set : DrawingSet) (title : String) : List String :=
  [title, String.ofList (List.replicate (Text.headingWidth title.toList) set.rule)]

def Field.printed (field : Field) : String := labelled field.label ++ field.value.printed

def Bar.printed (set : DrawingSet) (label : String) (bar : Bar) : List String :=
  [labelled label ++ set.bar bar.fraction (barWidth / 2) ++ standingMark bar.standing,
    "    " ++ bar.caption]

def Potion.printed (potion : Potion) : String := Text.padEnd 6 potion.duration ++ potion.name

def potionLines : List Potion → List String
  | [] => [labelled "Potions" ++ "-"]
  | first :: others =>
    (labelled "Potions" ++ first.printed) :: others.map (unlabelled ++ ·.printed)

def Rank.printed (rank : Rank) : String :=
  labelled rank.label ++ Text.padStart 8 (Figures.plain rank.rank) ++ "  "
    ++ Text.padStart 8 (Figures.plain rank.honor)

def Group.printed (set : DrawingSet) (group : Group) : List String :=
  "" :: sectionLines set "Group" ++ [
    labelled "Position" ++ group.position,
    labelled "Treasure" ++ Figures.plain group.treasure,
    labelled "Instructor" ++ Figures.plain group.instructor,
    labelled "Pet" ++ group.pet.printed,
    labelled "Knights" ++ group.knights.printed]

def leftColumn (set : DrawingSet) (sheet : Sheet) : List String :=
  sectionLines set "Mount & Potions"
    ++ [labelled "Mount" ++ sheet.mount.printed]
    ++ potionLines sheet.potions
    ++ "" :: sectionLines set "Rankings"
    ++ [unlabelled ++ Text.padStart 8 "Rank" ++ "  " ++ Text.padStart 8 "Honor"]
    ++ sheet.rankings.map Rank.printed
    ++ (match sheet.group with
      | some group => group.printed set
      | none => [])

def rightColumn (set : DrawingSet) (sheet : Sheet) : List String :=
  sectionLines set "Collectibles"
    ++ sheet.book.printed set "Scrapbook"
    ++ sheet.achievements.printed set "Achievements"
    ++ "" :: sectionLines set "Attributes"
    ++ sheet.attributes.map Field.printed
    ++ "" :: sectionLines set "Fortress"
    ++ sheet.fortress.map Field.printed

/-- A line of the left and a line of the right column side by side, without blanks at the end. -/
def mergeLine (width : Nat) (left right : String) : String :=
  let line := Text.padEnd width left ++ Text.blanks columnGap ++ right
  String.ofList (Text.trimEnd line.toList)

/-- Two columns side by side. Lines are missing where the other column is longer. -/
def mergeColumns (width : Nat) : List String → List String → List String
  | [], [] => []
  | left :: lefts, [] => mergeLine width left "" :: mergeColumns width lefts []
  | [], right :: rights => mergeLine width "" right :: mergeColumns width [] rights
  | left :: lefts, right :: rights => mergeLine width left right :: mergeColumns width lefts rights

def ofLines (lines : List String) : String := String.join (lines.map (· ++ "\n"))

def printed (set : DrawingSet) (sheet : Sheet) : String :=
  set.heading true (sheet.title ++ "    " ++ sheet.gear)
    ++ (match sheet.guild with
      | some guild => guild ++ "\n"
      | none => "")
    ++ "XP " ++ set.bar sheet.experience.fraction barWidth ++ "  " ++ sheet.experience.caption
    ++ "\n\n"
    ++ ofLines (mergeColumns columnWidth (leftColumn set sheet) (rightColumn set sheet))

end Sheet

end GuildRoster
