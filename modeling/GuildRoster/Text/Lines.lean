/-!
# Lines and columns of text

Cutting a text at a separator or into lines, and filling a text up to a number of characters.
-/

set_option autoImplicit false

namespace GuildRoster.Text

/-- The pieces of a text between the occurrences of a separator: one more piece than there are
separators, so an empty text has one empty piece. -/
def splitAt (separator : Char) : List Char → List (List Char)
  | [] => [[]]
  | character :: rest =>
    if character = separator then [] :: splitAt separator rest
    else match splitAt separator rest with
      | [] => [[character]]
      | piece :: pieces => (character :: piece) :: pieces

def withoutReturn (line : List Char) : List Char :=
  if line.getLast? = some '\r' then line.dropLast else line

/-- The lines of a text. A line ends with a line feed, which may follow a carriage return; the end
of the last line may be missing. -/
def lines (text : List Char) : List (List Char) :=
  match (splitAt '\n' text).reverse with
  | [] => []
  | last :: ended =>
    let whole := ended.reverse.map withoutReturn
    if last.isEmpty then whole else whole ++ [last]

def blanks (count : Nat) : String := String.ofList (List.replicate count ' ')

/-- A text filled with blanks on the right up to `width` characters. -/
def padEnd (width : Nat) (text : String) : String := text ++ blanks (width - text.length)

/-- A text filled with blanks on the left up to `width` characters. -/
def padStart (width : Nat) (text : String) : String := blanks (width - text.length) ++ text

theorem splitAt_ne_nil (separator : Char) (text : List Char) : splitAt separator text ≠ [] := by
  cases text with
  | nil => simp [splitAt]
  | cons character rest =>
    unfold splitAt
    split
    · simp
    · split <;> simp

@[simp] theorem length_blanks (count : Nat) : (blanks count).length = count := by
  simp [blanks]

@[simp] theorem length_padEnd (width : Nat) (text : String) :
    (padEnd width text).length = max width text.length := by
  simp only [padEnd, String.length_append, length_blanks]
  omega

@[simp] theorem length_padStart (width : Nat) (text : String) :
    (padStart width text).length = max width text.length := by
  simp only [padStart, String.length_append, length_blanks]
  omega

end GuildRoster.Text
