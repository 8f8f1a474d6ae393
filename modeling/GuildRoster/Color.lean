import GuildRoster.Fault
import GuildRoster.Text.Blank
import GuildRoster.Text.Digits
import GuildRoster.Text.Lines
import GuildRoster.Text.Lowercase
import GuildRoster.Text.Utf8
import GuildRoster.Tier

/-!
# Colours

The colours of the terminal and the texts that denote them: a name, hexadecimal digits after a
number sign, or three decimal numbers between commas.
-/

set_option autoImplicit false

namespace GuildRoster

/-- A colour of the terminal. `reset` stands for the terminal's own colour. -/
inductive Color where
  | reset
  | black
  | red
  | green
  | yellow
  | blue
  | magenta
  | cyan
  | gray
  | darkGray
  | white
  | rgb (value : Rgb)
  deriving DecidableEq, Repr

namespace Color

def name : Color → String
  | reset => "Reset"
  | black => "Black"
  | red => "Red"
  | green => "Green"
  | yellow => "Yellow"
  | blue => "Blue"
  | magenta => "Magenta"
  | cyan => "Cyan"
  | gray => "Gray"
  | darkGray => "DarkGray"
  | white => "White"
  | rgb value => s!"Rgb({value.red}, {value.green}, {value.blue})"

/-- A colour half as bright. Only colours given by components have one; others stay. -/
def dimmed : Color → Color
  | rgb value => rgb ⟨value.red / 2, value.green / 2, value.blue / 2⟩
  | other => other

def named? (text : List Char) : Option Color :=
  [("black", black), ("red", red), ("green", green), ("yellow", yellow), ("blue", blue),
    ("magenta", magenta), ("cyan", cyan), ("gray", gray), ("grey", gray), ("darkgray", darkGray),
    ("darkgrey", darkGray), ("white", white), ("orange", rgb ⟨255, 165, 0⟩)].lookup
    (String.ofList text)

/-- The strength of one component: digits, which a plus sign may precede, for at most 255. -/
def component? (base : Nat) (text : List Char) : Option UInt8 := do
  let digits := if text.head? = some '+' then text.tail else text
  if digits.isEmpty then none
  else
    let value ← Text.numberOf? base 0 digits
    if value < 256 then some (UInt8.ofNat value) else none

/-- A text cut after `count` bytes. Cutting inside a character is a fault, and so is cutting beyond
the end. -/
def cutBytes (count : Nat) (text : List Char) : Except Fault (List Char × List Char) :=
  match count, text with
  | 0, rest => .ok ([], rest)
  | _ + 1, [] => .error .outOfBounds
  | bytes + 1, character :: rest =>
    if character.utf8Size ≤ bytes + 1 then do
      let (taken, left) ← cutBytes (bytes + 1 - character.utf8Size) rest
      .ok (character :: taken, left)
    else .error .outOfBounds
termination_by text.length

/-- The colour of three components read from stretches of `width` bytes. A single digit stands for
the same digit twice. -/
def ofHex (width : Nat) (text : List Char) : Except Fault (Option Color) := do
  let spelled (stretch : List Char) : Option UInt8 :=
    component? 16 (if width = 1 then stretch ++ stretch else stretch)
  let (first, afterFirst) ← cutBytes width text
  let some redPart := spelled first | return none
  let (second, afterSecond) ← cutBytes width afterFirst
  let some greenPart := spelled second | return none
  let (third, _) ← cutBytes width afterSecond
  let some bluePart := spelled third | return none
  return some (rgb ⟨redPart, greenPart, bluePart⟩)

def ofTriple? (text : List Char) : Option Color :=
  match Text.splitAt ',' text with
  | [first, second, third] => do
    return rgb ⟨← component? 10 (Text.trim first), ← component? 10 (Text.trim second),
      ← component? 10 (Text.trim third)⟩
  | _ => none

/-- The colour that a text denotes, whatever its capitals and the blanks around it. Hexadecimal
digits are counted and cut in bytes, so a text with longer characters among them is a fault when a
cut falls inside one. -/
def parse (text : String) : Except Fault (Option Color) :=
  let small := Text.lowercase (Text.trim text.toList)
  match named? small with
  | some color => .ok (some color)
  | none =>
    match small with
    | '#' :: hex =>
      if Text.byteLength hex = 6 then ofHex 2 hex
      else if Text.byteLength hex = 3 then ofHex 1 hex
      else .ok (ofTriple? small)
    | _ => .ok (ofTriple? small)

end Color

end GuildRoster
