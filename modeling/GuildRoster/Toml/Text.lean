import GuildRoster.Text.Digits

/-!
# Texts of TOML

The four ways of writing a text: between single or triple quotes, which may be double quotes, with
escapes, or apostrophes, without. Each reader takes the text from the start of a document behind
its opening quotes and returns it with the rest.
-/

set_option autoImplicit false

namespace GuildRoster.Toml

def isSpace (character : Char) : Bool := character = ' ' || character = '\t'

def skipSpace (document : List Char) : List Char := document.dropWhile isSpace

def isPlain (character : Char) : Bool :=
  character = '\t' || (' ' ≤ character && character ≤ '~') || 0x80 ≤ character.toNat

def scalar? (digits : List Char) : Option Char := do
  let code ← Text.numberOf? 16 0 digits
  if code.isValidChar then some (Char.ofNat code) else none

def escaped? (character : Char) : Option Char :=
  [('b', '\x08'), ('t', '\t'), ('n', '\n'), ('f', '\x0c'), ('r', '\r'), ('"', '"'),
    ('\\', '\\')].lookup character

def prepend (character : Char) (text : Option (List Char × List Char)) :
    Option (List Char × List Char) :=
  text.map fun found => (character :: found.1, found.2)

def quotedText : List Char → Option (List Char × List Char)
  | [] => none
  | '"' :: rest => some ([], rest)
  | '\\' :: 'u' :: a :: b :: c :: d :: rest => do
    prepend (← scalar? [a, b, c, d]) (quotedText rest)
  | '\\' :: 'U' :: a :: b :: c :: d :: e :: f :: g :: h :: rest => do
    prepend (← scalar? [a, b, c, d, e, f, g, h]) (quotedText rest)
  | '\\' :: character :: rest => do prepend (← escaped? character) (quotedText rest)
  | character :: rest =>
    if isPlain character && character != '\\' then prepend character (quotedText rest) else none

def literalText : List Char → Option (List Char × List Char)
  | [] => none
  | '\'' :: rest => some ([], rest)
  | character :: rest => if isPlain character then prepend character (literalText rest) else none

/-- A document without the blanks and line ends at its start. A lone carriage return is no line
end. -/
def skipLines : List Char → List Char
  | '\r' :: '\n' :: rest => skipLines rest
  | '\n' :: rest => skipLines rest
  | ' ' :: rest => skipLines rest
  | '\t' :: rest => skipLines rest
  | rest => rest

def endsLine : List Char → Bool
  | '\r' :: '\n' :: _ => true
  | '\n' :: _ => true
  | ' ' :: rest => endsLine rest
  | '\t' :: rest => endsLine rest
  | _ => false

/-- The quotes that belong to a text in front of its three closing quotes: up to two of them. -/
def closing? (quote : Char) (document : List Char) : Option (List Char × List Char) :=
  let count := (document.takeWhile (· = quote)).length
  if count < 3 then none
  else
    let own := min (count - 3) 2
    some (List.replicate own quote, document.drop (own + 3))

/-- Reads a text of several lines between triple quotes. A backslash at the end of a line joins it
to the next text. `joining` tells that blanks and line ends are passed over. -/
def quotedLines (joining : Bool) : List Char → Option (List Char × List Char)
  | [] => none
  | '\r' :: '\n' :: rest =>
    if joining then quotedLines true rest else prepend '\n' (quotedLines false rest)
  | '\\' :: 'u' :: a :: b :: c :: d :: rest => do
    prepend (← scalar? [a, b, c, d]) (quotedLines false rest)
  | '\\' :: 'U' :: a :: b :: c :: d :: e :: f :: g :: h :: rest => do
    prepend (← scalar? [a, b, c, d, e, f, g, h]) (quotedLines false rest)
  | '\\' :: character :: rest =>
    match escaped? character with
    | some meant => prepend meant (quotedLines false rest)
    | none => if endsLine (character :: rest) then quotedLines true (character :: rest) else none
  | character :: rest =>
    if joining && (isSpace character || character = '\n') then quotedLines true rest
    else if character = '"' then
      match closing? '"' (character :: rest) with
      | some found => some found
      | none => prepend character (quotedLines false rest)
    else if (isPlain character && character != '\\') || character = '\n' then
      prepend character (quotedLines false rest)
    else none

def literalLines : List Char → Option (List Char × List Char)
  | [] => none
  | '\r' :: '\n' :: rest => prepend '\n' (literalLines rest)
  | character :: rest =>
    if character = '\'' then
      match closing? '\'' (character :: rest) with
      | some found => some found
      | none => prepend character (literalLines rest)
    else if isPlain character || character = '\n' then prepend character (literalLines rest)
    else none

def skipLineEnd : List Char → List Char
  | '\r' :: '\n' :: rest => rest
  | '\n' :: rest => rest
  | rest => rest

/-- Reads a text in any of its forms. The end of the first line does not belong to a text of several
lines if nothing stands on that line. -/
def anyText : List Char → Option (List Char × List Char)
  | '"' :: '"' :: '"' :: rest => quotedLines false (skipLineEnd rest)
  | '"' :: rest => quotedText rest
  | '\'' :: '\'' :: '\'' :: rest => literalLines (skipLineEnd rest)
  | '\'' :: rest => literalText rest
  | _ => none

end GuildRoster.Toml
