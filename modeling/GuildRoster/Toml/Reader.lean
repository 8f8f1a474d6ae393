import GuildRoster.Toml.Scalar
import GuildRoster.Toml.Table

/-!
# Reading TOML

The data of a TOML document, if it makes sense as a whole. Containers stand one inside the other to
a fixed depth.
-/

set_option autoImplicit false

namespace GuildRoster.Toml

def depthLimit : Nat := 79

/-- A document without the blanks, line ends and comments at its start. `comment` tells that the
document starts inside a comment, which stops at a character that comments must not have. -/
def skipFilling (comment : Bool) : List Char → List Char
  | [] => []
  | '\r' :: '\n' :: rest => skipFilling false rest
  | character :: rest =>
    if character = '\n' then skipFilling false rest
    else if comment then
      if isPlain character then skipFilling true rest else character :: rest
    else if character = '#' then skipFilling true rest
    else if isSpace character then skipFilling false rest
    else character :: rest

/-- Passes over the end of a line: space, a comment, and the line end unless the document ends. -/
def passLineEnd? (document : List Char) : Option (List Char) :=
  let rest := match skipSpace document with
    | '#' :: comment => comment.dropWhile isPlain
    | rest => rest
  match rest with
  | [] => some []
  | '\n' :: rest => some rest
  | '\r' :: '\n' :: rest => some rest
  | _ => none

/-! ## Keys -/

def isBare (character : Char) : Bool :=
  ('a' ≤ character && character ≤ 'z') || ('A' ≤ character && character ≤ 'Z')
    || ('0' ≤ character && character ≤ '9') || character = '_' || character = '-'

def simpleKey? : List Char → Option (String × List Char)
  | '"' :: rest => (quotedText rest).map fun found => (String.ofList found.1, found.2)
  | '\'' :: rest => (literalText rest).map fun found => (String.ofList found.1, found.2)
  | document =>
    let key := document.takeWhile isBare
    if key.isEmpty then none else some (String.ofList key, document.dropWhile isBare)

/-- Reads a key with dots, of which there are fewer than `fuel`. -/
def keys? : Nat → List Char → Option (List String × List Char)
  | 0, _ => none
  | fuel + 1, document => do
    let (key, rest) ← simpleKey? (skipSpace document)
    match skipSpace rest with
    | '.' :: rest => do
      let (keys, rest) ← keys? fuel rest
      return (key :: keys, rest)
    | rest => return ([key], rest)

/-! ## Values -/

def keyword? (word : List Char) (datum : Datum) (document : List Char) :
    Option (Datum × List Char) :=
  if word.isPrefixOf document then some (datum, document.drop word.length) else none

mutual

/-- Reads a value. `depth` containers may still be opened; `fuel` bounds the steps. -/
def value? (fuel depth : Nat) (document : List Char) : Option (Datum × List Char) :=
  match fuel with
  | 0 => none
  | fuel + 1 =>
    match document with
    | '[' :: rest =>
      match depth with
      | 0 => none
      | depth + 1 => do
        let (items, rest) ← items? fuel depth rest
        return (.list items none, rest)
    | '\x7b' :: rest =>
      match depth with
      | 0 => none
      | depth + 1 =>
        match skipSpace rest with
        | '\x7d' :: rest => some (.record [] none, rest)
        | rest => do
          let (entries, rest) ← members? fuel depth [] rest
          return (.record (membersOf entries) none, rest)
    | 't' :: _ => keyword? "true".toList (.boolean true) document
    | 'f' :: _ => keyword? "false".toList (.boolean false) document
    | character :: _ =>
      if character = '"' ∨ character = '\'' then
        (anyText document).map fun found => (.text (String.ofList found.1), found.2)
      else numberOrTime? document
    | [] => none

/-- Reads the items of a list up to its closing bracket. A comma may follow the last item. -/
def items? (fuel depth : Nat) (document : List Char) : Option (List Datum × List Char) :=
  match fuel with
  | 0 => none
  | fuel + 1 =>
    match skipFilling false document with
    | ']' :: rest => some ([], rest)
    | start => do
      let (item, rest) ← value? fuel depth start
      match skipFilling false rest with
      | ']' :: rest => return ([item], rest)
      | ',' :: rest => do
        let (items, rest) ← items? fuel depth rest
        return (item :: items, rest)
      | _ => none

/-- Reads the members of a record in braces up to the closing brace and enters them into a table. -/
def members? (fuel depth : Nat) (entries : Entries) (document : List Char) :
    Option (Entries × List Char) :=
  match fuel with
  | 0 => none
  | fuel + 1 => do
    let (keys, rest) ← keys? depthLimit document
    let (datum, rest) ← value? fuel depth (skipSpace (← mark? '=' rest))
    let entries ← entries.enter datum keys
    match skipSpace rest with
    | '\x7d' :: rest => return (entries, rest)
    | ',' :: rest => members? fuel depth entries rest
    | _ => none

end

/-! ## Documents -/

def heading? (closing : List Char) (document : List Char) : Option (List String × List Char) := do
  let (keys, rest) ← keys? depthLimit document
  if closing.isPrefixOf rest then
    return (keys, ← passLineEnd? (rest.drop closing.length))
  else none

/-- Reads the lines of a document into a draft. Every line takes at least one character, so the
length of the document is fuel enough. -/
def lines? (fuel : Nat) (document : List Char) (draft : Draft) : Option Draft :=
  match fuel with
  | 0 => none
  | fuel + 1 =>
    match skipSpace document with
    | [] => some draft
    | '\n' :: rest => lines? fuel rest draft
    | '\r' :: '\n' :: rest => lines? fuel rest draft
    | '#' :: comment => do lines? fuel (← passLineEnd? ('#' :: comment)) draft
    | '[' :: '[' :: rest => do
      let (path, rest) ← heading? [']', ']'] rest
      lines? fuel rest (← draft.openElement path)
    | '[' :: rest => do
      let (path, rest) ← heading? [']'] rest
      lines? fuel rest (← draft.openTable path)
    | line => do
      let (keys, rest) ← keys? depthLimit line
      let start := skipSpace (← mark? '=' rest)
      let (datum, rest) ← value? (2 * start.length + 2) depthLimit start
      lines? fuel (← passLineEnd? rest) (← draft.enter keys datum)

/-- The record that a document holds, if the document makes sense. A byte order mark may stand in
front of it. -/
def read? (document : String) : Option Datum := do
  let characters := match document.toList with
    | '\uFEFF' :: rest => rest
    | characters => characters
  let draft ← lines? (characters.length + 1) characters {}
  return .record (membersOf (← draft.finish)) none

end GuildRoster.Toml
