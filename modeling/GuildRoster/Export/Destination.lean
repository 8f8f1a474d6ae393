import GuildRoster.Path
import GuildRoster.Text.Blank
import GuildRoster.World

/-!
# Where exports go

Before an export the user says where it goes, either up front or by answering a question with one
line of text. A destination without an extension gets the one of the kind of file.
-/

set_option autoImplicit false

namespace GuildRoster

inductive FileKind where
  | png
  | csv
  deriving DecidableEq, Repr

namespace FileKind

def extension : FileKind → List Char
  | png => ['p', 'n', 'g']
  | csv => ['c', 's', 'v']

def description : FileKind → String
  | png => "PNG file (*.png)"
  | csv => "CSV file (*.csv)"

/-- A path with the extension of a kind of file, unless it has one already. -/
def complete (kind : FileKind) (path : Path) : Path :=
  if path.extension?.isSome then path else path.withExtension kind.extension

end FileKind

inductive Destination where
  /-- The path is known, or it is known that there will be no export. -/
  | fixed (path : Option Path)
  | asked
  deriving DecidableEq, Repr

namespace Destination

def takeLine : List UInt8 → List UInt8 × List UInt8
  | [] => ([], [])
  | byte :: rest =>
    if byte = 10 then ([byte], rest)
    else
      let (line, left) := takeLine rest
      (byte :: line, left)

/-- The path that a line of text answers with. No line, one that is no text and a lone minus sign
answer with none; a blank line answers with the default. -/
def answer (kind : FileKind) (default : Path) (line : List UInt8) : Option Path :=
  if line.isEmpty then none
  else
    match Text.decode? line with
    | none => none
    | some text =>
      match Text.trim text.toList with
      | [] => some default
      | ['-'] => none
      | characters => some (kind.complete ⟨characters⟩)

def ask (title name : String) (kind : FileKind) : Run (Option Path) := do
  let default := kind.complete (.ofString name)
  Run.tell s!"{title} [{kind.description}] {default.text}: "
  let (line, rest) := takeLine (← get).input
  modify fun world => { world with input := rest }
  return answer kind default line

def choose (destination : Destination) (title name : String) (kind : FileKind) :
    Run (Option Path) :=
  match destination with
  | fixed path => pure (path.map kind.complete)
  | asked => ask title name kind

end Destination

end GuildRoster
