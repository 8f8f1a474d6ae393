import GuildRoster.Fault
import GuildRoster.Log

/-!
# The world of a run

What a run of the program reads and changes: files, the log, the text typed by the user and the two
texts shown. A run may stop with a fault; everything that happened before it stays.
-/

set_option autoImplicit false

namespace GuildRoster

/-- The state that a run reads and changes. -/
structure World where
  files : FileTree := {}
  log : Option LogSink := none
  input : List UInt8 := []
  output : String := ""
  messages : String := ""

abbrev Run (α : Type) := ExceptT Fault (StateM World) α

namespace World

def record (world : World) (entry : LogEntry) : World :=
  match world.log with
  | some sink => { world with files := sink.record world.files entry }
  | none => world

end World

namespace Run

def record (entry : LogEntry) : Run Unit := modify (·.record entry)

def recordAll : List LogEntry → Run Unit
  | [] => pure ()
  | entry :: entries => do
    record entry
    recordAll entries

def print (text : String) : Run Unit :=
  modify fun world => { world with output := world.output ++ text }

def tell (text : String) : Run Unit :=
  modify fun world => { world with messages := world.messages ++ text }

def ofExcept {α : Type} : Except Fault α → Run α
  | .ok value => pure value
  | .error fault => throw fault

end Run

end GuildRoster
