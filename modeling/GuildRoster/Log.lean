import GuildRoster.FileTree
import GuildRoster.Text.Lowercase

/-!
# The log

What the program reports about its own work. A log keeps the entries up to one level and appends
each to a file as soon as it is recorded.
-/

set_option autoImplicit false

namespace GuildRoster

inductive LogLevel where
  | error
  | warning
  | information
  | debug
  | trace
  deriving DecidableEq, Repr

namespace LogLevel

def rank : LogLevel → Nat
  | error => 0
  | warning => 1
  | information => 2
  | debug => 3
  | trace => 4

def label : LogLevel → String
  | error => "ERROR"
  | warning => "WARN"
  | information => "INFO"
  | debug => "DEBUG"
  | trace => "TRACE"

/-- The level of a name, whatever its capitals. Unknown names stand for information. -/
def ofName (name : String) : LogLevel :=
  let small := String.ofList (Text.lowercase name.toList)
  if small = "trace" then trace
  else if small = "debug" then debug
  else if small = "warn" then warning
  else if small = "error" then error
  else information

end LogLevel

/-- One entry of the log: its level, the part of the program it is about, and its text. -/
structure LogEntry where
  level : LogLevel
  part : String
  message : String
  deriving DecidableEq, Repr

/-- The file that keeps the log, the least important level kept, and the time put in front of
every entry. -/
structure LogSink where
  location : Location
  level : LogLevel
  time : String

namespace LogSink

def keeps (sink : LogSink) (entry : LogEntry) : Bool := entry.level.rank ≤ sink.level.rank

def line (sink : LogSink) (entry : LogEntry) : String :=
  sink.time ++ " " ++ Text.padStart 5 entry.level.label ++ " " ++ entry.part ++ ": "
    ++ entry.message ++ "\n"

def record (sink : LogSink) (tree : FileTree) (entry : LogEntry) : FileTree :=
  if sink.keeps entry then tree.append sink.location (sink.line entry) else tree

end LogSink

end GuildRoster
