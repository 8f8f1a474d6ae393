import GuildRoster.Config

/-!
# Command lines

The arguments of the program: options for all commands, the command, and its own options and
values. An option or switch is given at most once before the command and once after it; given in
both places, the later one counts.
-/

set_option autoImplicit false

namespace GuildRoster

inductive OptionForm where
  | switch
  | text
  | path
  deriving DecidableEq, Repr

structure OptionSpec where
  name : String
  letter : Option Char := none
  form : OptionForm
  deriving DecidableEq, Repr

inductive CommandLineStop where
  | misuse
  | help
  deriving DecidableEq, Repr

structure Given where
  options : List (String × String) := []
  values : List String := []
  deriving DecidableEq, Repr

namespace Given

def addOption (given : Given) (spec : OptionSpec) (value : String) :
    Except CommandLineStop Given :=
  if spec.name = "help" then .error .help
  else if (given.options.lookup spec.name).isSome then .error .misuse
  else if spec.form = .path ∧ value.isEmpty then .error .misuse
  else .ok { given with options := given.options ++ [(spec.name, value)] }

def addValue (given : Given) (limit : Nat) (value : String) : Except CommandLineStop Given :=
  if given.values.length < limit then .ok { given with values := given.values ++ [value] }
  else .error .misuse

def has (given : Given) (name : String) : Bool := (given.options.lookup name).isSome

def path? (given : Given) (name : String) : Option Path :=
  (given.options.lookup name).map Path.ofString

end Given

namespace CommandLine

/-- Whether an argument cannot be the value of an option because it looks like an option itself. A
lone minus sign does not. -/
def looksLikeOption (argument : String) : Bool :=
  match argument.toList with
  | '-' :: _ :: _ => true
  | _ => false

def takeValue : List String → Except CommandLineStop (String × List String)
  | [] => .error .misuse
  | argument :: rest => if looksLikeOption argument then .error .misuse else .ok (argument, rest)

/-- Reads an option by its long name, which an equals sign may join to its value. -/
def takeLong (specs : List OptionSpec) (spelled : List Char) (rest : List String) (given : Given) :
    Except CommandLineStop (Given × List String) := do
  let name := String.ofList (spelled.takeWhile (· ≠ '='))
  let attached := match spelled.dropWhile (· ≠ '=') with
    | _ :: value => some (String.ofList value)
    | [] => none
  match specs.find? (·.name == name) with
  | none => .error .misuse
  | some spec =>
    match spec.form, attached with
    | .switch, some _ => .error .misuse
    | .switch, none => return (← given.addOption spec "", rest)
    | _, some value => return (← given.addOption spec value, rest)
    | _, none =>
      let (value, rest) ← takeValue rest
      return (← given.addOption spec value, rest)

/-- Reads options by their letters. An option that takes a value has what follows its letter, an
equals sign apart, or else the next argument. -/
def takeLetters (specs : List OptionSpec) (rest : List String) :
    List Char → Given → Except CommandLineStop (Given × List String)
  | [], given => .ok (given, rest)
  | letter :: letters, given =>
    match specs.find? (·.letter == some letter) with
    | none => .error .misuse
    | some spec =>
      match spec.form, letters with
      | .switch, _ => do takeLetters specs rest letters (← given.addOption spec "")
      | _, [] => do
        let (value, rest) ← takeValue rest
        return (← given.addOption spec value, rest)
      | _, '=' :: value => return (← given.addOption spec (String.ofList value), rest)
      | _, value => return (← given.addOption spec (String.ofList value), rest)

/-- Reads one part of a command line: all arguments, or those before a command if one is looked for.
What follows two minus signs is values. Every step takes at least one argument, so their number is
fuel enough. -/
def takePart (specs : List OptionSpec) (limit : Nat) (beforeCommand : Bool) :
    Nat → List String → Given → Except CommandLineStop (Given × List String)
  | 0, rest, given => .ok (given, rest)
  | _ + 1, [], given => .ok (given, [])
  | fuel + 1, argument :: rest, given =>
    match argument.toList with
    | ['-', '-'] => do
      return (← rest.foldlM (fun given value => given.addValue limit value) given, [])
    | '-' :: '-' :: spelled => do
      let (given, rest) ← takeLong specs spelled rest given
      takePart specs limit beforeCommand fuel rest given
    | '-' :: letter :: letters => do
      let (given, rest) ← takeLetters specs rest (letter :: letters) given
      takePart specs limit beforeCommand fuel rest given
    | _ =>
      if beforeCommand then .ok (given, argument :: rest)
      else do takePart specs limit beforeCommand fuel rest (← given.addValue limit argument)

end CommandLine

inductive Command where
  | exportImage (roster : String) (compared : Option String) (onlyMembers : Bool)
      (output : Option Path)
  | exportCsv (roster : String) (onlyMembers : Bool) (output : Option Path)
  | showPlayers (roster : String) (player : Option String) (plain : Bool)
  | list
  | demo (directory : Option Path)
  | config
  deriving DecidableEq, Repr

/-- A command line: the options for all commands, and the command, without which the program is used
interactively. -/
structure CommandLine where
  logLevel : String := defaultLogLevel
  logFile : String := defaultLogFile
  rosterDirectory : Option Path := none
  samples : Bool := false
  command : Option Command := none
  deriving DecidableEq, Repr

namespace CommandLine

def helpSpec : OptionSpec := { name := "help", letter := some 'h', form := .switch }

def globalSpecs : List OptionSpec := [
  { name := "log-level", letter := some 'L', form := .text },
  { name := "log-file", letter := some 'F', form := .text },
  { name := "data-dir", form := .path },
  { name := "mock", form := .switch },
  helpSpec]

def exportSpecs : List OptionSpec := [
  { name := "members", letter := some 'm', form := .switch },
  { name := "output", letter := some 'o', form := .path }]

/-- A command as command lines spell it: its name, its options, the number of its values, and the
command that they make up. -/
structure CommandSpec where
  name : String
  specs : List OptionSpec := []
  values : Nat := 0
  make : Given → String → Command

def commandSpecs : List CommandSpec := [
  { name := "export-image"
    specs := { name := "compare", letter := some 'c', form := .text } :: exportSpecs
    values := 1
    make := fun given roster =>
      .exportImage roster (given.options.lookup "compare") (given.has "members")
        (given.path? "output") },
  { name := "export-csv"
    specs := exportSpecs
    values := 1
    make := fun given roster => .exportCsv roster (given.has "members") (given.path? "output") },
  { name := "show"
    specs := [{ name := "player", letter := some 'p', form := .text },
      { name := "ascii", form := .switch }]
    values := 1
    make := fun given roster =>
      .showPlayers roster (given.options.lookup "player") (given.has "ascii") },
  { name := "list", make := fun _ _ => .list },
  { name := "demo"
    specs := [{ name := "dir", letter := some 'd', form := .path }]
    make := fun given _ => .demo (given.path? "dir") },
  { name := "config", make := fun _ _ => .config }]

/-- Whether arguments behind the command for help ask for help that there is. -/
def helpStop : List String → CommandLineStop
  | [] => .help
  | [topic] =>
    if topic = "help" ∨ (commandSpecs.any fun spec => spec.name = topic) then .help else .misuse
  | _ => .misuse

def assemble (before after : Given) (command : Option Command) : CommandLine where
  logLevel := ((after.options.lookup "log-level") <|> (before.options.lookup "log-level")).getD
    defaultLogLevel
  logFile := ((after.options.lookup "log-file") <|> (before.options.lookup "log-file")).getD
    defaultLogFile
  rosterDirectory := after.path? "data-dir" <|> before.path? "data-dir"
  samples := before.has "mock" || after.has "mock"
  command

/-- Reads a command line. A command that needs a value has exactly one. -/
def read (arguments : List String) : Except CommandLineStop CommandLine := do
  let (before, rest) ← takePart globalSpecs 0 true (arguments.length + 1) arguments {}
  match rest with
  | [] => return assemble before {} none
  | "help" :: topics => .error (helpStop topics)
  | name :: rest =>
    match commandSpecs.find? (·.name == name) with
    | none => .error .misuse
    | some spec =>
      let (after, _) ← takePart (globalSpecs ++ spec.specs) spec.values false
        (rest.length + 1) rest {}
      match spec.values, after.values with
      | 0, _ => return assemble before after (some (spec.make after ""))
      | _ + 1, value :: _ => return assemble before after (some (spec.make after value))
      | _ + 1, [] => .error .misuse

end CommandLine

end GuildRoster
