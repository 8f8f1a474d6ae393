import GuildRoster.Config
import GuildRoster.Proofs.ColorTexts
import GuildRoster.Proofs.FileTreeLaws
import GuildRoster.Proofs.RecordTypes

/-!
# Reading the configuration

A configuration is read from its document just when the document has all its data of the right
types. Otherwise all settings have their defaults, unless the reading stops with a fault, which only
a text for a colour can cause that cannot be cut into its components.
-/

set_option autoImplicit false

namespace GuildRoster

/-! ## Single data -/

namespace Datum

def IsText (datum : Datum) : Prop := ∃ value, datum = .text value

def IsBoolean (datum : Datum) : Prop := ∃ value, datum = .boolean value

def IsSigned64 (datum : Datum) : Prop :=
  ∃ value, datum = .integer value ∧ -9223372036854775808 ≤ value ∧ value ≤ 9223372036854775807

/-- A text that denotes a colour. -/
def IsColor (datum : Datum) : Prop :=
  ∃ text color, datum = .text text ∧ Color.parse text = .ok (some color)

/-- A text that looks like a colour but cannot be cut into its components. -/
def CutsCharacter (datum : Datum) : Prop := ∃ text, datum = .text text ∧ Color.CutsCharacter text

def IsNullOr (Holds : Datum → Prop) (datum : Datum) : Prop := datum = .null ∨ Holds datum

end Datum

/-! ## The types of the settings -/

def Thresholds.types : List FieldType :=
  [⟨"low", true, Datum.IsSigned64⟩, ⟨"high", true, Datum.IsSigned64⟩]

def TierThresholds.types : List FieldType :=
  [⟨"mount", false, Datum.HasFields Thresholds.types⟩,
    ⟨"pet", false, Datum.HasFields Thresholds.types⟩,
    ⟨"knights", false, Datum.HasFields Thresholds.types⟩,
    ⟨"book", false, Datum.HasFields Thresholds.types⟩]

/-- The colours of a theme, of which `Colored` says what they may be. -/
def Theme.types (Colored : Datum → Prop) : List FieldType :=
  [⟨"selection_fg", false, Colored⟩, ⟨"unfocused_selection_fg", false, Datum.IsNullOr Colored⟩,
    ⟨"low_fg", false, Colored⟩, ⟨"mid_fg", false, Colored⟩, ⟨"high_fg", false, Colored⟩]

def Config.types (Colored : Datum → Prop) : List FieldType :=
  [⟨"log_level", false, Datum.IsText⟩, ⟨"log_file", false, Datum.IsText⟩,
    ⟨"data_dir", false, Datum.IsNullOr Datum.IsText⟩, ⟨"highlight_all", false, Datum.IsBoolean⟩,
    ⟨"thresholds", false, Datum.HasFields TierThresholds.types⟩,
    ⟨"theme", false, Datum.HasFields (Theme.types Colored)⟩]

/-! ## Readers and types -/

section Readers

variable {β : Type} {allowed : ReadError → Prop} {expected : Expectation}
  {read : Datum → Except ReadError β} {Holds : Datum → Prop}

theorem admits_readText : Admits allowed (Datum.readText expected) Datum.IsText := by
  rintro _ error ⟨value, rfl⟩ failed
  cases failed

theorem demands_readText : Demands (Datum.readText expected) Datum.IsText := by
  intro datum value done
  cases datum with
  | text characters => exact ⟨characters, rfl⟩
  | _ => cases done

theorem admits_readBoolean : Admits allowed Datum.readBoolean Datum.IsBoolean := by
  rintro _ error ⟨value, rfl⟩ failed
  cases failed

theorem demands_readBoolean : Demands Datum.readBoolean Datum.IsBoolean := by
  intro datum value done
  cases datum with
  | boolean flag => exact ⟨flag, rfl⟩
  | _ => cases done

theorem admits_readSigned64 : Admits allowed Datum.readSigned64 Datum.IsSigned64 := by
  rintro _ error ⟨value, rfl, range⟩ failed
  rw [Datum.readSigned64, if_pos range] at failed
  cases failed

theorem demands_readSigned64 : Demands Datum.readSigned64 Datum.IsSigned64 := by
  intro datum value done
  cases datum with
  | integer number =>
    rw [Datum.readSigned64] at done
    split at done
    next range => exact ⟨number, rfl, range⟩
    next => cases done
  | _ => cases done

theorem readOptional_of_ne {datum : Datum} (other : datum ≠ .null) :
    Datum.readOptional read datum = some <$> read datum := by
  cases datum with
  | null => exact absurd rfl other
  | _ => rfl

theorem admits_readOptional (admits : Admits allowed read Holds) :
    Admits allowed (Datum.readOptional read) (Datum.IsNullOr Holds) := by
  intro datum error holds failed
  by_cases null : datum = .null
  · subst null
    cases failed
  · rw [readOptional_of_ne null] at failed
    cases reading : read datum with
    | ok value =>
      rw [reading] at failed
      cases failed
    | error cause =>
      rw [reading] at failed
      cases failed
      exact admits datum error (holds.resolve_left null) reading

theorem demands_readOptional (demands : Demands read Holds) :
    Demands (Datum.readOptional read) (Datum.IsNullOr Holds) := by
  intro datum value done
  by_cases null : datum = .null
  · exact .inl null
  · rw [readOptional_of_ne null] at done
    cases reading : read datum with
    | ok value => exact .inr (demands datum value reading)
    | error cause =>
      rw [reading] at done
      cases done

end Readers

namespace Color

theorem read_text (text : String) : Color.read (.text text) =
    match Color.parse text with
    | .ok (some color) => .ok color
    | .ok none => .error (.mismatch (.unknownColor text))
    | .error fault => .error (.fault fault) := by
  unfold Color.read Datum.readText
  generalize Color.parse = parse
  rfl

theorem admits_read : Admits (fun _ => False) Color.read Datum.IsColor := by
  rintro _ error ⟨text, color, rfl, found⟩ failed
  rw [read_text, found] at failed
  cases failed

theorem demands_read : Demands Color.read Datum.IsColor := by
  intro datum color done
  cases datum with
  | text characters =>
    rw [read_text] at done
    split at done
    next found =>
      cases done
      exact ⟨characters, color, rfl, found⟩
    next => cases done
    next => cases done
  | _ => cases done

theorem fault_of_read {datum : Datum} {fault : Fault}
    (failed : Color.read datum = .error (.fault fault)) :
    datum.CutsCharacter ∧ fault = .outOfBounds := by
  cases datum with
  | text characters =>
    rw [read_text] at failed
    split at failed
    next => cases failed
    next => cases failed
    next broken =>
      cases failed
      obtain ⟨cuts, same⟩ := (parse_failsJust characters).eq_error_iff.1 broken
      exact ⟨⟨characters, rfl, cuts⟩, same⟩
  | _ => cases failed

theorem admits_read_fault : Admits (fun error => error = .fault .outOfBounds) Color.read
    fun datum => datum.IsColor ∨ datum.CutsCharacter := by
  rintro _ error (⟨text, color, rfl, found⟩ | ⟨text, rfl, cuts⟩) failed
  · rw [read_text, found] at failed
    cases failed
  · rw [read_text, (parse_failsJust text).fails cuts] at failed
    cases failed
    rfl

end Color

/-! ## Faults -/

/-- A reader that stops with no fault, whatever the datum. -/
def Faultless {β : Type} (read : Datum → Except ReadError β) : Prop :=
  ∀ datum fault, read datum ≠ .error (.fault fault)

section Faultless

variable {β : Type} {read : Datum → Except ReadError β}

theorem faultless_refuse (datum : Datum) (expected : Expectation) (fault : Fault) :
    (datum.refuse expected : Except ReadError β) ≠ .error (.fault fault) := by
  obtain ⟨error, refused, noFault⟩ := datum.refuse_eq_error expected
  rw [refused, ne_eq, Except.error.injEq]
  exact noFault fault

theorem faultless_readText {expected : Expectation} : Faultless (Datum.readText expected) := by
  intro datum fault
  unfold Datum.readText
  split
  · simp
  · exact faultless_refuse _ _ fault

theorem faultless_readBoolean : Faultless Datum.readBoolean := by
  intro datum fault
  unfold Datum.readBoolean
  split
  · simp
  · exact faultless_refuse _ _ fault

theorem faultless_readSigned64 : Faultless Datum.readSigned64 := by
  intro datum fault
  unfold Datum.readSigned64
  split
  · split <;> simp
  · exact faultless_refuse _ _ fault

theorem fault_of_readOptional {datum : Datum} {fault : Fault}
    (failed : Datum.readOptional read datum = .error (.fault fault)) :
    read datum = .error (.fault fault) := by
  by_cases null : datum = .null
  · subst null
    cases failed
  · rw [readOptional_of_ne null] at failed
    cases reading : read datum with
    | ok value =>
      rw [reading] at failed
      cases failed
    | error cause =>
      rw [reading] at failed
      cases failed
      rfl

theorem Thresholds.faultless : Faultless (Thresholds.format.read .ignored) := by
  intro datum fault failed
  obtain ⟨field, member, found, before, _, reading⟩ :=
    RecordFormat.fault_of_read (by decide) failed
  simp only [Thresholds.format, List.mem_cons, List.not_mem_nil, or_false] at member
  rcases member with rfl | rfl <;>
    exact faultless_readSigned64 found fault (Field.mandatory_eq_error_iff.1 reading)

theorem TierThresholds.faultless : Faultless ((TierThresholds.format .ignored).read .ignored) := by
  intro datum fault failed
  obtain ⟨field, member, found, before, _, reading⟩ :=
    RecordFormat.fault_of_read (by decide) failed
  simp only [TierThresholds.format, List.mem_cons, List.not_mem_nil, or_false] at member
  rcases member with rfl | rfl | rfl | rfl <;>
    exact Thresholds.faultless found fault (Field.optional_eq_error_iff.1 reading)

end Faultless

/-- Only a colour that cannot be cut into its components stops the reading of a theme. -/
theorem Theme.fault_of_read {datum : Datum} {fault : Fault}
    (failed : Theme.format.read .ignored datum = .error (.fault fault)) :
    fault = .outOfBounds ∧ ∃ name found, datum.Gives Theme.format.names name found ∧
      found.CutsCharacter := by
  obtain ⟨field, member, found, before, given, reading⟩ :=
    RecordFormat.fault_of_read (by decide) failed
  have colored : Color.read found = .error (.fault fault) := by
    simp only [Theme.format, List.mem_cons, List.not_mem_nil, or_false] at member
    rcases member with rfl | rfl | rfl | rfl | rfl
    · exact Field.optional_eq_error_iff.1 reading
    · exact fault_of_readOptional (Field.optional_eq_error_iff.1 reading)
    · exact Field.optional_eq_error_iff.1 reading
    · exact Field.optional_eq_error_iff.1 reading
    · exact Field.optional_eq_error_iff.1 reading
  obtain ⟨cuts, same⟩ := Color.fault_of_read colored
  exact ⟨same, field.name, found, given, cuts⟩

/-- A document gives a datum for a colour of its theme. -/
def Config.GivesColor (datum found : Datum) : Prop :=
  ∃ theme name, datum.Gives (Config.format .ignored).names "theme" theme ∧
    theme.Gives Theme.format.names name found

theorem Config.fault_of_read {datum : Datum} {fault : Fault}
    (failed : Config.read .ignored datum = .error (.fault fault)) :
    fault = .outOfBounds ∧ ∃ found, Config.GivesColor datum found ∧ found.CutsCharacter := by
  obtain ⟨field, member, found, before, given, reading⟩ :=
    RecordFormat.fault_of_read (by decide) failed
  simp only [Config.format, List.mem_cons, List.not_mem_nil, or_false] at member
  rcases member with rfl | rfl | rfl | rfl | rfl | rfl
  · exact absurd (Field.optional_eq_error_iff.1 reading) (faultless_readText found fault)
  · exact absurd (Field.optional_eq_error_iff.1 reading) (faultless_readText found fault)
  · exact absurd (fault_of_readOptional (Field.optional_eq_error_iff.1 reading))
      (faultless_readText found fault)
  · exact absurd (Field.optional_eq_error_iff.1 reading) (faultless_readBoolean found fault)
  · exact absurd (Field.optional_eq_error_iff.1 reading) (TierThresholds.faultless found fault)
  · obtain ⟨same, name, color, colored, cuts⟩ :=
      Theme.fault_of_read (Field.optional_eq_error_iff.1 reading)
    exact ⟨same, color, ⟨found, name, given, colored⟩, cuts⟩

/-! ## Whole configurations -/

section Settings

variable {allowed : ReadError → Prop} {Colored : Datum → Prop}

theorem Thresholds.admits :
    Admits allowed (Thresholds.format.read .ignored) (Datum.HasFields Thresholds.types) :=
  RecordFormat.admits_hasFields (by decide)
    (.cons (Field.admits_mandatory admits_readSigned64)
      (.cons (Field.admits_mandatory admits_readSigned64) .nil))

theorem Thresholds.demands :
    Demands (Thresholds.format.read .ignored) (Datum.HasFields Thresholds.types) :=
  RecordFormat.demands_hasFields (by decide)
    (.cons (Field.demands_mandatory demands_readSigned64)
      (.cons (Field.demands_mandatory demands_readSigned64) .nil))

theorem TierThresholds.admits : Admits allowed ((TierThresholds.format .ignored).read .ignored)
    (Datum.HasFields TierThresholds.types) :=
  RecordFormat.admits_hasFields (by decide)
    (.cons (Field.admits_optional Thresholds.admits)
      (.cons (Field.admits_optional Thresholds.admits)
        (.cons (Field.admits_optional Thresholds.admits)
          (.cons (Field.admits_optional Thresholds.admits) .nil))))

theorem TierThresholds.demands : Demands ((TierThresholds.format .ignored).read .ignored)
    (Datum.HasFields TierThresholds.types) :=
  RecordFormat.demands_hasFields (by decide)
    (.cons (Field.demands_optional Thresholds.demands)
      (.cons (Field.demands_optional Thresholds.demands)
        (.cons (Field.demands_optional Thresholds.demands)
          (.cons (Field.demands_optional Thresholds.demands) .nil))))

theorem Theme.nodup_types : ((Theme.types Colored).map (·.name)).Nodup := by
  simp [Theme.types]

theorem Theme.admits (colored : Admits allowed Color.read Colored) :
    Admits allowed (Theme.format.read .ignored) (Datum.HasFields (Theme.types Colored)) :=
  RecordFormat.admits_hasFields Theme.nodup_types
    (.cons (Field.admits_optional colored)
      (.cons (Field.admits_optional (admits_readOptional colored))
        (.cons (Field.admits_optional colored)
          (.cons (Field.admits_optional colored)
            (.cons (Field.admits_optional colored) .nil)))))

theorem Theme.demands :
    Demands (Theme.format.read .ignored) (Datum.HasFields (Theme.types Datum.IsColor)) :=
  RecordFormat.demands_hasFields Theme.nodup_types
    (.cons (Field.demands_optional Color.demands_read)
      (.cons (Field.demands_optional (demands_readOptional Color.demands_read))
        (.cons (Field.demands_optional Color.demands_read)
          (.cons (Field.demands_optional Color.demands_read)
            (.cons (Field.demands_optional Color.demands_read) .nil)))))

theorem Config.nodup_types : ((Config.types Colored).map (·.name)).Nodup := by
  simp [Config.types]

theorem Config.admits (colored : Admits allowed Color.read Colored) :
    Admits allowed (Config.read .ignored) (Datum.HasFields (Config.types Colored)) :=
  RecordFormat.admits_hasFields Config.nodup_types
    (.cons (Field.admits_optional admits_readText)
      (.cons (Field.admits_optional admits_readText)
        (.cons (Field.admits_optional (admits_readOptional admits_readText))
          (.cons (Field.admits_optional admits_readBoolean)
            (.cons (Field.admits_optional TierThresholds.admits)
              (.cons (Field.admits_optional (Theme.admits colored)) .nil))))))

theorem Config.demands :
    Demands (Config.read .ignored) (Datum.HasFields (Config.types Datum.IsColor)) :=
  RecordFormat.demands_hasFields Config.nodup_types
    (.cons (Field.demands_optional demands_readText)
      (.cons (Field.demands_optional demands_readText)
        (.cons (Field.demands_optional (demands_readOptional demands_readText))
          (.cons (Field.demands_optional demands_readBoolean)
            (.cons (Field.demands_optional TierThresholds.demands)
              (.cons (Field.demands_optional Theme.demands) .nil))))))

end Settings

/-! ## Loading -/

namespace Config

/-- The user has a configuration file, and it is a text that holds the datum. -/
def Document (environment : Environment) (tree : FileTree) (datum : Datum) : Prop :=
  ∃ path document, environment.configPath = some path ∧
    tree.find path = .ok (.file (.text document)) ∧ Toml.read? document = some datum

variable {environment : Environment} {tree : FileTree} {datum : Datum}

theorem load_of_document (held : Document environment tree datum) :
    load environment tree = match Config.read .ignored datum with
      | .ok config => .ok config
      | .error (.fault fault) => .error fault
      | .error _ => .ok {} := by
  obtain ⟨path, document, located, found, parsed⟩ := held
  simp only [load, located, FileTree.read_eq_ok_iff.2 found, ofDocument, parsed]
  cases Config.read .ignored datum with
  | ok config => rfl
  | error cause => cases cause <;> rfl

theorem load_of_not_document (missing : ¬ ∃ datum, Document environment tree datum) :
    load environment tree = .ok {} := by
  unfold load
  split
  next => rfl
  next path located =>
    split
    next => rfl
    next document reading =>
      have absent : Toml.read? document = none := by
        cases parsed : Toml.read? document with
        | none => rfl
        | some datum =>
          exact absurd ⟨datum, path, document, located, FileTree.read_eq_ok_iff.1 reading, parsed⟩
            missing
      simp only [ofDocument, absent]

/-- A text for a colour is a fault just when it cannot be cut into its components. Loading gives the
configuration of a document whose data have the right types, and all defaults where there is no
document or its data have other types; only a text for a colour that cannot be cut may stop it, and
does so if nothing else is wrong with the document. -/
theorem load_stops_only_at_colors (environment : Environment) (tree : FileTree) :
    (∀ text fault, Color.parse text = .error fault ↔
      Color.CutsCharacter text ∧ fault = .outOfBounds) ∧
    ((¬ ∃ datum, Document environment tree datum) → load environment tree = .ok {}) ∧
    ∀ datum, Document environment tree datum →
      (datum.HasFields (types Datum.IsColor) →
        ∃ config, Config.read .ignored datum = .ok config ∧
          load environment tree = .ok config) ∧
      (¬ datum.HasFields (types Datum.IsColor) →
        load environment tree = .ok {} ∨
        load environment tree = .error .outOfBounds ∧
          ∃ found, GivesColor datum found ∧ found.CutsCharacter) ∧
      (¬ datum.HasFields (types Datum.IsColor) →
        datum.HasFields (types fun found => found.IsColor ∨ found.CutsCharacter) →
        load environment tree = .error .outOfBounds) := by
  refine ⟨fun text fault => (Color.parse_failsJust text).eq_error_iff, load_of_not_document, ?_⟩
  intro datum held
  rw [load_of_document held]
  cases reading : Config.read .ignored datum with
  | ok config =>
    have typed := Config.demands datum config reading
    exact ⟨fun _ => ⟨config, rfl, rfl⟩, absurd typed, absurd typed⟩
  | error cause =>
    refine ⟨?typed, ?untyped, ?colored⟩
    case typed =>
      intro typed
      exact (Config.admits Color.admits_read datum cause typed reading).elim
    case untyped =>
      intro _
      cases cause with
      | fault fault =>
        obtain ⟨rfl, found, given, cuts⟩ := fault_of_read reading
        exact .inr ⟨rfl, found, given, cuts⟩
      | document flaw => exact .inl rfl
      | mismatch difference => exact .inl rfl
    case colored =>
      intro _ colored
      have stopped := Config.admits Color.admits_read_fault datum cause colored reading
      rw [stopped]

/-- A document with a colour of five characters in six bytes, the second of them across a cut. -/
def accentedTree : FileTree where
  entries := [(["sfroster".toList], .directory),
    (["sfroster".toList, "config.toml".toList],
      .file (.text "[theme]\nlow_fg = \"#aéaaa\""))]

theorem load_can_stop : load { configHome := some ⟨[]⟩ } accentedTree = .error .outOfBounds := by
  have stopped : (match load { configHome := some ⟨[]⟩ } accentedTree with
      | .ok _ => none
      | .error fault => some fault) = some .outOfBounds := by
    decide +kernel
  cases loaded : load { configHome := some ⟨[]⟩ } accentedTree with
  | ok config =>
    rw [loaded] at stopped
    cases stopped
  | error fault =>
    rw [loaded] at stopped
    cases stopped
    rfl

end Config

end GuildRoster
