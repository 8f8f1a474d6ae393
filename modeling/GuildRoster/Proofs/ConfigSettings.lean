import GuildRoster.Proofs.ConfigReading
import GuildRoster.Proofs.RecordParts
import GuildRoster.Proofs.TomlData

/-!
# Settings

A configuration is its settings, and a document decides about each of them by the data under the key
of that setting alone: what it gives there is what is set, and where it gives nothing the default
stands in. One datum of a wrong type leaves all settings at their defaults.
-/

set_option autoImplicit false

namespace GuildRoster

/-! ## Keys -/

def Config.keys : List String :=
  ["log_level", "log_file", "data_dir", "highlight_all", "thresholds", "theme"]

def TierThresholds.keys : List String := ["mount", "pet", "knights", "book"]

def Thresholds.keys : List String := ["low", "high"]

def Theme.keys : List String :=
  ["selection_fg", "unfocused_selection_fg", "low_fg", "mid_fg", "high_fg"]

/-! ## What data denote -/

namespace Datum

variable {β : Type}

def DenotesText (datum : Datum) (value : String) : Prop := datum = .text value

def DenotesFlag (datum : Datum) (value : Bool) : Prop := datum = .boolean value

def DenotesPath (datum : Datum) (value : Path) : Prop :=
  ∃ text, datum = .text text ∧ value = Path.ofString text

def DenotesColor (datum : Datum) (value : Color) : Prop :=
  ∃ text, datum = .text text ∧ Color.parse text = .ok (some value)

/-- Both thresholds are given. -/
def DenotesPair (datum : Datum) (value : Thresholds) : Prop :=
  datum.Gives Thresholds.keys "low" (.integer value.low.toInt) ∧
    datum.Gives Thresholds.keys "high" (.integer value.high.toInt)

/-- A datum denotes a value that may as well be missing. -/
def DenotesSome (Denotes : Datum → β → Prop) (datum : Datum) (value : Option β) : Prop :=
  ∃ content, Denotes datum content ∧ value = some content

end Datum

/-! ## Settings -/

/-- A setting: the data that a document gives for it, what they denote, and where the setting is
kept in a configuration. -/
structure Setting where
  Value : Type
  Given (document found : Datum) : Prop
  Denotes : Datum → Value → Prop
  value : Config → Value

namespace Setting

variable {β : Type}

/-- A setting with a key of the document. -/
def ofKey (key : String) (Denotes : Datum → β → Prop) (value : Config → β) : Setting where
  Value := β
  Given document found := document.Gives Config.keys key found
  Denotes := Denotes
  value := value

/-- A setting with a key of a table of the document. -/
def ofTable (table : String) (keys : List String) (key : String) (Denotes : Datum → β → Prop)
    (value : Config → β) : Setting where
  Value := β
  Given document found :=
    ∃ inner, document.Gives Config.keys table inner ∧ inner.Gives keys key found
  Denotes := Denotes
  value := value

def ofThresholds (key : String) (value : TierThresholds → Thresholds) : Setting :=
  ofTable "thresholds" TierThresholds.keys key Datum.DenotesPair
    fun config => value config.thresholds

def ofColor (key : String) (value : Theme → Color) : Setting :=
  ofTable "theme" Theme.keys key Datum.DenotesColor fun config => value config.theme

/-- A configuration has what a document gives for the setting, and its default if the document gives
nothing. -/
def FollowedBy (setting : Setting) (document : Datum) (config : Config) : Prop :=
  Follows (setting.Given document) setting.Denotes (setting.value {}) (setting.value config)

end Setting

/-- All settings. -/
def settings : List Setting := [
  .ofKey "log_level" Datum.DenotesText (·.logLevel),
  .ofKey "log_file" Datum.DenotesText (·.logFile),
  .ofKey "data_dir" (Datum.DenotesSome Datum.DenotesPath) (·.rosterDirectory),
  .ofKey "highlight_all" Datum.DenotesFlag (·.highlightAll),
  .ofThresholds "mount" (·.mount),
  .ofThresholds "pet" (·.pet),
  .ofThresholds "knights" (·.knights),
  .ofThresholds "book" (·.book),
  .ofColor "selection_fg" (·.selection),
  .ofTable "theme" Theme.keys "unfocused_selection_fg" (Datum.DenotesSome Datum.DenotesColor)
    (·.theme.unfocusedSelection),
  .ofColor "low_fg" (·.low),
  .ofColor "mid_fg" (·.middle),
  .ofColor "high_fg" (·.high)]

/-- Two configurations are the same if all their settings are. -/
theorem Config.eq_of_settings {config other : Config}
    (same : ∀ setting ∈ settings, setting.value config = setting.value other) :
    config = other := by
  obtain ⟨_, _, _, _, ⟨_, _, _, _⟩, ⟨_, _, _, _, _⟩⟩ := config
  obtain ⟨_, _, _, _, ⟨_, _, _, _⟩, ⟨_, _, _, _, _⟩⟩ := other
  simpa [settings, Setting.ofKey, Setting.ofThresholds, Setting.ofColor, Setting.ofTable,
    and_assoc] using same

/-- Everything that a document gives has the type of its key. -/
structure Config.WellTyped (document : Datum) : Prop where
  thresholds : ∀ found, document.Gives Config.keys "thresholds" found → found.IsTable
  theme : ∀ found, document.Gives Config.keys "theme" found → found.IsTable
  settings : ∀ setting ∈ settings, ∀ found, setting.Given document found →
    ∃ value, setting.Denotes found value

/-! ## Reading single data -/

section Readers

variable {β : Type} {datum : Datum}

theorem readText_eq_ok {expected : Expectation} {value : String}
    (done : datum.readText expected = .ok value) : datum = .text value := by
  cases datum with
  | text characters =>
    cases done
    rfl
  | _ => cases done

theorem readBoolean_eq_ok {value : Bool} (done : datum.readBoolean = .ok value) :
    datum = .boolean value := by
  cases datum with
  | boolean flag =>
    cases done
    rfl
  | _ => cases done

theorem readSigned64_eq_ok {value : Int64} (done : datum.readSigned64 = .ok value) :
    datum = .integer value.toInt := by
  cases datum with
  | integer number =>
    rw [Datum.readSigned64] at done
    split at done
    next range =>
      cases done
      rw [Int64.toInt_ofInt_of_le (by omega) (by omega)]
    next => cases done
  | _ => cases done

theorem readOptional_denotes {γ : Type} {read : Datum → Except ReadError β} (make : β → γ)
    {Denotes : Datum → γ → Prop}
    (denotes : ∀ content, read datum = .ok content → Denotes datum (make content))
    {value : Option β} (done : datum.readOptional read = .ok value) (other : datum ≠ .null) :
    Datum.DenotesSome Denotes datum (value.map make) := by
  rw [readOptional_of_ne other] at done
  cases reading : read datum with
  | ok content =>
    rw [reading] at done
    cases done
    exact ⟨make content, denotes content reading, rfl⟩
  | error cause =>
    rw [reading] at done
    cases done

theorem Color.denotes_of_read {color : Color} (done : Color.read datum = .ok color) :
    Datum.DenotesColor datum color := by
  cases datum with
  | text characters =>
    rw [read_text] at done
    split at done
    next found =>
      cases done
      exact ⟨characters, rfl, found⟩
    next => cases done
    next => cases done
  | _ => cases done

end Readers

/-! ## One datum for each setting -/

/-- A datum denotes at most one value. -/
def Datum.Unambiguous {β : Type} (Denotes : Datum → β → Prop) : Prop :=
  ∀ datum value other, Toml.IsValue datum → Denotes datum value → Denotes datum other →
    value = other

namespace Datum

theorem unambiguous_text : Unambiguous DenotesText := by
  rintro _ value other _ rfl same
  cases same
  rfl

theorem unambiguous_flag : Unambiguous DenotesFlag := by
  rintro _ value other _ rfl same
  cases same
  rfl

theorem unambiguous_path : Unambiguous DenotesPath := by
  rintro _ value other _ ⟨text, rfl, rfl⟩ ⟨again, same, rfl⟩
  cases same
  rfl

theorem unambiguous_color : Unambiguous DenotesColor := by
  rintro _ value other _ ⟨text, rfl, parsed⟩ ⟨again, same, also⟩
  cases same
  exact Option.some.inj (Except.ok.inj (parsed.symm.trans also))

theorem unambiguous_pair : Unambiguous DenotesPair := by
  rintro datum ⟨low, high⟩ ⟨otherLow, otherHigh⟩ whole ⟨first, second⟩ ⟨third, fourth⟩
  have sameLow := Datum.integer.inj (whole.gives_unique (by decide) first third)
  have sameHigh := Datum.integer.inj (whole.gives_unique (by decide) second fourth)
  rw [Int64.toInt_inj] at sameLow sameHigh
  exact congrArg₂ Thresholds.mk sameLow sameHigh

theorem unambiguous_some {β : Type} {Denotes : Datum → β → Prop}
    (unambiguous : Unambiguous Denotes) : Unambiguous (DenotesSome Denotes) := by
  rintro datum _ _ whole ⟨value, first, rfl⟩ ⟨other, second, rfl⟩
  rw [unambiguous datum value other whole first second]

end Datum

namespace Setting

/-- A document gives at most one datum for the setting, and that denotes at most one value. -/
structure Sound (setting : Setting) : Prop where
  isValue : ∀ {document found : Datum}, Toml.IsValue document → setting.Given document found →
    Toml.IsValue found
  unique : ∀ {document found other : Datum}, Toml.IsValue document →
    setting.Given document found → setting.Given document other → found = other
  unambiguous : Datum.Unambiguous setting.Denotes

variable {β : Type} {Denotes : Datum → β → Prop} {value : Config → β} {key table : String}
  {keys : List String}

theorem Sound.ofKey (unambiguous : Datum.Unambiguous Denotes) :
    (ofKey key Denotes value).Sound where
  isValue whole given := whole.of_gives given (by decide)
  unique whole given also := whole.gives_unique (by decide) given also
  unambiguous := unambiguous

theorem Sound.ofTable (distinct : keys.Nodup) (named : "" ∉ keys)
    (unambiguous : Datum.Unambiguous Denotes) : (ofTable table keys key Denotes value).Sound where
  isValue := by
    rintro document found whole ⟨inner, given, inside⟩
    exact (whole.of_gives given (by decide)).of_gives inside named
  unique := by
    rintro document found other whole ⟨inner, given, inside⟩ ⟨second, also, alsoInside⟩
    obtain rfl := whole.gives_unique (by decide) given also
    exact (whole.of_gives given (by decide)).gives_unique distinct inside alsoInside
  unambiguous := unambiguous

theorem Sound.ofThresholds {value : TierThresholds → Thresholds} :
    (ofThresholds key value).Sound :=
  .ofTable (by decide) (by decide) Datum.unambiguous_pair

theorem Sound.ofColor {value : Theme → Color} : (ofColor key value).Sound :=
  .ofTable (by decide) (by decide) Datum.unambiguous_color

end Setting

theorem settings_sound : ∀ setting ∈ settings, setting.Sound := by
  simp only [settings, List.forall_mem_cons]
  exact ⟨.ofKey Datum.unambiguous_text, .ofKey Datum.unambiguous_text,
    .ofKey (Datum.unambiguous_some Datum.unambiguous_path),
    .ofKey Datum.unambiguous_flag, .ofThresholds, .ofThresholds,
    .ofThresholds, .ofThresholds, .ofColor,
    .ofTable (by decide) (by decide) (Datum.unambiguous_some Datum.unambiguous_color),
    .ofColor, .ofColor, .ofColor, by simp⟩

/-- Documents that give the same data for a setting set it alike. -/
theorem Setting.Sound.eq_of_given {setting : Setting} (sound : setting.Sound)
    {document other : Datum} {config otherConfig : Config} (whole : Toml.IsValue document)
    (followed : setting.FollowedBy document config)
    (otherFollowed : setting.FollowedBy other otherConfig)
    (same : ∀ found, setting.Given document found ↔ setting.Given other found) :
    setting.value config = setting.value otherConfig := by
  by_cases present : ∃ found, setting.Given document found
  · obtain ⟨found, given⟩ := present
    exact sound.unambiguous found _ _ (sound.isValue whole given) (followed.given found given)
      (otherFollowed.given found ((same found).1 given))
  · rw [not_exists] at present
    rw [followed.absent present,
      otherFollowed.absent fun found => (same found).not.1 (present found)]

/-! ## Reading settings -/

theorem Follows.imp {β : Type} {Given : Datum → Prop} {Denotes Other : Datum → β → Prop}
    {default value : β} (follows : Follows Given Denotes default value)
    (same : ∀ found, Given found → Denotes found value → Other found value) :
    Follows Given Other default value where
  given found gives := same found gives (follows.given found gives)
  absent := follows.absent

/-- A part of a table that a document gives, or of the default for that table. -/
theorem Follows.within {β γ : Type} {Given : Datum → Prop} {Reads : Datum → β → Prop}
    {Inner : Datum → Datum → Prop} {Denotes : Datum → γ → Prop} {default value : β}
    (table : Follows Given Reads default value) (part : β → γ)
    (inside : ∀ found, Given found → Reads found value →
      Follows (Inner found) Denotes (part default) (part value)) :
    Follows (fun found => ∃ inner, Given inner ∧ Inner inner found) Denotes (part default)
      (part value) where
  given := by
    rintro found ⟨inner, given, gives⟩
    exact (inside inner given (table.given inner given)).given found gives
  absent := by
    intro missing
    by_cases present : ∃ inner, Given inner
    · obtain ⟨inner, given⟩ := present
      refine (inside inner given (table.given inner given)).absent fun found gives => ?_
      exact missing found ⟨inner, given, gives⟩
    · rw [table.absent fun inner given => present ⟨inner, given⟩]

theorem Thresholds.denotes_of_read {datum : Datum} {pair : Thresholds}
    (done : Thresholds.format.read .ignored datum = .ok pair) : datum.DenotesPair pair := by
  have complete := (RecordFormat.fits_of_read (by decide) done).complete
  simp only [Thresholds.format, List.forall_mem_cons] at complete
  obtain ⟨someLow, someHigh, _⟩ := complete
  obtain ⟨low, givenLow⟩ := someLow rfl
  obtain ⟨high, givenHigh⟩ := someHigh rfl
  have follows : Follows (datum.Gives keys "low") (fun found value => found = .integer value.toInt)
      0 pair.low :=
    RecordFormat.follows_of_read done (by decide) (·.low) 0 rfl
      (fun _ _ _ => readSigned64_eq_ok) (by simp [Thresholds.format])
  have followsHigh : Follows (datum.Gives keys "high")
      (fun found value => found = .integer value.toInt) 0 pair.high :=
    RecordFormat.follows_of_read done (by decide) (·.high) 1 rfl
      (fun _ _ _ => readSigned64_eq_ok) (by simp [Thresholds.format])
  constructor
  · rw [← follows.given low givenLow]
    exact givenLow
  · rw [← followsHigh.given high givenHigh]
    exact givenHigh

/-- Every pair of thresholds follows a datum for all of them. -/
structure TierThresholds.FollowedBy (datum : Datum) (thresholds : TierThresholds) : Prop where
  mount : Follows (datum.Gives keys "mount") Datum.DenotesPair ⟨3, 4⟩ thresholds.mount
  pet : Follows (datum.Gives keys "pet") Datum.DenotesPair ⟨100, 250⟩ thresholds.pet
  knights : Follows (datum.Gives keys "knights") Datum.DenotesPair ⟨10, 17⟩ thresholds.knights
  book : Follows (datum.Gives keys "book") Datum.DenotesPair ⟨1200, 1800⟩ thresholds.book

theorem TierThresholds.followedBy_of_read {datum : Datum} {thresholds : TierThresholds}
    (done : (TierThresholds.format .ignored).read .ignored datum = .ok thresholds) :
    FollowedBy datum thresholds where
  mount := RecordFormat.follows_of_read done (by decide) (·.mount) 0 rfl
    (fun _ _ _ => Thresholds.denotes_of_read) (by simp [TierThresholds.format])
  pet := RecordFormat.follows_of_read done (by decide) (·.pet) 1 rfl
    (fun _ _ _ => Thresholds.denotes_of_read) (by simp [TierThresholds.format])
  knights := RecordFormat.follows_of_read done (by decide) (·.knights) 2 rfl
    (fun _ _ _ => Thresholds.denotes_of_read) (by simp [TierThresholds.format])
  book := RecordFormat.follows_of_read done (by decide) (·.book) 3 rfl
    (fun _ _ _ => Thresholds.denotes_of_read) (by simp [TierThresholds.format])

/-- Every colour follows a datum for all of them. -/
structure Theme.FollowedBy (datum : Datum) (theme : Theme) : Prop where
  selection : Follows (datum.Gives keys "selection_fg") Datum.DenotesColor ({} : Theme).selection
    theme.selection
  unfocused : Follows (datum.Gives keys "unfocused_selection_fg")
    (Datum.DenotesSome Datum.DenotesColor) none theme.unfocusedSelection
  low : Follows (datum.Gives keys "low_fg") Datum.DenotesColor ({} : Theme).low theme.low
  middle : Follows (datum.Gives keys "mid_fg") Datum.DenotesColor ({} : Theme).middle theme.middle
  high : Follows (datum.Gives keys "high_fg") Datum.DenotesColor ({} : Theme).high theme.high

theorem Theme.followedBy_of_read {datum : Datum} {theme : Theme} (whole : Toml.IsValue datum)
    (done : Theme.format.read .ignored datum = .ok theme) : FollowedBy datum theme where
  selection := RecordFormat.follows_of_read done (by decide) (·.selection) 0 rfl
    (fun _ _ _ => Color.denotes_of_read) (by simp [Theme.format])
  unfocused := by
    have follows : Follows (datum.Gives keys "unfocused_selection_fg")
        (fun found value => found ≠ .null → found.DenotesSome Datum.DenotesColor value) none
        theme.unfocusedSelection :=
      RecordFormat.follows_of_read done (by decide) (·.unfocusedSelection) 1 rfl
        (fun _ content _ reading other => by
          simpa using readOptional_denotes id (fun _ => Color.denotes_of_read) reading other)
        (by simp [Theme.format])
    exact follows.imp fun found given denotes =>
      denotes (whole.of_gives given (by decide)).ne_null
  low := RecordFormat.follows_of_read done (by decide) (·.low) 2 rfl
    (fun _ _ _ => Color.denotes_of_read) (by simp [Theme.format])
  middle := RecordFormat.follows_of_read done (by decide) (·.middle) 3 rfl
    (fun _ _ _ => Color.denotes_of_read) (by simp [Theme.format])
  high := RecordFormat.follows_of_read done (by decide) (·.high) 4 rfl
    (fun _ _ _ => Color.denotes_of_read) (by simp [Theme.format])

namespace Config

variable {document : Datum} {config : Config}

/-- Every setting follows the document that the configuration is read from. -/
theorem followedBy_of_read (whole : Toml.IsValue document)
    (done : Config.read .ignored document = .ok config) :
    ∀ setting ∈ settings, setting.FollowedBy document config := by
  have thresholds : Follows (document.Gives keys "thresholds")
      (fun found value => (TierThresholds.format .ignored).read .ignored found = .ok value) {}
      config.thresholds :=
    RecordFormat.follows_of_read done (by decide) (·.thresholds) 4 rfl
      (fun _ _ _ reading => reading) (by simp [format])
  have theme : Follows (document.Gives keys "theme")
      (fun found value => Theme.format.read .ignored found = .ok value) {} config.theme :=
    RecordFormat.follows_of_read done (by decide) (·.theme) 5 rfl
      (fun _ _ _ reading => reading) (by simp [format])
  have colors : ∀ found, document.Gives keys "theme" found →
      Theme.format.read .ignored found = .ok config.theme → Theme.FollowedBy found config.theme :=
    fun found given reading => Theme.followedBy_of_read (whole.of_gives given (by decide)) reading
  simp only [settings, List.forall_mem_cons, List.not_mem_nil, false_implies, implies_true,
    and_true]
  refine ⟨?logLevel, ?logFile, ?directory, ?highlight, ?mount, ?pet, ?knights, ?book, ?selection,
    ?unfocused, ?low, ?middle, ?high⟩
  case logLevel =>
    exact RecordFormat.follows_of_read done (by decide) (·.logLevel) 0 rfl
      (fun _ _ _ => readText_eq_ok) (by simp [format])
  case logFile =>
    exact RecordFormat.follows_of_read done (by decide) (·.logFile) 1 rfl
      (fun _ _ _ => readText_eq_ok) (by simp [format])
  case directory =>
    have follows : Follows (document.Gives keys "data_dir")
        (fun found value => found ≠ .null → found.DenotesSome Datum.DenotesPath value) none
        config.rosterDirectory :=
      RecordFormat.follows_of_read done (by decide) (·.rosterDirectory) 2 rfl
        (fun _ _ _ => readOptional_denotes Path.ofString
          fun text reading => ⟨text, readText_eq_ok reading, rfl⟩)
        (by simp [format])
    exact follows.imp fun found given denotes =>
      denotes (whole.of_gives given (by decide)).ne_null
  case highlight =>
    exact RecordFormat.follows_of_read done (by decide) (·.highlightAll) 3 rfl
      (fun _ _ _ => readBoolean_eq_ok) (by simp [format])
  case mount =>
    exact thresholds.within (·.mount) fun _ _ reading =>
      (TierThresholds.followedBy_of_read reading).mount
  case pet =>
    exact thresholds.within (·.pet) fun _ _ reading =>
      (TierThresholds.followedBy_of_read reading).pet
  case knights =>
    exact thresholds.within (·.knights) fun _ _ reading =>
      (TierThresholds.followedBy_of_read reading).knights
  case book =>
    exact thresholds.within (·.book) fun _ _ reading =>
      (TierThresholds.followedBy_of_read reading).book
  case selection =>
    exact theme.within (·.selection) fun found given reading =>
      (colors found given reading).selection
  case unfocused =>
    exact theme.within (·.unfocusedSelection) fun found given reading =>
      (colors found given reading).unfocused
  case low =>
    exact theme.within (·.low) fun found given reading => (colors found given reading).low
  case middle =>
    exact theme.within (·.middle) fun found given reading => (colors found given reading).middle
  case high =>
    exact theme.within (·.high) fun found given reading => (colors found given reading).high

/-- Only documents with data of the right types are read. -/
theorem wellTyped_of_read (whole : Toml.IsValue document)
    (done : Config.read .ignored document = .ok config) : WellTyped document := by
  have typed := (Config.demands document config done).fields
  simp only [types, List.forall_mem_cons] at typed
  obtain ⟨_, _, _, _, thresholds, theme, _⟩ := typed
  refine ⟨fun found given => ?_, fun found given => ?_, fun setting member found given => ?_⟩
  · exact (whole.of_gives given (by decide)).isRecord_iff.1 (thresholds found given).form
  · exact (whole.of_gives given (by decide)).isRecord_iff.1 (theme found given).form
  · exact ⟨_, (followedBy_of_read whole done setting member).given found given⟩

end Config

theorem Thresholds.hasFields_of_denotes {datum : Datum} {pair : Thresholds}
    (whole : Toml.IsValue datum) (denotes : datum.DenotesPair pair) :
    datum.HasFields Thresholds.types := by
  obtain ⟨low, high⟩ := denotes
  have bounded : ∀ number : Int64, Datum.IsSigned64 (.integer number.toInt) :=
    fun number => ⟨number.toInt, rfl, number.le_toInt, Int.le_of_lt_add_one number.toInt_lt⟩
  refine ⟨whole.isRecord_iff.2 (whole.isTable_of_gives low), ?_, ?_⟩
  · simp only [types, List.forall_mem_cons]
    refine ⟨fun found given => ?_, fun found given => ?_, by simp⟩
    · rw [whole.gives_unique (by decide) given low]
      exact bounded pair.low
    · rw [whole.gives_unique (by decide) given high]
      exact bounded pair.high
  · simp only [types, List.forall_mem_cons]
    exact ⟨fun _ => ⟨_, low⟩, fun _ => ⟨_, high⟩, by simp⟩

theorem Config.hasFields_of_wellTyped {document : Datum} (whole : Toml.IsValue document)
    (table : document.IsTable) (typed : WellTyped document) :
    document.HasFields (types Datum.IsColor) := by
  have each := typed.settings
  simp only [settings, List.forall_mem_cons] at each
  obtain ⟨logLevel, logFile, directory, highlight, mount, pet, knights, book, selection,
    unfocused, low, middle, high, _⟩ := each
  refine ⟨whole.isRecord_iff.2 table, ?_, by simp [types]⟩
  simp only [types, List.forall_mem_cons]
  refine ⟨?logLevel, ?logFile, ?directory, ?highlight, ?thresholds, ?theme, by simp⟩
  case logLevel => exact logLevel
  case logFile => exact logFile
  case directory =>
    intro found given
    obtain ⟨_, path, ⟨text, rfl, _⟩, _⟩ := directory found given
    exact .inr ⟨text, rfl⟩
  case highlight => exact highlight
  case thresholds =>
    intro found given
    have value := whole.of_gives given (by decide)
    have pair : ∀ {key : String} {inner : Datum}, found.Gives TierThresholds.keys key inner →
        (∃ pair, inner.DenotesPair pair) → inner.HasFields Thresholds.types := by
      intro key inner inside some
      obtain ⟨_, denotes⟩ := some
      exact Thresholds.hasFields_of_denotes (value.of_gives inside (by decide)) denotes
    refine ⟨value.isRecord_iff.2 (typed.thresholds found given), ?_, by simp [TierThresholds.types]⟩
    simp only [TierThresholds.types, List.forall_mem_cons]
    exact ⟨fun inner inside => pair inside (mount inner ⟨found, given, inside⟩),
      fun inner inside => pair inside (pet inner ⟨found, given, inside⟩),
      fun inner inside => pair inside (knights inner ⟨found, given, inside⟩),
      fun inner inside => pair inside (book inner ⟨found, given, inside⟩), by simp⟩
  case theme =>
    intro found given
    have value := whole.of_gives given (by decide)
    have color : ∀ {inner : Datum}, (∃ color, inner.DenotesColor color) → inner.IsColor := by
      intro inner some
      obtain ⟨color, text, same, parsed⟩ := some
      exact ⟨text, color, same, parsed⟩
    refine ⟨value.isRecord_iff.2 (typed.theme found given), ?_, by simp [Theme.types]⟩
    simp only [Theme.types, List.forall_mem_cons]
    refine ⟨fun inner inside => color (selection inner ⟨found, given, inside⟩), ?_,
      fun inner inside => color (low inner ⟨found, given, inside⟩),
      fun inner inside => color (middle inner ⟨found, given, inside⟩),
      fun inner inside => color (high inner ⟨found, given, inside⟩), by simp⟩
    intro inner inside
    obtain ⟨_, content, denotes, _⟩ := unfocused inner ⟨found, given, inside⟩
    exact .inr (color ⟨content, denotes⟩)

/-! ## Loading -/

namespace Config

variable {environment : Environment} {tree : FileTree} {document : Datum}

theorem isValue_of_document (held : Document environment tree document) :
    Toml.IsValue document ∧ document.IsTable := by
  obtain ⟨_, _, _, _, parsed⟩ := held
  obtain ⟨whole, table⟩ := Toml.isValue_of_read parsed
  exact ⟨whole, .inl table⟩

theorem load_of_wellTyped (held : Document environment tree document)
    (typed : WellTyped document) :
    ∃ config, load environment tree = .ok config ∧
      ∀ setting ∈ settings, setting.FollowedBy document config := by
  obtain ⟨whole, table⟩ := isValue_of_document held
  cases reading : Config.read .ignored document with
  | error cause =>
    have fields := hasFields_of_wellTyped whole table typed
    exact (Config.admits Color.admits_read document cause fields reading).elim
  | ok config =>
    refine ⟨config, ?_, followedBy_of_read whole reading⟩
    rw [load_of_document held, reading]

theorem load_of_not_wellTyped (held : Document environment tree document)
    (untyped : ¬ WellTyped document) :
    load environment tree = .ok {} ∨ load environment tree = .error .outOfBounds ∧
      ∃ found, GivesColor document found ∧ found.CutsCharacter := by
  rw [load_of_document held]
  cases reading : Config.read .ignored document with
  | ok config => exact absurd (wellTyped_of_read (isValue_of_document held).1 reading) untyped
  | error cause =>
    cases cause with
    | fault fault =>
      obtain ⟨rfl, found, given, cuts⟩ := fault_of_read reading
      exact .inr ⟨rfl, found, given, cuts⟩
    | document flaw => exact .inl rfl
    | mismatch difference => exact .inl rfl

/-- A document decides about every setting by itself, or about none. If all that it gives has the
type of its key, every setting is what the document gives for it, which is at most one datum, and
has its default where the document gives nothing; so two such documents agree about a setting if
they give the same for it, whatever their other keys are and however the keys are ordered. Otherwise
all settings have their defaults, unless a text for a colour stops the reading. The settings are
all that a configuration has. A point in time passes for a table without any of the keys. -/
theorem load_overlays_settings (held : Document environment tree document) :
    (WellTyped document →
      ∃ config, load environment tree = .ok config ∧
        (∀ setting ∈ settings,
          (∀ found, setting.Given document found →
            setting.Denotes found (setting.value config)) ∧
          ((∀ found, ¬ setting.Given document found) →
            setting.value config = setting.value {})) ∧
        ∀ (otherEnvironment : Environment) (otherTree : FileTree) (other : Datum),
          Document otherEnvironment otherTree other → WellTyped other →
          ∃ otherConfig, load otherEnvironment otherTree = .ok otherConfig ∧
            ∀ setting ∈ settings,
              (∀ found, setting.Given document found ↔ setting.Given other found) →
              setting.value config = setting.value otherConfig) ∧
    (¬ WellTyped document →
      load environment tree = .ok {} ∨ load environment tree = .error .outOfBounds ∧
        ∃ found, GivesColor document found ∧ found.CutsCharacter) ∧
    (∀ setting ∈ settings, ∀ found another, setting.Given document found →
      setting.Given document another → found = another) ∧
    ∀ config other : Config, (∀ setting ∈ settings, setting.value config = setting.value other) →
      config = other := by
  have whole := (isValue_of_document held).1
  refine ⟨fun typed => ?_, load_of_not_wellTyped held, ?_, fun _ _ => eq_of_settings⟩
  · obtain ⟨config, loaded, followed⟩ := load_of_wellTyped held typed
    refine ⟨config, loaded, fun setting member => ?_, ?_⟩
    · exact ⟨(followed setting member).given, (followed setting member).absent⟩
    · intro otherEnvironment otherTree other otherHeld otherTyped
      obtain ⟨otherConfig, otherLoaded, otherFollowed⟩ := load_of_wellTyped otherHeld otherTyped
      refine ⟨otherConfig, otherLoaded, fun setting member same => ?_⟩
      exact (settings_sound setting member).eq_of_given whole (followed setting member)
        (otherFollowed setting member) same
  · intro setting member found another given also
    exact (settings_sound setting member).unique whole given also

/-- A document with one setting of its own and one in each of its tables. -/
def partialText : String :=
  "highlight_all = true\n[thresholds]\npet.low = 50\npet.high = 150\n[theme]\nlow_fg = \"#FB4A2D\""

def partialTree : FileTree where
  entries := [(["sfroster".toList], .directory),
    (["sfroster".toList, "config.toml".toList], .file (.text partialText))]

def partialConfig : Config where
  highlightAll := true
  thresholds := { pet := ⟨50, 150⟩ }
  theme := { low := .rgb ⟨251, 74, 45⟩ }

theorem load_overlays_partial_document :
    ∃ document, Document { configHome := some ⟨[]⟩ } partialTree document ∧
      WellTyped document ∧ load { configHome := some ⟨[]⟩ } partialTree = .ok partialConfig ∧
      ∀ setting ∈ settings, (∀ found, ¬ setting.Given document found) →
        setting.value partialConfig = setting.value {} := by
  have parsed : (Toml.read? partialText).isSome = true := by decide +kernel
  obtain ⟨document, parsed⟩ := Option.isSome_iff_exists.1 parsed
  have held : Document { configHome := some ⟨[]⟩ } partialTree document :=
    ⟨_, _, rfl, rfl, parsed⟩
  have result : (match load { configHome := some ⟨[]⟩ } partialTree with
      | .ok config => some config
      | .error _ => none) = some partialConfig := by
    decide +kernel
  have loaded : load { configHome := some ⟨[]⟩ } partialTree = .ok partialConfig := by
    cases outcome : load { configHome := some ⟨[]⟩ } partialTree with
    | ok config =>
      rw [outcome] at result
      rw [Option.some.inj result]
    | error fault =>
      rw [outcome] at result
      cases result
  obtain ⟨typed, untyped, _⟩ := load_overlays_settings held
  -- data of a wrong type would have left the defaults in place
  have wellTyped : WellTyped document := by
    by_contra wrong
    rcases untyped wrong with defaults | ⟨stopped, _⟩
    · rw [loaded, Except.ok.injEq] at defaults
      exact absurd defaults (by decide)
    · rw [loaded] at stopped
      cases stopped
  obtain ⟨config, same, each, _⟩ := typed wellTyped
  rw [loaded, Except.ok.injEq] at same
  subst same
  exact ⟨document, held, wellTyped, loaded, fun setting member => (each setting member).2⟩

end Config

end GuildRoster
