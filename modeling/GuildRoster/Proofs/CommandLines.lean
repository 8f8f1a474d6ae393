import GuildRoster.CommandLine
import GuildRoster.Proofs.Faults

/-!
# How command lines are spelled

The options and values that arguments spell, told apart from the defaults that stand in for options
that are not given. A command line that is read is spelled by its arguments, and in one way only.
-/

set_option autoImplicit false

namespace GuildRoster.CommandLine

/-! ## Spellings -/

/-- What a group of letters behind a minus sign spells, and the arguments that it leaves of those
behind it: switches, and behind them at most one option with its value. -/
inductive SpellsLetters (specs : List OptionSpec) :
    List Char → List String → List (String × String) → List String → Prop where
  | nothing {rest : List String} : SpellsLetters specs [] rest [] rest
  | switch {spec : OptionSpec} {letter : Char} {letters : List Char} {rest left : List String}
      {options : List (String × String)} (known : spec ∈ specs)
      (named : spec.letter = some letter) (bare : spec.form = .switch)
      (others : SpellsLetters specs letters rest options left) :
      SpellsLetters specs (letter :: letters) rest ((spec.name, "") :: options) left
  | joined {spec : OptionSpec} {letter : Char} {value : List Char} {rest : List String}
      (known : spec ∈ specs) (named : spec.letter = some letter) (takes : spec.form ≠ .switch) :
      SpellsLetters specs (letter :: '=' :: value) rest [(spec.name, String.ofList value)] rest
  | attached {spec : OptionSpec} {letter : Char} {value : List Char} {rest : List String}
      (known : spec ∈ specs) (named : spec.letter = some letter) (takes : spec.form ≠ .switch)
      (nonempty : value ≠ []) (bare : ∀ others, value ≠ '=' :: others) :
      SpellsLetters specs (letter :: value) rest [(spec.name, String.ofList value)] rest
  | next {spec : OptionSpec} {letter : Char} {value : String} {rest : List String}
      (known : spec ∈ specs) (named : spec.letter = some letter) (takes : spec.form ≠ .switch)
      (plain : looksLikeOption value = false) :
      SpellsLetters specs [letter] (value :: rest) [(spec.name, value)] rest

/-- What the first of some arguments spells, with the next one where that is its value: one plain
value, an option by its long name, or a group of letters. -/
inductive SpellsFirst (specs : List OptionSpec) : List String → Given → List String → Prop where
  | value {argument : String} {rest : List String} (plain : looksLikeOption argument = false) :
      SpellsFirst specs (argument :: rest) { values := [argument] } rest
  | switch {spec : OptionSpec} {rest : List String} (known : spec ∈ specs)
      (bare : spec.form = .switch) :
      SpellsFirst specs (("--" ++ spec.name) :: rest) { options := [(spec.name, "")] } rest
  | joined {spec : OptionSpec} {value : String} {rest : List String} (known : spec ∈ specs)
      (takes : spec.form ≠ .switch) :
      SpellsFirst specs (("--" ++ spec.name ++ "=" ++ value) :: rest)
        { options := [(spec.name, value)] } rest
  | next {spec : OptionSpec} {value : String} {rest : List String} (known : spec ∈ specs)
      (takes : spec.form ≠ .switch) (plain : looksLikeOption value = false) :
      SpellsFirst specs (("--" ++ spec.name) :: value :: rest)
        { options := [(spec.name, value)] } rest
  | letters {letters : List Char} {rest left : List String} {options : List (String × String)}
      (nonempty : letters ≠ []) (group : SpellsLetters specs letters rest options left) :
      SpellsFirst specs (("-" ++ String.ofList letters) :: rest) { options } left

/-- What is given by some arguments and then by others. -/
def both (first second : Given) : Given where
  options := first.options ++ second.options
  values := first.values ++ second.values

/-- What arguments spell up to those that are left. Behind two minus signs there are only values. -/
inductive Spells (specs : List OptionSpec) : List String → Given → List String → Prop where
  | done {left : List String} : Spells specs left {} left
  | values {values : List String} : Spells specs ("--" :: values) { values } []
  | more {arguments rest left : List String} {given others : Given}
      (first : SpellsFirst specs arguments given rest) (second : Spells specs rest others left) :
      Spells specs arguments (both given others) left

/-- What all arguments of a command line spell before the command and behind it. Without a command
nothing is behind it. -/
inductive Spelled : List String → Given → Given → Prop where
  | bare {arguments : List String} {before : Given} (first : Spells globalSpecs arguments before [])
      (noValues : before.values = []) : Spelled arguments before {}
  | command {arguments rest : List String} {before after : Given} {spec : CommandSpec}
      (first : Spells globalSpecs arguments before (spec.name :: rest))
      (noValues : before.values = []) (known : spec ∈ commandSpecs)
      (second : Spells (globalSpecs ++ spec.specs) rest after []) : Spelled arguments before after

theorem both_nothing (given : Given) : both given {} = given := by
  simp [both]

theorem nothing_both (given : Given) : both {} given = given := by
  simp [both]

theorem both_assoc (first second third : Given) :
    both (both first second) third = both first (both second third) := by
  simp [both]

/-! ## What is read is spelled -/

variable {specs : List OptionSpec} {given after : Given} {rest between : List String}

theorem addOption_eq_ok {spec : OptionSpec} {value : String}
    (added : given.addOption spec value = .ok after) :
    after = both given { options := [(spec.name, value)] } := by
  unfold Given.addOption at added
  split at added
  next => cases added
  next =>
    split at added
    next => cases added
    next =>
      split at added
      next => cases added
      next =>
        cases added
        simp [both]

theorem addValue_eq_ok {limit : Nat} {value : String}
    (added : given.addValue limit value = .ok after) :
    given.values.length < limit ∧ after = both given { values := [value] } := by
  unfold Given.addValue at added
  split at added
  next room =>
    cases added
    exact ⟨room, by simp [both]⟩
  next => cases added

theorem takeValue_eq_ok_iff {arguments : List String} {value : String} :
    takeValue arguments = .ok (value, rest) ↔
      arguments = value :: rest ∧ looksLikeOption value = false := by
  cases arguments with
  | nil => simp [takeValue]
  | cons argument arguments =>
    cases plain : looksLikeOption argument with
    | true =>
      simp only [takeValue, plain, if_true, reduceCtorEq, List.cons.injEq, false_iff, not_and]
      intro same
      rw [← same.1, plain]
      exact Bool.noConfusion
    | false =>
      simp only [takeValue, plain, Bool.false_eq_true, if_false, Except.ok.injEq, Prod.mk.injEq,
        List.cons.injEq, iff_self_and]
      intro same
      rw [← same.1, plain]

/-- An option added to what is given, with no argument taken for its value. -/
theorem addOption_left {spec : OptionSpec} {value : String}
    (taken : (do return (← given.addOption spec value, rest)) = Except.ok (after, between)) :
    between = rest ∧ after = both given { options := [(spec.name, value)] } := by
  obtain ⟨_, added, shape⟩ := except_bind_eq_ok_iff.1 taken
  cases shape
  exact ⟨rfl, addOption_eq_ok added⟩

/-- An option added to what is given, with the next argument taken for its value. -/
theorem addOption_next {spec : OptionSpec}
    (taken : (do
      let (value, left) ← takeValue rest
      return (← given.addOption spec value, left)) = Except.ok (after, between)) :
    ∃ value, rest = value :: between ∧ looksLikeOption value = false ∧
      after = both given { options := [(spec.name, value)] } := by
  obtain ⟨⟨value, left⟩, valued, others⟩ := except_bind_eq_ok_iff.1 taken
  obtain ⟨rfl, plain⟩ := takeValue_eq_ok_iff.1 valued
  obtain ⟨rfl, shape⟩ := addOption_left others
  exact ⟨value, rfl, plain, shape⟩

theorem takeLetters_spells {letters : List Char}
    (taken : takeLetters specs rest letters given = .ok (after, between)) :
    ∃ options, SpellsLetters specs letters rest options between ∧
      after = both given { options } := by
  induction letters generalizing given with
  | nil =>
    cases taken
    exact ⟨[], .nothing, (both_nothing _).symm⟩
  | cons letter letters ih =>
    unfold takeLetters at taken
    split at taken
    next => cases taken
    next spec found =>
      have known := List.mem_of_find?_eq_some found
      have named : spec.letter = some letter := by simpa using List.find?_some found
      split at taken
      next bare =>
        obtain ⟨_, added, others⟩ := except_bind_eq_ok_iff.1 taken
        obtain ⟨options, spelled, shape⟩ := ih others
        refine ⟨_, .switch known named bare spelled, ?_⟩
        rw [shape, addOption_eq_ok added, both_assoc]
        rfl
      next takes =>
        obtain ⟨value, rfl, plain, shape⟩ := addOption_next taken
        exact ⟨_, .next known named takes plain, shape⟩
      next takes =>
        obtain ⟨rfl, shape⟩ := addOption_left taken
        exact ⟨_, .joined known named takes, shape⟩
      next nonempty bare takes =>
        obtain ⟨rfl, shape⟩ := addOption_left taken
        exact ⟨_, .attached known named takes nonempty bare, shape⟩

theorem cut_name {name : List Char} (clean : '=' ∉ name) (value : List Char) :
    (name ++ '=' :: value).takeWhile (· ≠ '=') = name ∧
      (name ++ '=' :: value).dropWhile (· ≠ '=') = '=' :: value ∧
      name.takeWhile (· ≠ '=') = name ∧ name.dropWhile (· ≠ '=') = [] := by
  induction name with
  | nil => simp
  | cons first name ih =>
    rw [List.mem_cons, not_or] at clean
    have other : first ≠ '=' := Ne.symm clean.1
    simpa [other] using ih clean.2

section LongNames

variable {spec : OptionSpec} {name : List Char}

theorem takeLong_bare (clean : '=' ∉ name)
    (found : specs.find? (·.name == String.ofList name) = some spec) :
    takeLong specs name rest given =
      if spec.form = .switch then return (← given.addOption spec "", rest)
      else do
        let (value, left) ← takeValue rest
        return (← given.addOption spec value, left) := by
  obtain ⟨_, _, bare, nothing⟩ := cut_name clean []
  unfold takeLong
  simp only [bare, nothing, found]
  cases spec.form <;> rfl

theorem takeLong_joined (clean : '=' ∉ name)
    (found : specs.find? (·.name == String.ofList name) = some spec) (value : List Char) :
    takeLong specs (name ++ '=' :: value) rest given =
      if spec.form = .switch then .error .misuse
      else do return (← given.addOption spec (String.ofList value), rest) := by
  obtain ⟨whole, tail, _, _⟩ := cut_name clean value
  unfold takeLong
  simp only [whole, tail, found]
  cases spec.form <;> rfl

theorem takeLong_unknown (clean : '=' ∉ name)
    (unknown : specs.find? (·.name == String.ofList name) = none) (value : List Char) :
    takeLong specs name rest given = .error .misuse ∧
      takeLong specs (name ++ '=' :: value) rest given = .error .misuse := by
  obtain ⟨whole, _, bare, _⟩ := cut_name clean value
  unfold takeLong
  simp only [whole, bare, unknown, and_self]

end LongNames

theorem takeLong_spells {spelled : List Char}
    (taken : takeLong specs spelled rest given = .ok (after, between)) :
    ∃ options, SpellsFirst specs (("--" ++ String.ofList spelled) :: rest) { options } between ∧
      after = both given { options } := by
  by_cases joined : '=' ∈ spelled
  · obtain ⟨name, value, rfl, clean⟩ := List.eq_append_cons_of_mem joined
    cases found : specs.find? (·.name == String.ofList name) with
    | none =>
      rw [(takeLong_unknown clean found value).2] at taken
      cases taken
    | some spec =>
      have known := List.mem_of_find?_eq_some found
      have named : spec.name = String.ofList name := by simpa using List.find?_some found
      have text : "--" ++ String.ofList (name ++ '=' :: value)
          = "--" ++ spec.name ++ "=" ++ String.ofList value := by
        rw [named]
        exact String.toList_inj.1 (by simp)
      rw [takeLong_joined clean found] at taken
      split at taken
      next => cases taken
      next takes =>
        obtain ⟨rfl, shape⟩ := addOption_left taken
        rw [text]
        exact ⟨_, .joined known takes, shape⟩
  · cases found : specs.find? (·.name == String.ofList spelled) with
    | none =>
      rw [(takeLong_unknown joined found []).1] at taken
      cases taken
    | some spec =>
      have known := List.mem_of_find?_eq_some found
      have named : spec.name = String.ofList spelled := by simpa using List.find?_some found
      rw [takeLong_bare joined found] at taken
      rw [← named]
      split at taken
      next bare =>
        obtain ⟨rfl, shape⟩ := addOption_left taken
        exact ⟨_, .switch known bare, shape⟩
      next takes =>
        obtain ⟨value, rfl, plain, shape⟩ := addOption_next taken
        exact ⟨_, .next known takes plain, shape⟩

theorem length_of_spellsLetters {letters : List Char} {options : List (String × String)}
    (spelled : SpellsLetters specs letters rest options between) :
    between.length ≤ rest.length := by
  induction spelled with
  | nothing => exact Nat.le_refl _
  | switch _ _ _ _ ih => exact ih
  | joined => exact Nat.le_refl _
  | attached => exact Nat.le_refl _
  | next => exact Nat.le_succ _

theorem length_of_spellsFirst {arguments : List String}
    (spelled : SpellsFirst specs arguments given rest) : rest.length < arguments.length := by
  cases spelled with
  | value => exact Nat.lt_succ_self _
  | switch => exact Nat.lt_succ_self _
  | joined => exact Nat.lt_succ_self _
  | next => exact Nat.lt_succ_of_lt (Nat.lt_succ_self _)
  | letters _ group => exact Nat.lt_succ_of_le (length_of_spellsLetters group)

theorem foldlM_addValue {limit : Nat} {values : List String}
    (added : values.foldlM (fun given value => given.addValue limit value) given = .ok after) :
    after = both given { values } ∧
      (given.values.length ≤ limit → after.values.length ≤ limit) := by
  induction values generalizing given with
  | nil =>
    cases added
    exact ⟨(both_nothing _).symm, id⟩
  | cons value values ih =>
    rw [List.foldlM_cons] at added
    obtain ⟨next, first, others⟩ := except_bind_eq_ok_iff.1 added
    obtain ⟨room, rfl⟩ := addValue_eq_ok first
    obtain ⟨shape, length⟩ := ih others
    refine ⟨?_, fun _ => length ?_⟩
    · rw [shape, both_assoc]
      rfl
    · rw [both, List.length_append]
      exact room

/-! ### Kinds of arguments -/

theorem argument_cases (argument : String) :
    argument = "--" ∨
    (∃ spelled, spelled ≠ [] ∧ argument = "--" ++ String.ofList spelled) ∨
    (∃ letter letters, letter ≠ '-' ∧ argument = "-" ++ String.ofList (letter :: letters)) ∨
    looksLikeOption argument = false := by
  cases plain : looksLikeOption argument with
  | false => exact .inr (.inr (.inr rfl))
  | true =>
    unfold looksLikeOption at plain
    split at plain
    next letter letters minus =>
      have text : argument = "-" ++ String.ofList (letter :: letters) :=
        String.toList_inj.1 (by simp [minus])
      by_cases same : letter = '-'
      · rw [same] at text
        cases letters with
        | nil => exact .inl text
        | cons first spelled =>
          refine .inr (.inl ⟨first :: spelled, List.cons_ne_nil first spelled, ?_⟩)
          rw [text]
          exact String.toList_inj.1 (by simp)
      · exact .inr (.inr (.inl ⟨letter, letters, same, text⟩))
    next => cases plain

variable {limit fuel : Nat} {beforeCommand : Bool} {left : List String}

theorem takePart_minuses : takePart specs limit beforeCommand (fuel + 1) ("--" :: rest) given =
    (rest.foldlM (fun given value => given.addValue limit value) given >>= fun given =>
      .ok (given, [])) := rfl

theorem takePart_long {spelled : List Char} (nonempty : spelled ≠ []) :
    takePart specs limit beforeCommand (fuel + 1) (("--" ++ String.ofList spelled) :: rest) given =
      (takeLong specs spelled rest given >>= fun taken =>
        takePart specs limit beforeCommand fuel taken.2 taken.1) := by
  have text : ("--" ++ String.ofList spelled).toList = '-' :: '-' :: spelled := by simp
  conv => lhs; unfold takePart
  rw [text]
  cases spelled with
  | nil => exact absurd rfl nonempty
  | cons first spelled => rfl

theorem takePart_name {name : String} (nonempty : name.toList ≠ []) :
    takePart specs limit beforeCommand (fuel + 1) (("--" ++ name) :: rest) given =
      (takeLong specs name.toList rest given >>= fun taken =>
        takePart specs limit beforeCommand fuel taken.2 taken.1) := by
  rw [← takePart_long nonempty, String.ofList_toList]

theorem takePart_letters {letter : Char} {letters : List Char} (other : letter ≠ '-') :
    takePart specs limit beforeCommand (fuel + 1)
        (("-" ++ String.ofList (letter :: letters)) :: rest) given =
      (takeLetters specs rest (letter :: letters) given >>= fun taken =>
        takePart specs limit beforeCommand fuel taken.2 taken.1) := by
  have text : ("-" ++ String.ofList (letter :: letters)).toList = '-' :: letter :: letters := by
    simp
  conv => lhs; unfold takePart
  rw [text]
  split
  next same => simp [other] at same
  next same => simp [other] at same
  next same =>
    cases same
    rfl
  next none => exact (none letter letters rfl).elim

theorem takePart_plain {argument : String} (plain : looksLikeOption argument = false) :
    takePart specs limit beforeCommand (fuel + 1) (argument :: rest) given =
      if beforeCommand then .ok (given, argument :: rest)
      else given.addValue limit argument >>= takePart specs limit beforeCommand fuel rest := by
  unfold looksLikeOption at plain
  conv => lhs; unfold takePart
  split
  next minuses => simp [minuses] at plain
  next minuses => simp [minuses] at plain
  next minus => simp [minus] at plain
  next => rfl

/-! ### Reading one part -/

/-- One step of reading takes what the first arguments spell, or else reading ends. -/
theorem takePart_cases {argument : String}
    (taken : takePart specs limit beforeCommand (fuel + 1) (argument :: rest) given
      = .ok (after, left)) (few : given.values.length ≤ limit) :
    (argument = "--" ∧ left = [] ∧ after = both given { values := rest } ∧
      after.values.length ≤ limit) ∨
    (beforeCommand = true ∧ left = argument :: rest ∧ after = given) ∨
    ∃ first between, SpellsFirst specs (argument :: rest) first between ∧
      (both given first).values.length ≤ limit ∧
      takePart specs limit beforeCommand fuel between (both given first) = .ok (after, left) := by
  have onlyOptions : ∀ options, (both given { options }).values.length ≤ limit := by
    intro options
    simpa [both] using few
  rcases argument_cases argument with
    rfl | ⟨spelled, nonempty, rfl⟩ | ⟨letter, letters, other, rfl⟩ | plain
  · rw [takePart_minuses, except_bind_eq_ok_iff] at taken
    obtain ⟨read, values, shape⟩ := taken
    cases shape
    obtain ⟨added, length⟩ := foldlM_addValue values
    exact .inl ⟨rfl, rfl, added, length few⟩
  · rw [takePart_long nonempty, except_bind_eq_ok_iff] at taken
    obtain ⟨⟨next, between⟩, first, others⟩ := taken
    obtain ⟨options, spells, rfl⟩ := takeLong_spells first
    exact .inr (.inr ⟨_, between, spells, onlyOptions options, others⟩)
  · rw [takePart_letters other, except_bind_eq_ok_iff] at taken
    obtain ⟨⟨next, between⟩, first, others⟩ := taken
    obtain ⟨options, group, rfl⟩ := takeLetters_spells first
    exact .inr (.inr ⟨_, between, .letters (List.cons_ne_nil letter letters) group,
      onlyOptions options, others⟩)
  · rw [takePart_plain plain] at taken
    split at taken
    next before =>
      cases taken
      exact .inr (.inl ⟨before, rfl, rfl⟩)
    next =>
      obtain ⟨next, added, others⟩ := except_bind_eq_ok_iff.1 taken
      obtain ⟨room, rfl⟩ := addValue_eq_ok added
      refine .inr (.inr ⟨_, rest, .value plain, ?_, others⟩)
      rw [both, List.length_append]
      exact room

/-- What is read of some arguments is spelled by them. Nothing is left of them when no command is
looked for. -/
theorem takePart_spells {arguments : List String}
    (taken : takePart specs limit beforeCommand fuel arguments given = .ok (after, left))
    (few : given.values.length ≤ limit) :
    after.values.length ≤ limit ∧
      (beforeCommand = false → arguments.length < fuel → left = []) ∧
      ∃ more, Spells specs arguments more left ∧ after = both given more := by
  -- The number of values within the limit is carried along, and every step leaves fewer arguments
  -- than it finds, so fuel that exceeds their number at first exceeds it up to the end.
  induction fuel generalizing arguments given with
  | zero =>
    cases taken
    exact ⟨few, fun _ short => absurd short (Nat.not_lt_zero _), {}, .done, (both_nothing _).symm⟩
  | succ fuel ih =>
    cases arguments with
    | nil =>
      cases taken
      exact ⟨few, fun _ _ => rfl, {}, .done, (both_nothing _).symm⟩
    | cons argument rest =>
      rcases takePart_cases taken few with ⟨rfl, rfl, added, length⟩ | ⟨before, rfl, rfl⟩ |
        ⟨first, between, spells, fewer, others⟩
      · exact ⟨length, fun _ _ => rfl, _, .values, added⟩
      · refine ⟨few, fun behind => ?_, {}, .done, (both_nothing _).symm⟩
        rw [before] at behind
        cases behind
      · obtain ⟨length, whole, more, rest, shape⟩ := ih others fewer
        have shorter := length_of_spellsFirst spells
        refine ⟨length, fun behind short => whole behind (by omega), _, .more spells rest, ?_⟩
        rw [shape, both_assoc]

theorem spells_of_takePart {arguments : List String}
    (taken : takePart specs limit beforeCommand fuel arguments {} = .ok (after, left)) :
    Spells specs arguments after left ∧ after.values.length ≤ limit ∧
      (beforeCommand = false → arguments.length < fuel → left = []) := by
  obtain ⟨few, whole, more, spells, shape⟩ := takePart_spells taken (Nat.zero_le limit)
  rw [nothing_both] at shape
  exact ⟨shape ▸ spells, few, whole⟩

/-! ## A command line is spelled in one way -/

/-- Options that no spelling confuses: names and letters are those of one option each, no name
contains the sign that joins a value, and no letter is the sign in front of letters. -/
structure Clear (specs : List OptionSpec) : Prop where
  names : ∀ spec ∈ specs, specs.find? (·.name == spec.name) = some spec
  letters : ∀ spec ∈ specs, spec.letter.isSome →
    specs.find? (·.letter == spec.letter) = some spec
  written : ∀ spec ∈ specs, spec.name.toList ≠ [] ∧ '=' ∉ spec.name.toList
  noMinus : ∀ spec ∈ specs, spec.letter ≠ some '-'

theorem Clear.find_name (clear : Clear specs) {spec : OptionSpec} (known : spec ∈ specs) :
    specs.find? (·.name == String.ofList spec.name.toList) = some spec := by
  rw [String.ofList_toList]
  exact clear.names spec known

theorem Clear.find_letter (clear : Clear specs) {spec : OptionSpec} {letter : Char}
    (known : spec ∈ specs) (named : spec.letter = some letter) :
    specs.find? (·.letter == some letter) = some spec := by
  rw [← named]
  exact clear.letters spec known (by rw [named]; rfl)

theorem Clear.ne_minus (clear : Clear specs) {letter : Char} {letters : List Char}
    {options : List (String × String)}
    (group : SpellsLetters specs (letter :: letters) rest options between) : letter ≠ '-' := by
  intro minus
  subst minus
  cases group with
  | switch known named _ _ => exact clear.noMinus _ known named
  | joined known named _ => exact clear.noMinus _ known named
  | attached known named _ _ _ => exact clear.noMinus _ known named
  | next known named _ _ => exact clear.noMinus _ known named

theorem takeLetters_of_spelled (clear : Clear specs) {letters : List Char}
    {options : List (String × String)}
    (group : SpellsLetters specs letters rest options between)
    (taken : takeLetters specs rest letters given = .ok (after, left)) :
    left = between ∧ after = both given { options } := by
  induction group generalizing given with
  | nothing =>
    cases taken
    exact ⟨rfl, (both_nothing _).symm⟩
  | switch known named bare others ih =>
    unfold takeLetters at taken
    simp only [clear.find_letter known named, bare] at taken
    obtain ⟨next, added, others⟩ := except_bind_eq_ok_iff.1 taken
    obtain ⟨same, shape⟩ := ih others
    refine ⟨same, ?_⟩
    rw [shape, addOption_eq_ok added, both_assoc]
    rfl
  | joined known named takes =>
    unfold takeLetters at taken
    simp only [clear.find_letter known named] at taken
    exact addOption_left taken
  | attached known named takes nonempty bare =>
    unfold takeLetters at taken
    simp only [clear.find_letter known named] at taken
    exact addOption_left taken
  | next known named takes plain =>
    unfold takeLetters at taken
    simp only [clear.find_letter known named] at taken
    obtain ⟨value, same, _, shape⟩ := addOption_next taken
    cases same
    exact ⟨rfl, shape⟩

/-- Reading takes what the first arguments spell. -/
theorem takePart_of_spellsFirst (clear : Clear specs) {arguments : List String} {first : Given}
    (spells : SpellsFirst specs arguments first between)
    (noValues : beforeCommand = true → first.values = [])
    (taken : takePart specs limit beforeCommand (fuel + 1) arguments given = .ok (after, left)) :
    takePart specs limit beforeCommand fuel between (both given first) = .ok (after, left) := by
  cases spells with
  | value plain =>
    rw [takePart_plain plain] at taken
    split at taken
    next before => cases noValues before
    next =>
      obtain ⟨next, added, others⟩ := except_bind_eq_ok_iff.1 taken
      rw [← (addValue_eq_ok added).2]
      exact others
  | switch known bare =>
    obtain ⟨nonempty, clean⟩ := clear.written _ known
    rw [takePart_name nonempty, takeLong_bare clean (clear.find_name known), if_pos bare] at taken
    obtain ⟨⟨next, unread⟩, step, others⟩ := except_bind_eq_ok_iff.1 taken
    obtain ⟨rfl, rfl⟩ := addOption_left step
    exact others
  | @joined spec value rest known takes =>
    obtain ⟨_, clean⟩ := clear.written spec known
    have text : "--" ++ spec.name ++ "=" ++ value
        = "--" ++ String.ofList (spec.name.toList ++ '=' :: value.toList) :=
      String.toList_inj.1 (by simp)
    rw [text, takePart_long (by simp), takeLong_joined clean (clear.find_name known),
      if_neg takes, String.ofList_toList] at taken
    obtain ⟨⟨next, unread⟩, step, others⟩ := except_bind_eq_ok_iff.1 taken
    obtain ⟨rfl, rfl⟩ := addOption_left step
    exact others
  | next known takes plain =>
    obtain ⟨nonempty, clean⟩ := clear.written _ known
    rw [takePart_name nonempty, takeLong_bare clean (clear.find_name known), if_neg takes] at taken
    obtain ⟨⟨next, unread⟩, step, others⟩ := except_bind_eq_ok_iff.1 taken
    obtain ⟨again, same, _, rfl⟩ := addOption_next step
    cases same
    exact others
  | @letters letters rest _ options nonempty group =>
    cases letters with
    | nil => exact absurd rfl nonempty
    | cons letter letters =>
      rw [takePart_letters (clear.ne_minus group)] at taken
      obtain ⟨⟨next, unread⟩, step, others⟩ := except_bind_eq_ok_iff.1 taken
      obtain ⟨same, shape⟩ := takeLetters_of_spelled clear group step
      dsimp only at others
      rw [← shape, ← same]
      exact others

/-- Where reading a part of a command line ends: at its end, or at what can be a command. -/
def Stops (beforeCommand : Bool) (left : List String) : Prop :=
  left = [] ∨ beforeCommand = true ∧ ∃ name rest, left = name :: rest ∧ looksLikeOption name = false

theorem takePart_of_spells (clear : Clear specs) {arguments unread : List String} {more : Given}
    (spells : Spells specs arguments more left) (stops : Stops beforeCommand left)
    (noValues : beforeCommand = true → more.values = []) (short : arguments.length < fuel)
    (taken : takePart specs limit beforeCommand fuel arguments given = .ok (after, unread)) :
    unread = left ∧ after = both given more := by
  -- Reading follows the spelling part by part. Only where the spelling ends could it go on, and
  -- `stops` rules this out.
  induction spells generalizing fuel given with
  | done =>
    rw [both_nothing]
    obtain ⟨fuel, rfl⟩ := Nat.exists_eq_add_one_of_ne_zero (Nat.ne_zero_of_lt short)
    rcases stops with rfl | ⟨before, name, rest, rfl, plain⟩
    · cases taken
      exact ⟨rfl, rfl⟩
    · rw [takePart_plain plain, if_pos before] at taken
      cases taken
      exact ⟨rfl, rfl⟩
  | values =>
    obtain ⟨fuel, rfl⟩ := Nat.exists_eq_add_one_of_ne_zero (Nat.ne_zero_of_lt short)
    rw [takePart_minuses, except_bind_eq_ok_iff] at taken
    obtain ⟨read, values, shape⟩ := taken
    cases shape
    exact ⟨rfl, (foldlM_addValue values).1⟩
  | @more arguments rest left first others spells _ ih =>
    obtain ⟨fuel, rfl⟩ := Nat.exists_eq_add_one_of_ne_zero (Nat.ne_zero_of_lt short)
    have none : beforeCommand = true → first.values = [] ∧ others.values = [] := fun before =>
      List.append_eq_nil_iff.1 (noValues before)
    have rest := takePart_of_spellsFirst clear spells (fun before => (none before).1) taken
    have shorter := length_of_spellsFirst spells
    obtain ⟨same, shape⟩ := ih stops (fun before => (none before).2) (by omega) rest
    exact ⟨same, by rw [shape, both_assoc]⟩

theorem clear_globalSpecs : Clear globalSpecs :=
  ⟨by decide, by decide, by decide, by decide⟩

theorem clear_commandSpecs {spec : CommandSpec} (known : spec ∈ commandSpecs) :
    Clear (globalSpecs ++ spec.specs) ∧ looksLikeOption spec.name = false ∧
      commandSpecs.find? (·.name == spec.name) = some spec := by
  simp only [commandSpecs, List.mem_cons, List.not_mem_nil, or_false] at known
  rcases known with rfl | rfl | rfl | rfl | rfl | rfl
  all_goals exact ⟨⟨by decide, by decide, by decide, by decide⟩, rfl, rfl⟩

/-- The arguments of a command line that is read spell something. -/
theorem spelled_of_read {arguments : List String} {line : CommandLine}
    (done : read arguments = .ok line) : ∃ before after, Spelled arguments before after := by
  obtain ⟨⟨before, left⟩, taken, done⟩ := except_bind_eq_ok_iff.1 done
  obtain ⟨first, few, _⟩ := spells_of_takePart taken
  have noValues : before.values = [] := List.length_eq_zero_iff.1 (Nat.le_zero.1 few)
  dsimp only at done
  split at done
  next => exact ⟨before, {}, .bare first noValues⟩
  next => cases done
  next name rest _ _ =>
    split at done
    next => cases done
    next spec found =>
      have known := List.mem_of_find?_eq_some found
      have named : spec.name = name := by simpa using List.find?_some found
      obtain ⟨⟨after, unread⟩, taken, _⟩ := except_bind_eq_ok_iff.1 done
      obtain ⟨second, _, whole⟩ := spells_of_takePart taken
      rw [whole rfl (Nat.lt_succ_self _)] at second
      exact ⟨before, after, .command (named ▸ first) noValues known second⟩

/-- A command line that is read is put together from what its arguments spell. -/
theorem read_of_spelled {arguments : List String} {line : CommandLine} {before after : Given}
    (done : read arguments = .ok line) (spelled : Spelled arguments before after) :
    line = assemble before after line.command := by
  obtain ⟨⟨begun, left⟩, taken, done⟩ := except_bind_eq_ok_iff.1 done
  cases spelled with
  | bare first noValues =>
    obtain ⟨rfl, shape⟩ := takePart_of_spells clear_globalSpecs first (.inl rfl)
      (fun _ => noValues) (Nat.lt_succ_self _) taken
    rw [nothing_both] at shape
    cases shape
    cases done
    rfl
  | @command rest _ _ spec first noValues known second =>
    obtain ⟨clear, plain, found⟩ := clear_commandSpecs known
    obtain ⟨rfl, shape⟩ := takePart_of_spells clear_globalSpecs first
      (.inr ⟨rfl, spec.name, rest, rfl, plain⟩) (fun _ => noValues) (Nat.lt_succ_self _) taken
    rw [nothing_both] at shape
    cases shape
    dsimp only at done
    split at done
    next empty => cases empty
    next => cases done
    next name others _ same =>
      cases same
      rw [found] at done
      obtain ⟨⟨ended, unread⟩, taken, done⟩ := except_bind_eq_ok_iff.1 done
      obtain ⟨_, shape⟩ := takePart_of_spells clear second (.inl rfl) (by simp)
        (Nat.lt_succ_self _) taken
      rw [nothing_both] at shape
      cases shape
      dsimp only at done
      split at done
      next => cases done; rfl
      next => cases done; rfl
      next => cases done

end GuildRoster.CommandLine
