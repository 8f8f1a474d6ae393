import GuildRoster.Json.Reader

/-!
# The written forms of data

The grammar of JSON documents as relations between a text and what it stands for: texts with their
escapes, numbers, lists and records with white space between the tokens. The reader gives back the
datum of every form, whatever follows the form in the document, so a document that has a form reads
as its datum. Escapes that stand for no characters are part of the grammar: a text with such escapes
is a flaw that a reader can pass over.
-/

set_option autoImplicit false

namespace GuildRoster.Json

/-! ## Texts -/

/-- What stands between the quotes of a text, and the characters that it stands for. -/
inductive TextForm : List Char → List Char → Prop where
  | nil : TextForm [] []
  | plain {character : Char} {form characters : List Char} (notQuote : character ≠ '"')
      (notBackslash : character ≠ '\\') (visible : ¬ character.toNat < 0x20) :
      TextForm form characters → TextForm (character :: form) (character :: characters)
  | escape {mark meant : Char} {form characters : List Char} (known : escaped? mark = some meant) :
      TextForm form characters → TextForm ('\\' :: mark :: form) (meant :: characters)
  | unit {a b c d : Char} {unit : Nat} {form characters : List Char}
      (digits : hexUnit? a b c d = some unit) (notTrailing : isTrailing unit = false)
      (notLeading : isLeading unit = false) :
      TextForm form characters →
      TextForm ('\\' :: 'u' :: a :: b :: c :: d :: form) (Char.ofNat unit :: characters)
  /-- A character beyond 16 bits, written as two units. -/
  | pair {a b c d e f g h : Char} {first second : Nat} {form characters : List Char}
      (digits : hexUnit? a b c d = some first) (leading : isLeading first = true)
      (moreDigits : hexUnit? e f g h = some second) (trailing : isTrailing second = true) :
      TextForm form characters →
      TextForm ('\\' :: 'u' :: a :: b :: c :: d :: '\\' :: 'u' :: e :: f :: g :: h :: form)
        (Char.ofNat (0x10000 + (first - 0xD800) * 0x400 + (second - 0xDC00)) :: characters)

theorem isTrailing_of_isLeading {unit : Nat} (leading : isLeading unit = true) :
    isTrailing unit = false := by
  simp only [isLeading, Bool.and_eq_true, decide_eq_true_eq] at leading
  simp only [isTrailing, Bool.and_eq_false_iff, decide_eq_false_iff_not]
  omega

theorem TextForm.readText {form characters : List Char} (written : TextForm form characters)
    (rest : List Char) : Json.readText (form ++ '"' :: rest) = .ok (characters, rest) := by
  induction written with
  | nil => simp [Json.readText]
  | plain notQuote notBackslash visible _ ih =>
    simp [Json.readText, notBackslash, visible, ih, bind, Except.bind, pure, Except.pure]
  | @escape mark meant form characters known _ ih =>
    have notUnit : mark ≠ 'u' := by
      rintro rfl
      cases known
    simp [Json.readText, known, ih, bind, Except.bind, pure, Except.pure]
  | unit digits notTrailing notLeading _ ih =>
    simp [Json.readText, digits, notTrailing, notLeading, ih, bind, Except.bind, pure, Except.pure]
  | pair digits leading moreDigits trailing _ ih =>
    have notTrailing := isTrailing_of_isLeading leading
    simp [Json.readText, digits, notTrailing, leading, moreDigits, trailing, ih, bind, Except.bind,
      pure, Except.pure]

/-- What stands between the quotes of a text, whether or not its escapes stand for characters. -/
inductive PassForm : List Char → Prop where
  | nil : PassForm []
  | plain {character : Char} {form : List Char} (notQuote : character ≠ '"')
      (notBackslash : character ≠ '\\') (visible : ¬ character.toNat < 0x20) :
      PassForm form → PassForm (character :: form)
  | escape {mark meant : Char} {form : List Char} (known : escaped? mark = some meant) :
      PassForm form → PassForm ('\\' :: mark :: form)
  | unit {a b c d : Char} {unit : Nat} {form : List Char} (digits : hexUnit? a b c d = some unit) :
      PassForm form → PassForm ('\\' :: 'u' :: a :: b :: c :: d :: form)

theorem PassForm.passText {form : List Char} (written : PassForm form) (rest : List Char) :
    Json.passText (form ++ '"' :: rest) = .ok rest := by
  induction written with
  | nil => simp [Json.passText]
  | plain notQuote notBackslash visible _ ih => simp [Json.passText, notBackslash, visible, ih]
  | @escape mark meant form known _ ih =>
    have notUnit : mark ≠ 'u' := by
      rintro rfl
      cases known
    simp [Json.passText, known, ih]
  | unit digits _ ih => simp [Json.passText, digits, ih]

private theorem readText_plain {character : Char} (notQuote : character ≠ '"')
    (notBackslash : character ≠ '\\') (visible : ¬ character.toNat < 0x20) (text : List Char) :
    Json.readText (character :: text) = (do
      let (characters, rest) ← Json.readText text
      return (character :: characters, rest)) := by
  rw [Json.readText]
  · rw [if_neg visible]
  · exact notQuote
  · exact fun _ same _ => notBackslash same
  · exact fun _ _ same _ => notBackslash same
  · exact fun same _ => notBackslash same

/-- What is read of a text does not depend on what follows its closing quote. The induction is on
the length: a unit may be read together with the one behind it. -/
theorem PassForm.readText {form : List Char} (written : PassForm form) (rest : List Char) :
    Json.readText (form ++ '"' :: rest)
      = (Json.readText (form ++ ['"'])).map fun found => (found.1, rest) := by
  induction length : form.length using Nat.strongRecOn generalizing form with
  | _ size ih =>
    subst length
    cases written with
    | nil => simp [Json.readText, Except.map]
    | @plain character form notQuote notBackslash visible others =>
      have next := ih form.length (by simp) others rfl
      simp only [List.cons_append, readText_plain notQuote notBackslash visible, next]
      cases Json.readText (form ++ ['"']) <;> rfl
    | @escape mark meant form known others =>
      have notUnit : mark ≠ 'u' := by
        rintro rfl
        cases known
      have next := ih form.length (by simp only [List.length_cons]; omega) others rfl
      simp only [List.cons_append, Json.readText, known, next]
      cases Json.readText (form ++ ['"']) <;> rfl
    | @unit a b c d unit form digits others =>
      by_cases trailing : isTrailing unit = true
      · simp [Json.readText, digits, trailing, Except.map]
      by_cases leading : isLeading unit = true
      · cases others with
        | nil => simp [Json.readText, digits, trailing, leading, Except.map]
        | plain notQuote notBackslash visible others =>
          simp [Json.readText, digits, trailing, leading, notBackslash, Except.map]
        | @escape mark meant form known others =>
          have notUnit : mark ≠ 'u' := by
            rintro rfl
            cases known
          simp [Json.readText, digits, trailing, leading, notUnit, Except.map]
        | @unit e f g h second form moreDigits others =>
          have next := ih form.length (by simp only [List.length_cons]; omega) others rfl
          simp only [List.cons_append, Json.readText, digits, trailing, leading, moreDigits, next]
          by_cases paired : isTrailing second = true
          · simp only [paired]
            cases Json.readText (form ++ ['"']) <;> rfl
          · simp only [paired]
            rfl
      · have next := ih form.length (by simp only [List.length_cons]; omega) others rfl
        simp only [List.cons_append, Json.readText, digits, trailing, leading, next]
        cases Json.readText (form ++ ['"']) <;> rfl

/-- A text of which some escape stands for no character. -/
structure FlawedForm (form : List Char) (fault : DocumentFault) : Prop where
  passable : PassForm form
  unreadable : Json.readText (form ++ ['"']) = .error fault

/-- What stands between the quotes of a text, and what the text is. -/
inductive KeyForm : List Char → Key → Prop where
  | text {form characters : List Char} (written : TextForm form characters) :
      KeyForm form (.ok (String.ofList characters))
  | flawed {form : List Char} {fault : DocumentFault} (written : FlawedForm form fault) :
      KeyForm form (.error ⟨fault, none⟩)

theorem KeyForm.text_append {form : List Char} {key : Key} (written : KeyForm form key)
    (rest : List Char) : Json.text (form ++ '"' :: rest) = (key, some rest) := by
  cases written with
  | text written => simp only [Json.text, written.readText]
  | flawed written =>
    have failed := written.passable.readText rest
    rw [written.unreadable] at failed
    simp only [Json.text, failed, Except.map, written.passable.passText]

/-! ## Numbers -/

/-- The digits of a number: at least one, and each of them below ten. -/
structure IsDigits (digits : List Nat) : Prop where
  nonempty : digits ≠ []
  small : ∀ digit ∈ digits, digit < 10

/-- Digits as they are written. -/
def digitsText (digits : List Nat) : List Char := digits.map Nat.digitChar

/-- A text that does not go on in a way that belongs to a number in front of it. -/
def EndsNumber (text : List Char) : Prop :=
  ∀ character ∈ text.head?,
    digit? character = none ∧ character ≠ '.' ∧ character ≠ 'e' ∧ character ≠ 'E'

instance : (text : List Char) → Decidable (EndsNumber text)
  | [] => isTrue fun _ found => nomatch found
  | character :: _ =>
    decidable_of_iff
      (digit? character = none ∧ character ≠ '.' ∧ character ≠ 'e' ∧ character ≠ 'E')
      (by simp [EndsNumber])

/-- The power of ten of a number with its mark, if the number has one. -/
inductive PowerForm : List Char → Option (Bool × List Nat) → Prop where
  | absent : PowerForm [] none
  | given {mark : Char} {sign : List Char} {negative : Bool} {digits : List Nat}
      (marked : mark = 'e' ∨ mark = 'E')
      (signed : (sign, negative) ∈ [([], false), (['+'], false), (['-'], true)])
      (valid : IsDigits digits) :
      PowerForm (mark :: sign ++ digitsText digits) (some (negative, digits))

/-- The digits of a number after its point, if it has one. -/
inductive FractionForm : List Char → Option (List Nat) → Prop where
  | absent : FractionForm [] none
  | given {digits : List Nat} (valid : IsDigits digits) :
      FractionForm ('.' :: digitsText digits) (some digits)

/-- A number as it is written. Only the whole part zero starts with a zero. -/
inductive NumberForm : List Char → Numeral → Prop where
  | mk {sign fractionForm powerForm : List Char} {negative : Bool} {whole : List Nat}
      {fraction : Option (List Nat)} {power : Option (Bool × List Nat)}
      (signed : (sign, negative) ∈ [([], false), (['-'], true)])
      (valid : IsDigits whole) (noLeadingZero : whole.head? = some 0 → whole = [0])
      (fractional : FractionForm fractionForm fraction) (scaled : PowerForm powerForm power) :
      NumberForm (sign ++ digitsText whole ++ fractionForm ++ powerForm)
        ⟨negative, whole, fraction, power⟩

theorem digit?_digitChar {digit : Nat} (small : digit < 10) :
    digit? (Nat.digitChar digit) = some digit := by
  revert small digit
  decide

theorem digitChar_of_isDigit {character : Char} (isDigit : character.isDigit = true) :
    character.toNat - '0'.toNat < 10
      ∧ Nat.digitChar (character.toNat - '0'.toNat) = character := by
  obtain ⟨atLeast, atMost⟩ : 48 ≤ character.toNat ∧ character.toNat ≤ 57 :=
    Char.isDigit_iff_toNat.mp isDigit
  have small : character.toNat - '0'.toNat < 10 := by
    change character.toNat - 48 < 10
    omega
  refine ⟨small, Char.toNat_inj.mp ?_⟩
  rw [Nat.toNat_digitChar_of_lt_ten small]
  change 48 + (character.toNat - 48) = character.toNat
  omega

theorem digitChar_of_digit? {character : Char} {digit : Nat}
    (found : digit? character = some digit) : digit < 10 ∧ Nat.digitChar digit = character := by
  unfold digit? at found
  split at found
  next inside =>
    cases found
    exact digitChar_of_isDigit (by simpa [Char.isDigit, Char.le_def] using inside)
  next => cases found

theorem ne_of_digit? {character other : Char} (isDigit : (digit? character).isSome)
    (otherwise : digit? other = none := by decide) : character ≠ other := by
  rintro rfl
  simp [otherwise] at isDigit

theorem IsDigits.digitsText_eq_cons {digits : List Nat} (valid : IsDigits digits) :
    ∃ character text, digitsText digits = character :: text ∧ (digit? character).isSome := by
  obtain ⟨digit, others, rfl⟩ := List.exists_cons_of_ne_nil valid.nonempty
  refine ⟨_, _, rfl, ?_⟩
  rw [digit?_digitChar (valid.small digit List.mem_cons_self)]
  rfl

theorem takeDigits_digitsText {digits : List Nat} {rest : List Char}
    (small : ∀ digit ∈ digits, digit < 10)
    (stops : ∀ character ∈ rest.head?, digit? character = none) :
    takeDigits (digitsText digits ++ rest) = (digits, rest) := by
  induction digits with
  | nil =>
    cases rest with
    | nil => rfl
    | cons character rest => simp [digitsText, takeDigits, stops character rfl]
  | cons digit digits ih =>
    have first := digit?_digitChar (small digit List.mem_cons_self)
    have others := ih fun other member => small other (List.mem_cons_of_mem digit member)
    simp only [digitsText] at others
    simp [digitsText, takeDigits, first, others]

theorem PowerForm.take {form rest : List Char} {power : Option (Bool × List Nat)}
    (written : PowerForm form power) (ends : EndsNumber rest) (numeral : Numeral)
    (unscaled : numeral.power = none) :
    numeral.takePower (form ++ rest) = .ok ({ numeral with power }, rest) := by
  cases written with
  | absent =>
    cases rest with
    | nil => simp [Numeral.takePower, ← unscaled]
    | cons character rest =>
      obtain ⟨_, _, notLower, notUpper⟩ := ends character rfl
      simp [Numeral.takePower, notLower, notUpper, ← unscaled]
  | @given mark sign negative digits marked signed valid =>
    have taken := takeDigits_digitsText valid.small fun character first =>
      (ends character first).1
    obtain ⟨character, text, shape, isDigit⟩ := valid.digitsText_eq_cons
    obtain ⟨digit, others, rfl⟩ := List.exists_cons_of_ne_nil valid.nonempty
    rw [shape, List.cons_append] at taken
    rw [shape]
    simp only [List.mem_cons, List.not_mem_nil, Prod.mk.injEq, or_false] at signed
    rcases signed with ⟨rfl, rfl⟩ | ⟨rfl, rfl⟩ | ⟨rfl, rfl⟩
    · have notMinus : character ≠ '-' := ne_of_digit? isDigit
      have notPlus : character ≠ '+' := ne_of_digit? isDigit
      simp [Numeral.takePower, marked, notMinus, notPlus, taken]
    · simp [Numeral.takePower, marked, taken]
    · simp [Numeral.takePower, marked, taken]

theorem PowerForm.follows {form rest : List Char} {power : Option (Bool × List Nat)}
    (written : PowerForm form power) (ends : EndsNumber rest) :
    ∀ character ∈ (form ++ rest).head?, digit? character = none ∧ character ≠ '.' := by
  cases written with
  | absent =>
    intro character first
    obtain ⟨notDigit, notPoint, _⟩ := ends character first
    exact ⟨notDigit, notPoint⟩
  | given marked _ _ =>
    rcases marked with rfl | rfl <;>
      simp only [List.cons_append, List.head?_cons, Option.mem_some_iff, forall_eq'] <;> decide

theorem FractionForm.take {form powerForm rest : List Char} {fraction : Option (List Nat)}
    {power : Option (Bool × List Nat)} (written : FractionForm form fraction)
    (scaled : PowerForm powerForm power) (ends : EndsNumber rest) (numeral : Numeral)
    (plain : numeral.fraction = none) (unscaled : numeral.power = none) :
    numeral.takeFraction (form ++ (powerForm ++ rest))
      = .ok ({ numeral with fraction, power }, rest) := by
  have follows := scaled.follows ends
  cases written with
  | absent =>
    have taken := scaled.take ends numeral unscaled
    rw [List.nil_append, Numeral.takeFraction]
    · rw [taken, ← plain]
    · intro text shape
      rw [shape] at follows
      exact (follows '.' rfl).2 rfl
  | @given digits valid =>
    have taken := takeDigits_digitsText valid.small fun character first =>
      (follows character first).1
    obtain ⟨digit, others, rfl⟩ := List.exists_cons_of_ne_nil valid.nonempty
    rw [List.cons_append, Numeral.takeFraction, taken]
    exact scaled.take ends { numeral with fraction := some (digit :: others) } unscaled

theorem FractionForm.follows {form powerForm rest : List Char} {fraction : Option (List Nat)}
    {power : Option (Bool × List Nat)} (written : FractionForm form fraction)
    (scaled : PowerForm powerForm power) (ends : EndsNumber rest) :
    ∀ character ∈ (form ++ (powerForm ++ rest)).head?, digit? character = none := by
  cases written with
  | absent => exact fun character first => (scaled.follows ends character first).1
  | given valid =>
    simp only [List.cons_append, List.head?_cons, Option.mem_some_iff, forall_eq']
    decide

/-- A number is taken from a text as far as it goes. -/
theorem NumberForm.take {form rest : List Char} {numeral : Numeral}
    (written : NumberForm form numeral) (ends : EndsNumber rest) :
    Numeral.take (form ++ rest) = .ok (numeral, rest) := by
  cases written with
  | @mk sign fractionForm powerForm negative whole fraction power signed valid noLeadingZero
      fractional scaled =>
    have taken := takeDigits_digitsText valid.small (fractional.follows scaled ends)
    have afterwards := fractional.take scaled ends ⟨negative, whole, none, none⟩ rfl rfl
    have nonempty := valid.nonempty
    have notPadded : ∀ second others, whole ≠ 0 :: second :: others := by
      rintro second others rfl
      simpa using noLeadingZero rfl
    rw [← afterwards]
    simp only [List.mem_cons, List.not_mem_nil, Prod.mk.injEq, or_false] at signed
    rcases signed with ⟨rfl, rfl⟩ | ⟨rfl, rfl⟩
    · obtain ⟨character, text, shape, isDigit⟩ := valid.digitsText_eq_cons
      have notMinus : character ≠ '-' := ne_of_digit? isDigit
      rw [shape, List.cons_append] at taken
      simp [Numeral.take, shape, notMinus, taken]
    · simp [Numeral.take, taken]

theorem NumberForm.eq_cons {form : List Char} {numeral : Numeral}
    (written : NumberForm form numeral) :
    ∃ character text, form = character :: text
      ∧ (character = '-' ∨ (digit? character).isSome = true) := by
  cases written with
  | mk signed valid =>
    obtain ⟨character, text, shape, isDigit⟩ := valid.digitsText_eq_cons
    simp only [List.mem_cons, List.not_mem_nil, Prod.mk.injEq, or_false] at signed
    rcases signed with ⟨rfl, rfl⟩ | ⟨rfl, rfl⟩
    · exact ⟨character, _, by rw [shape]; rfl, .inr isDigit⟩
    · exact ⟨'-', _, rfl, .inl rfl⟩

/-! ## Values -/

/-- White space between tokens. -/
def Gap (text : List Char) : Prop := ∀ character ∈ text, isFiller character = true

mutual

/-- A value as it is written, from its first character to its last. -/
inductive ValueForm : List Char → Datum → Prop where
  | null : ValueForm ['n', 'u', 'l', 'l'] .null
  | yes : ValueForm ['t', 'r', 'u', 'e'] (.boolean true)
  | no : ValueForm ['f', 'a', 'l', 's', 'e'] (.boolean false)
  | number {form : List Char} {numeral : Numeral} (written : NumberForm form numeral) :
      ValueForm form numeral.datum
  | text {form characters : List Char} (written : TextForm form characters) :
      ValueForm ('"' :: form ++ ['"']) (.text (String.ofList characters))
  | flawed {form : List Char} {fault : DocumentFault} (written : FlawedForm form fault) :
      ValueForm ('"' :: form ++ ['"']) (.unreadable ⟨fault, none⟩)
  | emptyList {gap : List Char} (blank : Gap gap) :
      ValueForm ('[' :: gap ++ [']']) (.list [] none)
  | list {gap body : List Char} {items : List Datum} (blank : Gap gap)
      (written : ItemsForm body items) :
      ValueForm ('[' :: gap ++ body ++ [']']) (.list items none)
  | emptyRecord {gap : List Char} (blank : Gap gap) :
      ValueForm ('\x7b' :: gap ++ ['\x7d']) (.record [] none)
  | record {gap body : List Char} {members : List (Key × Datum)} (blank : Gap gap)
      (written : MembersForm body members) :
      ValueForm ('\x7b' :: gap ++ body ++ ['\x7d']) (.record members none)

/-- The items of a list, from the first item to the closing bracket. -/
inductive ItemsForm : List Char → List Datum → Prop where
  | last {form gap : List Char} {item : Datum} (written : ValueForm form item)
      (blank : Gap gap) : ItemsForm (form ++ gap) [item]
  | more {form before after body : List Char} {item : Datum} {items : List Datum}
      (written : ValueForm form item) (blankBefore : Gap before) (blankAfter : Gap after)
      (others : ItemsForm body items) :
      ItemsForm (form ++ before ++ ',' :: after ++ body) (item :: items)

/-- The members of a record, from the first name to the closing brace. -/
inductive MembersForm : List Char → List (Key × Datum) → Prop where
  | last {form gap : List Char} {key : Key} {datum : Datum}
      (written : MemberForm form key datum) (blank : Gap gap) :
      MembersForm (form ++ gap) [(key, datum)]
  | more {form before after body : List Char} {key : Key} {datum : Datum}
      {members : List (Key × Datum)} (written : MemberForm form key datum)
      (blankBefore : Gap before) (blankAfter : Gap after) (others : MembersForm body members) :
      MembersForm (form ++ before ++ ',' :: after ++ body) ((key, datum) :: members)

/-- One member of a record: its key, a colon, and its value. -/
inductive MemberForm : List Char → Key → Datum → Prop where
  | mk {keyForm before after form : List Char} {key : Key} {datum : Datum}
      (keyed : KeyForm keyForm key) (blankBefore : Gap before) (blankAfter : Gap after)
      (written : ValueForm form datum) :
      MemberForm ('"' :: keyForm ++ '"' :: before ++ ':' :: after ++ form) key datum

end

theorem gap_nil : Gap [] := by simp [Gap]

/-! ### How forms start -/

theorem isFiller_of_digit {character : Char}
    (isNumber : character = '-' ∨ (digit? character).isSome = true) :
    isFiller character = false := by
  rcases isNumber with rfl | isDigit
  · decide
  · have notBlank : character ≠ ' ' := ne_of_digit? isDigit
    have notLine : character ≠ '\n' := ne_of_digit? isDigit
    have notTab : character ≠ '\t' := ne_of_digit? isDigit
    have notReturn : character ≠ '\r' := ne_of_digit? isDigit
    simp [isFiller, notBlank, notLine, notTab, notReturn]

theorem ValueForm.eq_cons {form : List Char} {datum : Datum} (written : ValueForm form datum) :
    ∃ character text, form = character :: text ∧ isFiller character = false
      ∧ character ≠ ']' := by
  cases written with
  | number written =>
    obtain ⟨character, text, rfl, isNumber⟩ := written.eq_cons
    refine ⟨character, text, rfl, isFiller_of_digit isNumber, ?_⟩
    rcases isNumber with rfl | isDigit
    · decide
    · exact ne_of_digit? isDigit
  | _ => exact ⟨_, _, rfl, by decide, by decide⟩

theorem ItemsForm.eq_cons {form : List Char} {items : List Datum}
    (written : ItemsForm form items) :
    ∃ character text, form = character :: text ∧ isFiller character = false
      ∧ character ≠ ']' := by
  cases written with
  | last written _ =>
    obtain ⟨character, text, rfl, solid, notEnd⟩ := written.eq_cons
    exact ⟨character, _, rfl, solid, notEnd⟩
  | more written _ _ _ =>
    obtain ⟨character, text, rfl, solid, notEnd⟩ := written.eq_cons
    exact ⟨character, _, by simp only [List.cons_append]; rfl, solid, notEnd⟩

theorem MembersForm.eq_cons {form : List Char} {members : List (Key × Datum)}
    (written : MembersForm form members) : ∃ text, form = '"' :: text := by
  cases written with
  | last written _ =>
    cases written
    exact ⟨_, rfl⟩
  | more written _ _ _ =>
    cases written
    exact ⟨_, rfl⟩

/-! ### Reading forms -/

theorem skipFiller_append {gap : List Char} (blank : Gap gap) (text : List Char) :
    skipFiller (gap ++ text) = skipFiller text :=
  List.dropWhile_append_of_pos blank

theorem skipFiller_cons {character : Char} (solid : isFiller character = false)
    (text : List Char) : skipFiller (character :: text) = character :: text := by
  simp [skipFiller, solid]

theorem skipFiller_gap {gap : List Char} (blank : Gap gap) (character : Char)
    (solid : isFiller character = false) (text : List Char) :
    skipFiller (gap ++ character :: text) = character :: text := by
  rw [skipFiller_append blank, skipFiller_cons solid]

theorem value_gap {gap : List Char} (blank : Gap gap) (fuel : Nat) (text : List Char) :
    value fuel (gap ++ text) = value fuel text := by
  cases fuel with
  | zero => rfl
  | succ fuel => simp only [value, skipFiller_append blank]

theorem endsNumber_of_isFiller {character : Char} (blank : isFiller character = true)
    (text : List Char) : EndsNumber (character :: text) := by
  simp only [isFiller, Bool.or_eq_true, decide_eq_true_eq] at blank
  simp only [EndsNumber, List.head?_cons, Option.mem_some_iff, forall_eq']
  rcases blank with ((rfl | rfl) | rfl) | rfl <;> decide

theorem endsNumber_gap {gap : List Char} (blank : Gap gap) {character : Char}
    (ends : EndsNumber [character]) (text : List Char) :
    EndsNumber (gap ++ character :: text) := by
  cases gap with
  | nil => exact ends
  | cons filler gap => exact endsNumber_of_isFiller (blank filler List.mem_cons_self) _

section Steps

variable {fuel : Nat} {gap before after form body rest : List Char}

attribute [local simp] value items members

theorem value_number {numeral : Numeral} (written : NumberForm form numeral)
    (ends : EndsNumber rest) :
    value (fuel + 1) (form ++ rest) = (numeral.datum, some rest) := by
  have taken := written.take ends
  obtain ⟨character, text, rfl, isNumber⟩ := written.eq_cons
  have other : character ≠ 'n' ∧ character ≠ 't' ∧ character ≠ 'f' ∧ character ≠ '"'
      ∧ character ≠ '[' ∧ character ≠ '\x7b' := by
    rcases isNumber with rfl | isDigit
    · decide
    · refine ⟨?_, ?_, ?_, ?_, ?_, ?_⟩ <;> exact ne_of_digit? isDigit
  rw [List.cons_append] at taken ⊢
  simp only [value, skipFiller_cons (isFiller_of_digit isNumber)]
  simp [other, isNumber, taken]

theorem value_emptyList (blank : Gap gap) :
    value (fuel + 1) ('[' :: gap ++ [']'] ++ rest) = (.list [] none, some rest) := by
  have opened : skipFiller ('[' :: (gap ++ ']' :: rest)) = '[' :: (gap ++ ']' :: rest) :=
    skipFiller_cons (by decide) _
  have closed := skipFiller_gap blank ']' (by decide) rest
  simp [opened, closed]

theorem value_emptyRecord (blank : Gap gap) :
    value (fuel + 1) ('\x7b' :: gap ++ ['\x7d'] ++ rest) = (.record [] none, some rest) := by
  have opened : skipFiller ('\x7b' :: (gap ++ '\x7d' :: rest))
      = '\x7b' :: (gap ++ '\x7d' :: rest) := skipFiller_cons (by decide) _
  have closed := skipFiller_gap blank '\x7d' (by decide) rest
  simp [opened, closed]

theorem value_list {found : List Datum} (blank : Gap gap) (written : ItemsForm body found)
    (read : items fuel (body ++ ']' :: rest) = (found, none, some rest)) :
    value (fuel + 1) ('[' :: gap ++ body ++ [']'] ++ rest) = (.list found none, some rest) := by
  obtain ⟨character, text, rfl, solid, notEnd⟩ := written.eq_cons
  have opened : skipFiller ('[' :: (gap ++ character :: (text ++ ']' :: rest)))
      = '[' :: (gap ++ character :: (text ++ ']' :: rest)) := skipFiller_cons (by decide) _
  have first := skipFiller_gap blank character solid (text ++ ']' :: rest)
  rw [List.cons_append] at read
  simp [opened, first, notEnd, read]

theorem value_record {found : List (Key × Datum)} (blank : Gap gap)
    (written : MembersForm body found)
    (read : members fuel (body ++ '\x7d' :: rest) = (found, none, some rest)) :
    value (fuel + 1) ('\x7b' :: gap ++ body ++ ['\x7d'] ++ rest)
      = (.record found none, some rest) := by
  obtain ⟨text, rfl⟩ := written.eq_cons
  have opened : skipFiller ('\x7b' :: (gap ++ '"' :: (text ++ '\x7d' :: rest)))
      = '\x7b' :: (gap ++ '"' :: (text ++ '\x7d' :: rest)) := skipFiller_cons (by decide) _
  have first := skipFiller_gap blank '"' (by decide) (text ++ '\x7d' :: rest)
  rw [List.cons_append] at read
  simp [opened, first, read]

theorem items_last {item : Datum} (blank : Gap gap)
    (read : value fuel (form ++ (gap ++ ']' :: rest)) = (item, some (gap ++ ']' :: rest))) :
    items (fuel + 1) (form ++ gap ++ ']' :: rest) = ([item], none, some rest) := by
  have closed := skipFiller_gap blank ']' (by decide) rest
  simp [read, closed]

theorem items_more {item : Datum} {found : List Datum} (blankBefore : Gap before)
    (blankAfter : Gap after) (others : ItemsForm body found)
    (read : value fuel (form ++ (before ++ ',' :: (after ++ (body ++ ']' :: rest))))
      = (item, some (before ++ ',' :: (after ++ (body ++ ']' :: rest)))))
    (readOthers : items fuel (body ++ ']' :: rest) = (found, none, some rest)) :
    items (fuel + 1) (form ++ before ++ ',' :: after ++ body ++ ']' :: rest)
      = (item :: found, none, some rest) := by
  obtain ⟨character, text, rfl, solid, notEnd⟩ := others.eq_cons
  have comma := skipFiller_gap blankBefore ',' (by decide)
    (after ++ character :: (text ++ ']' :: rest))
  have next := skipFiller_gap blankAfter character solid (text ++ ']' :: rest)
  rw [List.cons_append] at read readOthers
  simp [read, comma, next, notEnd, readOthers]

theorem members_last {keyForm : List Char} {key : Key} {datum : Datum}
    (keyed : KeyForm keyForm key) (blankBefore : Gap before) (blankAfter : Gap after)
    (blank : Gap gap)
    (read : value fuel (form ++ (gap ++ '\x7d' :: rest)) = (datum, some (gap ++ '\x7d' :: rest))) :
    members (fuel + 1)
        ('"' :: keyForm ++ '"' :: before ++ ':' :: after ++ form ++ gap ++ '\x7d' :: rest)
      = ([(key, datum)], none, some rest) := by
  have name := keyed.text_append (before ++ ':' :: (after ++ (form ++ (gap ++ '\x7d' :: rest))))
  have colon := skipFiller_gap blankBefore ':' (by decide)
    (after ++ (form ++ (gap ++ '\x7d' :: rest)))
  have closed := skipFiller_gap blank '\x7d' (by decide) rest
  simp [name, colon, value_gap blankAfter, read, closed]

theorem members_more {keyForm behind next : List Char} {key : Key} {datum : Datum}
    {found : List (Key × Datum)} (keyed : KeyForm keyForm key)
    (blankBefore : Gap before) (blankAfter : Gap after) (blankBehind : Gap behind)
    (blankNext : Gap next) (others : MembersForm body found)
    (read : value fuel (form ++ (behind ++ ',' :: (next ++ (body ++ '\x7d' :: rest))))
      = (datum, some (behind ++ ',' :: (next ++ (body ++ '\x7d' :: rest)))))
    (readOthers : members fuel (body ++ '\x7d' :: rest) = (found, none, some rest)) :
    members (fuel + 1) ('"' :: keyForm ++ '"' :: before ++ ':' :: after ++ form ++ behind
        ++ ',' :: next ++ body ++ '\x7d' :: rest)
      = ((key, datum) :: found, none, some rest) := by
  obtain ⟨text, rfl⟩ := others.eq_cons
  have name := keyed.text_append (before ++ ':' :: (after ++ (form
    ++ (behind ++ ',' :: (next ++ '"' :: (text ++ '\x7d' :: rest))))))
  have colon := skipFiller_gap blankBefore ':' (by decide)
    (after ++ (form ++ (behind ++ ',' :: (next ++ '"' :: (text ++ '\x7d' :: rest)))))
  have comma := skipFiller_gap blankBehind ',' (by decide)
    (next ++ '"' :: (text ++ '\x7d' :: rest))
  have quote := skipFiller_gap blankNext '"' (by decide) (text ++ '\x7d' :: rest)
  rw [List.cons_append] at read readOthers
  simp [name, colon, value_gap blankAfter, read, comma, quote, readOthers]

end Steps

/-- Reading takes at most one step for each character of a form. The induction is on the fuel, for
values, items and members at once. -/
private theorem reads_forms (fuel : Nat) :
    (∀ form datum rest, ValueForm form datum → EndsNumber rest → form.length ≤ fuel →
      value fuel (form ++ rest) = (datum, some rest)) ∧
    (∀ form found rest, ItemsForm form found → form.length < fuel →
      items fuel (form ++ ']' :: rest) = (found, none, some rest)) ∧
    (∀ form found rest, MembersForm form found → form.length < fuel →
      members fuel (form ++ '\x7d' :: rest) = (found, none, some rest)) := by
  induction fuel with
  | zero =>
    refine ⟨?_, by simp, by simp⟩
    intro form datum rest written _ short
    obtain ⟨character, text, rfl, _⟩ := written.eq_cons
    simp at short
  | succ fuel ih =>
    obtain ⟨readsValue, readsItems, readsMembers⟩ := ih
    refine ⟨?_, ?_, ?_⟩
    · intro form datum rest written ends short
      cases written with
      | null => simp [value, skipFiller, isFiller, keyword]
      | yes => simp [value, skipFiller, isFiller, keyword]
      | no => simp [value, skipFiller, isFiller, keyword]
      | number written => exact value_number written ends
      | text written => simp [value, skipFiller, isFiller, (KeyForm.text written).text_append]
      | flawed written => simp [value, skipFiller, isFiller, (KeyForm.flawed written).text_append]
      | emptyList blank => exact value_emptyList blank
      | list blank written =>
        simp only [List.length_append, List.length_cons] at short
        exact value_list blank written (readsItems _ _ rest written (by omega))
      | emptyRecord blank => exact value_emptyRecord blank
      | record blank written =>
        simp only [List.length_append, List.length_cons] at short
        exact value_record blank written (readsMembers _ _ rest written (by omega))
    · intro form found rest written short
      cases written with
      | last written blank =>
        simp only [List.length_append] at short
        exact items_last blank
          (readsValue _ _ _ written (endsNumber_gap blank (by decide) rest) (by omega))
      | more written blankBefore blankAfter others =>
        simp only [List.length_append, List.length_cons] at short
        exact items_more blankBefore blankAfter others
          (readsValue _ _ _ written (endsNumber_gap blankBefore (by decide) _) (by omega))
          (readsItems _ _ rest others (by omega))
    · intro form found rest written short
      cases written with
      | last written blank =>
        cases written with
        | mk keyed blankBefore blankAfter written =>
          simp only [List.length_append, List.length_cons] at short
          exact members_last keyed blankBefore blankAfter blank
            (readsValue _ _ _ written (endsNumber_gap blank (by decide) rest) (by omega))
      | more written blankBehind blankNext others =>
        cases written with
        | mk keyed blankBefore blankAfter written =>
          simp only [List.length_append, List.length_cons] at short
          exact members_more keyed blankBefore blankAfter blankBehind blankNext others
            (readsValue _ _ _ written (endsNumber_gap blankBehind (by decide) _) (by omega))
            (readsMembers _ _ rest others (by omega))

/-- Reading a form gives its datum and stops where the form ends. -/
theorem ValueForm.value {form rest : List Char} {datum : Datum} (written : ValueForm form datum)
    (ends : EndsNumber rest) (fuel : Nat) (enough : form.length ≤ fuel) :
    Json.value fuel (form ++ rest) = (datum, some rest) :=
  (reads_forms fuel).1 form datum rest written ends enough

/-- A document that is a form with white space around it reads as the datum of the form. -/
theorem ValueForm.read {before form after : List Char} {datum : Datum}
    (written : ValueForm form datum) (blankBefore : Gap before) (blankAfter : Gap after) :
    Json.read (String.ofList (before ++ form ++ after)) = (datum, false) := by
  have ends : EndsNumber after := by
    cases after with
    | nil => decide
    | cons character rest => exact endsNumber_of_isFiller (blankAfter _ List.mem_cons_self) rest
  have nothing : skipFiller after = [] := by
    simpa [skipFiller] using skipFiller_append blankAfter []
  have found := written.value ends (2 * (before ++ (form ++ after)).length + 2)
    (by simp only [List.length_append]; omega)
  simp only [Json.read, String.toList_ofList, List.append_assoc, value_gap blankBefore, found,
    nothing]
  rfl

end GuildRoster.Json
