import GuildRoster.Fault
import GuildRoster.Proofs.Json.Forms
import GuildRoster.Proofs.WellFormedData
import Mathlib.Data.List.TakeWhile

/-!
# Documents in the grammar

The grammar covers all that the reader accepts: a text, number or value after which a document goes
on is a form of what was read, and a value at which the document breaks off is not well formed. So a
document is a form of a datum just when it reads to its end as that datum and the datum is well
formed.
-/

set_option autoImplicit false

namespace GuildRoster.Json

/-! ## Texts -/

private theorem not_backslash {character : Char} {rest : List Char}
    (noMark : ∀ mark others, character = '\\' → rest = mark :: others → False)
    (noEnd : character = '\\' → rest = [] → False) : character ≠ '\\' := by
  intro same
  cases rest with
  | nil => exact noEnd same rfl
  | cons mark others => exact noMark mark others same rfl

/-- What is read as a text is a form of its characters. -/
theorem exists_textForm {document characters rest : List Char}
    (read : readText document = .ok (characters, rest)) :
    ∃ form, document = form ++ '"' :: rest ∧ TextForm form characters := by
  fun_induction readText document generalizing characters rest with
  | case2 =>
    cases read
    exact ⟨[], rfl, .nil⟩
  | case6 _ _ _ _ _ digits notTrailing leading _ _ _ _ _ _ moreDigits trailing ih =>
    obtain ⟨⟨others, _⟩, reading, same⟩ := except_bind_eq_ok_iff.1 read
    cases same
    obtain ⟨form, rfl, written⟩ := ih reading
    exact ⟨_, rfl, .pair digits leading moreDigits trailing written⟩
  | case13 _ _ _ _ _ _ digits notTrailing notLeading ih =>
    obtain ⟨⟨others, _⟩, reading, same⟩ := except_bind_eq_ok_iff.1 read
    cases same
    obtain ⟨form, rfl, written⟩ := ih reading
    exact ⟨_, rfl, .unit digits (by simpa using notTrailing) (by simpa using notLeading) written⟩
  | case16 _ _ _ _ known ih =>
    obtain ⟨⟨others, _⟩, reading, same⟩ := except_bind_eq_ok_iff.1 read
    cases same
    obtain ⟨form, rfl, written⟩ := ih reading
    exact ⟨_, rfl, .escape known written⟩
  | case19 _ _ notQuote _ noMark noEnd visible ih =>
    obtain ⟨⟨others, _⟩, reading, same⟩ := except_bind_eq_ok_iff.1 read
    cases same
    obtain ⟨form, rfl, written⟩ := ih reading
    exact ⟨_, rfl, .plain notQuote (not_backslash noMark noEnd) visible written⟩
  | _ => cases read

/-- What is passed over as a text is a form of some text. -/
theorem exists_passForm {document rest : List Char} (passed : passText document = .ok rest) :
    ∃ form, document = form ++ '"' :: rest ∧ PassForm form := by
  fun_induction passText document with
  | case2 =>
    cases passed
    exact ⟨[], rfl, .nil⟩
  | case3 _ _ _ _ _ known ih =>
    obtain ⟨unit, digits⟩ := Option.isSome_iff_exists.1 known
    obtain ⟨form, rfl, written⟩ := ih passed
    exact ⟨_, rfl, .unit digits written⟩
  | case6 _ _ _ known ih =>
    obtain ⟨meant, found⟩ := Option.isSome_iff_exists.1 known
    obtain ⟨form, rfl, written⟩ := ih passed
    exact ⟨_, rfl, .escape found written⟩
  | case10 _ _ notQuote _ noMark noEnd visible ih =>
    obtain ⟨form, rfl, written⟩ := ih passed
    exact ⟨_, rfl, .plain notQuote (not_backslash noMark noEnd) visible written⟩
  | _ => cases passed

/-- A text after which the document goes on is a form of its key. -/
theorem exists_keyForm {document rest : List Char} {key : Key}
    (read : text document = (key, some rest)) :
    ∃ form, document = form ++ '"' :: rest ∧ KeyForm form key := by
  unfold text at read
  split at read
  next characters others reading =>
    cases read
    obtain ⟨form, rfl, written⟩ := exists_textForm reading
    exact ⟨form, rfl, .text written⟩
  next fault reading =>
    split at read
    next others passing =>
      cases read
      obtain ⟨form, rfl, written⟩ := exists_passForm passing
      refine ⟨form, rfl, .flawed ⟨written, ?_⟩⟩
      rw [written.readText] at reading
      cases found : readText (form ++ ['"']) with
      | error cause =>
        rw [found] at reading
        cases reading
        rfl
      | ok result =>
        rw [found] at reading
        cases reading
    next => cases read

/-- A text after which the document does not go on cannot be passed over. -/
theorem key_of_text_none {document : List Char} {key : Key} (read : text document = (key, none)) :
    ∃ flaw, key = .error flaw ∧ flaw.skipping ≠ none := by
  unfold text at read
  split at read
  next => cases read
  next =>
    split at read
    next => cases read
    next skipping _ =>
      cases read
      exact ⟨_, rfl, by simp⟩

/-! ## Numbers -/

theorem exists_digits {document rest : List Char} {digits : List Nat}
    (taken : takeDigits document = (digits, rest)) :
    document = digitsText digits ++ rest ∧ ∀ digit ∈ digits, digit < 10 := by
  induction document generalizing digits with
  | nil =>
    cases taken
    exact ⟨rfl, by simp⟩
  | cons character others ih =>
    unfold takeDigits at taken
    split at taken
    next digit found =>
      obtain ⟨small, same⟩ := digitChar_of_digit? found
      cases more : takeDigits others with
      | mk digits left =>
        rw [more] at taken
        cases taken
        obtain ⟨rfl, smaller⟩ := ih more
        exact ⟨by simp [digitsText, same], by simpa using ⟨small, smaller⟩⟩
    next =>
      cases taken
      exact ⟨rfl, by simp⟩

/-- What stands behind the sign of a power. -/
private theorem exists_sign (document : List Char) :
    ∃ sign, document = sign ++ (match document with
        | '-' :: rest => (true, rest)
        | '+' :: rest => (false, rest)
        | _ => (false, document)).2 ∧
      (sign, (match document with
        | '-' :: rest => (true, rest)
        | '+' :: rest => (false, rest)
        | _ => (false, document)).1) ∈ [([], false), (['+'], false), (['-'], true)] := by
  split
  · exact ⟨['-'], rfl, by simp⟩
  · exact ⟨['+'], rfl, by simp⟩
  · exact ⟨[], rfl, by simp⟩

theorem exists_powerForm {numeral found : Numeral} {document rest : List Char}
    (unscaled : numeral.power = none) (taken : numeral.takePower document = .ok (found, rest)) :
    ∃ form, document = form ++ rest ∧ PowerForm form found.power ∧
      found = { numeral with power := found.power } := by
  unfold Numeral.takePower at taken
  split at taken
  next =>
    cases taken
    exact ⟨[], rfl, unscaled ▸ .absent, rfl⟩
  next mark others =>
    split at taken
    next marked =>
      dsimp only at taken
      split at taken
      next => cases taken
      next digits left nonempty digitsTaken =>
        cases taken
        obtain ⟨sign, joined, signed⟩ := exists_sign others
        obtain ⟨behind, small⟩ := exists_digits digitsTaken
        have whole : others = sign ++ (digitsText digits ++ rest) :=
          joined.trans (congrArg (sign ++ ·) behind)
        refine ⟨mark :: sign ++ digitsText digits, ?_, .given marked signed ⟨nonempty, small⟩, rfl⟩
        simp only [whole, List.cons_append, List.append_assoc]
    next =>
      cases taken
      exact ⟨[], rfl, unscaled ▸ .absent, rfl⟩

theorem exists_fractionForm {numeral found : Numeral} {document rest : List Char}
    (unscaled : numeral.power = none) (plain : numeral.fraction = none)
    (taken : numeral.takeFraction document = .ok (found, rest)) :
    ∃ fractionForm powerForm, document = fractionForm ++ powerForm ++ rest ∧
      FractionForm fractionForm found.fraction ∧ PowerForm powerForm found.power ∧
      found = { numeral with fraction := found.fraction, power := found.power } := by
  unfold Numeral.takeFraction at taken
  split at taken
  next others =>
    split at taken
    next => cases taken
    next digits left nonempty digitsTaken =>
      obtain ⟨rfl, small⟩ := exists_digits digitsTaken
      obtain ⟨powerForm, rfl, scaled, same⟩ := exists_powerForm (by exact unscaled) taken
      have fraction : found.fraction = some digits := by rw [same]
      refine ⟨'.' :: digitsText digits, powerForm, by simp, ?_, scaled, ?_⟩
      · rw [fraction]
        exact .given ⟨nonempty, small⟩
      · rw [same]
  next =>
    obtain ⟨powerForm, rfl, scaled, same⟩ := exists_powerForm unscaled taken
    have fraction : found.fraction = none := by rw [same, plain]
    refine ⟨[], powerForm, rfl, ?_, scaled, ?_⟩
    · rw [fraction]
      exact .absent
    · rw [same, plain]

/-- What stands behind the sign of a number. -/
private theorem exists_minus (document : List Char) :
    ∃ sign, document = sign ++ (match document with
        | '-' :: rest => (true, rest)
        | _ => (false, document)).2 ∧
      (sign, (match document with
        | '-' :: rest => (true, rest)
        | _ => (false, document)).1) ∈ [([], false), (['-'], true)] := by
  split
  · exact ⟨['-'], rfl, by simp⟩
  · exact ⟨[], rfl, by simp⟩

/-- What is taken as a number is a form of that number. -/
theorem exists_numberForm {document rest : List Char} {numeral : Numeral}
    (taken : Numeral.take document = .ok (numeral, rest)) :
    ∃ form, document = form ++ rest ∧ NumberForm form numeral := by
  unfold Numeral.take at taken
  dsimp only at taken
  split at taken
  next => cases taken
  next => cases taken
  next whole left nonempty unpadded digitsTaken =>
    obtain ⟨sign, joined, signed⟩ := exists_minus document
    obtain ⟨behind, small⟩ := exists_digits digitsTaken
    obtain ⟨fractionForm, powerForm, rfl, fractional, scaled, same⟩ :=
      exists_fractionForm rfl rfl taken
    have shape : document
        = sign ++ (digitsText whole ++ (fractionForm ++ powerForm ++ rest)) :=
      joined.trans (congrArg (sign ++ ·) behind)
    have noLeadingZero : whole.head? = some 0 → whole = [0] := by
      intro first
      match whole, first with
      | [0], _ => rfl
      | 0 :: second :: others, _ => exact absurd rfl (unpadded second others)
    rw [same]
    refine ⟨_, ?_, .mk signed ⟨nonempty, small⟩ noLeadingZero fractional scaled⟩
    rw [shape]
    simp only [List.append_assoc]

/-- A number that breaks off cannot be passed over either. -/
theorem skipping_of_take {document : List Char} {flaw : Flaw}
    (taken : Numeral.take document = .error flaw) : flaw.skipping ≠ none := by
  have unfinished : ∀ rest, (unfinished rest).skipping ≠ none := by
    intro rest
    unfold Json.unfinished
    split <;> simp [Flaw.plain]
  have power : ∀ (numeral : Numeral) document, numeral.takePower document = .error flaw →
      flaw.skipping ≠ none := by
    intro numeral document failed
    unfold Numeral.takePower at failed
    split at failed
    next => cases failed
    next =>
      split at failed
      next =>
        dsimp only at failed
        split at failed
        next =>
          cases failed
          exact unfinished _
        next => cases failed
      next => cases failed
  unfold Numeral.take at taken
  dsimp only at taken
  split at taken
  next =>
    cases taken
    exact unfinished _
  next =>
    cases taken
    simp [Flaw.plain]
  next =>
    unfold Numeral.takeFraction at taken
    split at taken
    next =>
      split at taken
      next =>
        cases taken
        exact unfinished _
      next => exact power _ _ taken
    next => exact power _ _ taken

/-! ## Values -/

theorem Gap.append {gap other : List Char} (blank : Gap gap) (alsoBlank : Gap other) :
    Gap (gap ++ other) := by
  intro character member
  rcases List.mem_append.1 member with front | back
  · exact blank character front
  · exact alsoBlank character back

theorem exists_gap (document : List Char) :
    ∃ gap, document = gap ++ skipFiller document ∧ Gap gap :=
  ⟨document.takeWhile isFiller, (List.takeWhile_append_dropWhile).symm, fun _ member =>
    List.mem_takeWhile_imp member⟩

/-- A word is read to its end or not at all. -/
theorem keyword_cases (datum : Datum) (word document : List Char) :
    (∃ rest, document = word ++ rest ∧ keyword datum word document = (datum, some rest)) ∨
      ∃ fault, keyword datum word document = (.unreadable (.plain fault), none) := by
  induction word generalizing document with
  | nil => exact .inl ⟨document, rfl, by cases document <;> rfl⟩
  | cons expected word ih =>
    cases document with
    | nil => exact .inr ⟨.endInValue, rfl⟩
    | cons character others =>
      by_cases same : character = expected
      · subst same
        rcases ih others with ⟨rest, rfl, read⟩ | ⟨fault, read⟩
        · exact .inl ⟨rest, rfl, by simp [keyword, read]⟩
        · exact .inr ⟨fault, by simp [keyword, read]⟩
      · exact .inr ⟨.keywordExpected, by simp [keyword, same]⟩

/-! ### Where the document goes on -/

/-- Values, items and members that are read with some fuel, and after which the document goes on,
are written as forms. -/
structure ReadsForms (fuel : Nat) : Prop where
  values : ∀ {document : List Char} {datum : Datum} {rest : List Char},
    value fuel document = (datum, some rest) →
    ∃ gap form, document = gap ++ form ++ rest ∧ Gap gap ∧ ValueForm form datum
  items : ∀ {document : List Char} {found : List Datum} {ending : Option Flaw} {rest : List Char},
    items fuel document = (found, ending, some rest) →
    ending = none ∧ ∃ gap body, document = gap ++ body ++ ']' :: rest ∧ Gap gap ∧
      ItemsForm body found
  members : ∀ {document : List Char} {found : List (Key × Datum)} {ending : Option Flaw}
    {rest : List Char}, members fuel document = (found, ending, some rest) →
    ending = none ∧ ∃ body, document = body ++ '\x7d' :: rest ∧ MembersForm body found

/-- A word read from its second character on. -/
private theorem of_keyword {datum read : Datum} {word document rest : List Char}
    (found : keyword datum word document = (read, some rest)) :
    document = word ++ rest ∧ read = datum := by
  rcases keyword_cases datum word document with ⟨others, rfl, same⟩ | ⟨fault, same⟩
  · rw [same] at found
    cases found
    exact ⟨rfl, rfl⟩
  · rw [same] at found
    cases found

section Steps

variable {fuel : Nat} (forms : ReadsForms fuel)
include forms

private theorem form_of_list {document : List Char} {datum : Datum} {rest : List Char}
    (read : (match skipFiller document with
      | [] => (.list [] (some (.plain .endInList)), none)
      | ']' :: after => (.list [] none, some after)
      | first =>
        let (found, ending, after) := items fuel first
        (.list found ending, after)) = (datum, some rest)) :
    ∃ form, '[' :: document = form ++ rest ∧ ValueForm form datum := by
  obtain ⟨gap, joined, blank⟩ := exists_gap document
  split at read
  next => cases read
  next after closed =>
    cases read
    refine ⟨_, ?_, .emptyList blank⟩
    rw [joined, closed]
    simp
  next =>
    cases reading : items fuel (skipFiller document) with
    | mk found result =>
      obtain ⟨ending, after⟩ := result
      rw [reading] at read
      cases read
      obtain ⟨rfl, more, body, first, blankMore, written⟩ := forms.items reading
      refine ⟨_, ?_, .list (blank.append blankMore) written⟩
      rw [joined, first]
      simp

private theorem form_of_record {document : List Char} {datum : Datum} {rest : List Char}
    (read : (match skipFiller document with
      | [] => (.record [] (some (.plain .endInRecord)), none)
      | '\x7d' :: after => (.record [] none, some after)
      | first =>
        let (found, ending, after) := members fuel first
        (.record found ending, after)) = (datum, some rest)) :
    ∃ form, '\x7b' :: document = form ++ rest ∧ ValueForm form datum := by
  obtain ⟨gap, joined, blank⟩ := exists_gap document
  split at read
  next => cases read
  next after closed =>
    cases read
    refine ⟨_, ?_, .emptyRecord blank⟩
    rw [joined, closed]
    simp
  next =>
    cases reading : members fuel (skipFiller document) with
    | mk found result =>
      obtain ⟨ending, after⟩ := result
      rw [reading] at read
      cases read
      obtain ⟨rfl, body, first, written⟩ := forms.members reading
      refine ⟨_, ?_, .record blank written⟩
      rw [joined, first]
      simp

private theorem form_of_value {document : List Char} {datum : Datum} {rest : List Char}
    (read : value (fuel + 1) document = (datum, some rest)) :
    ∃ gap form, document = gap ++ form ++ rest ∧ Gap gap ∧ ValueForm form datum := by
  obtain ⟨gap, shape, blank⟩ := exists_gap document
  suffices ∃ form, skipFiller document = form ++ rest ∧ ValueForm form datum by
    obtain ⟨form, first, written⟩ := this
    exact ⟨gap, form, by rw [shape, first, List.append_assoc], blank, written⟩
  unfold value at read
  split at read
  next => cases read
  next others found =>
    obtain ⟨rfl, rfl⟩ := of_keyword read
    exact ⟨_, found, .null⟩
  next others found =>
    obtain ⟨rfl, rfl⟩ := of_keyword read
    exact ⟨_, found, .yes⟩
  next others found =>
    obtain ⟨rfl, rfl⟩ := of_keyword read
    exact ⟨_, found, .no⟩
  next others found =>
    rw [found]
    split at read
    next content _ reading =>
      cases read
      obtain ⟨form, rfl, keyed⟩ := exists_keyForm reading
      cases keyed with
      | text written => exact ⟨'"' :: form ++ ['"'], by simp, .text written⟩
    next flaw _ reading =>
      cases read
      obtain ⟨form, rfl, keyed⟩ := exists_keyForm reading
      cases keyed with
      | flawed written => exact ⟨'"' :: form ++ ['"'], by simp, .flawed written⟩
  next others found =>
    rw [found]
    exact form_of_list forms read
  next others found =>
    rw [found]
    exact form_of_record forms read
  next character others _ _ _ _ _ _ found =>
    split at read
    next =>
      split at read
      next numeral left taken =>
        cases read
        obtain ⟨form, joined, written⟩ := exists_numberForm taken
        exact ⟨form, found.trans joined, .number written⟩
      next => cases read
    next => cases read

private theorem form_of_items {document : List Char} {found : List Datum} {ending : Option Flaw}
    {rest : List Char} (read : items (fuel + 1) document = (found, ending, some rest)) :
    ending = none ∧ ∃ gap body, document = gap ++ body ++ ']' :: rest ∧ Gap gap ∧
      ItemsForm body found := by
  unfold items at read
  split at read
  next => cases read
  next item left reading =>
    obtain ⟨gap, form, rfl, blank, written⟩ := forms.values reading
    obtain ⟨before, joined, blankBefore⟩ := exists_gap left
    split at read
    next => cases read
    next after closed =>
      cases read
      refine ⟨rfl, gap, _, ?_, blank, .last written blankBefore⟩
      rw [joined, closed]
      simp
    next others separated =>
      obtain ⟨behind, joinedBehind, blankBehind⟩ := exists_gap others
      split at read
      next => cases read
      next =>
        cases more : items fuel (skipFiller others) with
        | mk found result =>
          obtain ⟨ending, after⟩ := result
          rw [more] at read
          cases read
          obtain ⟨rfl, next, body, first, blankNext, others⟩ := forms.items more
          refine ⟨rfl, gap, _, ?_, blank,
            .more written blankBefore (blankBehind.append blankNext) others⟩
          rw [joined, separated, joinedBehind, first]
          simp
    next => cases read

private theorem form_of_members {document : List Char} {found : List (Key × Datum)}
    {ending : Option Flaw} {rest : List Char}
    (read : members (fuel + 1) document = (found, ending, some rest)) :
    ending = none ∧ ∃ body, document = body ++ '\x7d' :: rest ∧ MembersForm body found := by
  unfold members at read
  split at read
  next => cases read
  next _ document same =>
    cases same
    split at read
    next => cases read
    next key left keyed =>
      obtain ⟨keyForm, rfl, named⟩ := exists_keyForm keyed
      obtain ⟨before, joined, blankBefore⟩ := exists_gap left
      split at read
      next => cases read
      next others colon =>
        split at read
        next => cases read
        next datum left reading =>
          obtain ⟨after, form, rfl, blankAfter, written⟩ := forms.values reading
          have member := MemberForm.mk named blankBefore blankAfter written
          obtain ⟨behind, joinedBehind, blankBehind⟩ := exists_gap left
          split at read
          next => cases read
          next after closed =>
            cases read
            refine ⟨rfl, _, ?_, .last member blankBehind⟩
            rw [joined, colon, joinedBehind, closed]
            simp
          next others separated =>
            obtain ⟨next, joinedNext, blankNext⟩ := exists_gap others
            split at read
            next => cases read
            next => cases read
            next =>
              cases more : members fuel (skipFiller others) with
              | mk found result =>
                obtain ⟨ending, after⟩ := result
                rw [more] at read
                cases read
                obtain ⟨rfl, body, first, others⟩ := forms.members more
                refine ⟨rfl, _, ?_, .more member blankBehind blankNext others⟩
                rw [joined, colon, joinedBehind, separated, joinedNext, first]
                simp
          next => cases read
      next => cases read
  next => cases read

end Steps

/-- The induction is on the fuel, for values, items and members at once. -/
theorem readsForms (fuel : Nat) : ReadsForms fuel := by
  induction fuel with
  | zero => exact ⟨nofun, nofun, nofun⟩
  | succ fuel forms => exact ⟨form_of_value forms, form_of_items forms, form_of_members forms⟩

/-! ### Where the document breaks off -/

/-- Values, items and members that are read with some fuel cannot be passed over if the document
does not go on after them. -/
structure BreaksOff (fuel : Nat) : Prop where
  values : ∀ {document : List Char} {datum : Datum}, value fuel document = (datum, none) →
    ¬ datum.WellFormed
  items : ∀ {document : List Char} {found : List Datum} {ending : Option Flaw},
    items fuel document = (found, ending, none) →
    ¬ (Datum.list found ending).WellFormed
  members : ∀ {document : List Char} {found : List (Key × Datum)} {ending : Option Flaw},
    members fuel document = (found, ending, none) →
    ¬ (Datum.record found ending).WellFormed

private theorem broken_keyword {datum read : Datum} {word document : List Char}
    (found : keyword datum word document = (read, none)) : ¬ read.WellFormed := by
  rcases keyword_cases datum word document with ⟨others, rfl, same⟩ | ⟨fault, same⟩
  · rw [same] at found
    cases found
  · rw [same] at found
    cases found
    exact Option.some_ne_none _

section Steps

variable {fuel : Nat} (breaks : BreaksOff fuel)
include breaks

private theorem broken_value {document : List Char} {datum : Datum}
    (read : value (fuel + 1) document = (datum, none)) : ¬ datum.WellFormed := by
  unfold value at read
  split at read
  next =>
    cases read
    exact Option.some_ne_none _
  next => exact broken_keyword read
  next => exact broken_keyword read
  next => exact broken_keyword read
  next others _ =>
    split at read
    next reading =>
      cases read
      obtain ⟨_, same, _⟩ := key_of_text_none reading
      cases same
    next reading =>
      cases read
      obtain ⟨_, same, stops⟩ := key_of_text_none reading
      cases same
      exact stops
  next others _ =>
    split at read
    next =>
      cases read
      exact Option.some_ne_none _
    next => cases read
    next =>
      cases reading : items fuel (skipFiller others) with
      | mk found result =>
        obtain ⟨ending, after⟩ := result
        rw [reading] at read
        cases read
        exact breaks.items reading
  next others _ =>
    split at read
    next =>
      cases read
      exact Option.some_ne_none _
    next => cases read
    next =>
      cases reading : members fuel (skipFiller others) with
      | mk found result =>
        obtain ⟨ending, after⟩ := result
        rw [reading] at read
        cases read
        exact breaks.members reading
  next =>
    split at read
    next =>
      split at read
      next => cases read
      next failed =>
        cases read
        exact skipping_of_take failed
    next =>
      cases read
      exact Option.some_ne_none _

private theorem broken_items {document : List Char} {found : List Datum} {ending : Option Flaw}
    (read : items (fuel + 1) document = (found, ending, none)) :
    ¬ (Datum.list found ending).WellFormed := by
  rw [Datum.wellFormed_list_iff]
  unfold items at read
  split at read
  next item reading =>
    cases read
    exact fun sound => breaks.values reading (sound.1 item List.mem_cons_self)
  next item left reading =>
    split at read
    next =>
      cases read
      exact fun sound => Option.some_ne_none _ sound.2
    next => cases read
    next others _ =>
      split at read
      next =>
        cases read
        exact fun sound => Option.some_ne_none _ sound.2
      next =>
        cases more : items fuel (skipFiller others) with
        | mk found result =>
          obtain ⟨ending, after⟩ := result
          rw [more] at read
          cases read
          have later := breaks.items more
          rw [Datum.wellFormed_list_iff] at later
          exact fun sound => later ⟨fun other member =>
            sound.1 other (List.mem_cons_of_mem item member), sound.2⟩
    next =>
      cases read
      exact fun sound => Option.some_ne_none _ sound.2

private theorem broken_members {document : List Char} {found : List (Key × Datum)}
    {ending : Option Flaw} (read : members (fuel + 1) document = (found, ending, none)) :
    ¬ (Datum.record found ending).WellFormed := by
  rw [Datum.wellFormed_record_iff]
  unfold members at read
  split at read
  next =>
    cases read
    exact fun sound => Option.some_ne_none _ sound.2
  next _ document same =>
    cases same
    split at read
    next key keyed =>
      cases read
      obtain ⟨flaw, rfl, stops⟩ := key_of_text_none keyed
      exact fun sound => stops ((sound.1 _ List.mem_cons_self).1 flaw rfl)
    next key left keyed =>
      split at read
      next =>
        cases read
        exact fun sound => Option.some_ne_none _ (sound.1 _ List.mem_cons_self).2
      next others _ =>
        split at read
        next datum reading =>
          cases read
          exact fun sound => breaks.values reading (sound.1 _ List.mem_cons_self).2
        next datum left _ =>
          split at read
          next =>
            cases read
            exact fun sound => Option.some_ne_none _ sound.2
          next => cases read
          next others _ =>
            split at read
            next =>
              cases read
              exact fun sound => Option.some_ne_none _ sound.2
            next =>
              cases read
              exact fun sound => Option.some_ne_none _ sound.2
            next =>
              cases more : members fuel (skipFiller others) with
              | mk found result =>
                obtain ⟨ending, after⟩ := result
                rw [more] at read
                cases read
                have later := breaks.members more
                rw [Datum.wellFormed_record_iff] at later
                exact fun sound => later ⟨fun other member =>
                  sound.1 other (List.mem_cons_of_mem _ member), sound.2⟩
          next =>
            cases read
            exact fun sound => Option.some_ne_none _ sound.2
      next =>
        cases read
        exact fun sound => Option.some_ne_none _ (sound.1 _ List.mem_cons_self).2
  next =>
    cases read
    exact fun sound => Option.some_ne_none _ sound.2

end Steps

theorem breaksOff (fuel : Nat) : BreaksOff fuel := by
  induction fuel with
  | zero =>
    refine ⟨?_, ?_, ?_⟩
    · rintro _ _ ⟨⟩
      exact Option.some_ne_none _
    · rintro _ _ _ ⟨⟩
      exact Option.some_ne_none _
    · rintro _ _ _ ⟨⟩
      exact Option.some_ne_none _
  | succ fuel breaks => exact ⟨broken_value breaks, broken_items breaks, broken_members breaks⟩

/-! ## Whole documents -/

theorem Numeral.wellFormed_datum (numeral : Numeral) : numeral.datum.WellFormed := by
  unfold Numeral.datum
  dsimp only
  cases numeral.double? <;> split <;> split <;> rfl

mutual

/-- A reader can pass over every form. -/
theorem ValueForm.wellFormed {form : List Char} {datum : Datum} (written : ValueForm form datum) :
    datum.WellFormed := by
  match written with
  | .null => rfl
  | .yes => rfl
  | .no => rfl
  | @ValueForm.number _ numeral _ => exact numeral.wellFormed_datum
  | .text _ => rfl
  | .flawed _ => rfl
  | .emptyList _ => rfl
  | .list _ body => exact Datum.wellFormed_list_iff.2 ⟨ItemsForm.wellFormed body, rfl⟩
  | .emptyRecord _ => rfl
  | .record _ body => exact Datum.wellFormed_record_iff.2 ⟨MembersForm.wellFormed body, rfl⟩

theorem ItemsForm.wellFormed {body : List Char} {items : List Datum}
    (written : ItemsForm body items) : ∀ item ∈ items, item.WellFormed := by
  match written with
  | .last form _ => exact List.forall_mem_singleton.2 (ValueForm.wellFormed form)
  | .more form _ _ others =>
    exact List.forall_mem_cons.2 ⟨ValueForm.wellFormed form, ItemsForm.wellFormed others⟩

theorem MembersForm.wellFormed {body : List Char} {members : List (Key × Datum)}
    (written : MembersForm body members) :
    ∀ entry ∈ members, Key.WellFormed entry.1 ∧ entry.2.WellFormed := by
  match written with
  | .last form _ => exact List.forall_mem_singleton.2 (MemberForm.wellFormed form)
  | .more form _ _ others =>
    exact List.forall_mem_cons.2 ⟨MemberForm.wellFormed form, MembersForm.wellFormed others⟩

theorem MemberForm.wellFormed {form : List Char} {key : Key} {datum : Datum}
    (written : MemberForm form key datum) : Key.WellFormed key ∧ datum.WellFormed := by
  match written with
  | .mk keyed _ _ form =>
    refine ⟨?_, ValueForm.wellFormed form⟩
    rintro flaw rfl
    cases keyed
    rfl

end

/-- A document that is a form of a datum with white space around it. -/
inductive DocumentForm : String → Datum → Prop where
  | mk {before form after : List Char} {datum : Datum} (blankBefore : Gap before)
      (written : ValueForm form datum) (blankAfter : Gap after) :
      DocumentForm (String.ofList (before ++ form ++ after)) datum

/-- A document is a form of a datum just when it reads to its end as the datum and the datum is well
formed. -/
theorem documentForm_iff {document : String} {datum : Datum} :
    DocumentForm document datum ↔ Json.read document = (datum, false) ∧ datum.WellFormed := by
  constructor
  · intro assumed
    cases assumed with
    | mk blankBefore written blankAfter =>
      exact ⟨written.read blankBefore blankAfter, written.wellFormed⟩
  · rintro ⟨reads, wellFormed⟩
    unfold Json.read at reads
    dsimp only at reads
    split at reads
    next found rest reading =>
      obtain ⟨rfl, ended⟩ := Prod.mk.inj reads
      have blankAfter : skipFiller rest = [] := by simpa using ended
      obtain ⟨before, form, whole, blankBefore, written⟩ := (readsForms _).values reading
      obtain ⟨after, joined, blank⟩ := exists_gap rest
      rw [blankAfter, List.append_nil] at joined
      subst joined
      rw [← String.ofList_toList (s := document), whole]
      exact .mk blankBefore written blank
    next found reading =>
      cases reads
      exact absurd wellFormed ((breaksOff _).values reading)

end GuildRoster.Json
