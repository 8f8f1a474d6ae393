import GuildRoster.Proofs.ColorTexts
import GuildRoster.Proofs.TrimmedTexts
import Mathlib.Data.List.Induction

/-!
# Grammar of colours

Which texts denote a colour, and which colour: a name, six or three hexadecimal digits behind a
number sign, or three decimal numbers between commas. A number may have a plus sign in front of it,
also where two hexadecimal digits are expected.
-/

set_option autoImplicit false

namespace GuildRoster

/-! ## Texts of ASCII characters -/

namespace Text

theorem byteLength_of_ascii {text : List Char} (ascii : ∀ character ∈ text, character.toNat < 128) :
    byteLength text = text.length := by
  induction text with
  | nil => rfl
  | cons character text ih =>
    rw [List.forall_mem_cons] at ascii
    have size : character.utf8Size = 1 := if_pos (Nat.le_of_lt_succ ascii.1)
    rw [byteLength, size, ih ascii.2, List.length_cons, Nat.add_comm]

theorem lowercase_of_ascii {text : List Char} (ascii : ∀ character ∈ text, character.toNat < 128) :
    lowercase text = text.map Char.toLower := by
  induction text with
  | nil => rfl
  | cons character text ih =>
    rw [List.forall_mem_cons] at ascii
    have alone : lowercaseOf character = [character.toLower] := if_pos ascii.1
    rw [lowercase, List.flatMap_cons, alone, ← lowercase, ih ascii.2]
    rfl

end Text

namespace Color

/-! ## Numbers -/

/-- A digit of a number system, whatever its capitals. -/
def IsDigit (base : Nat) (character : Char) (value : Nat) : Prop :=
  value < base ∧ character.toLower = Nat.digitChar value

/-- A text of digits and the number that it denotes. -/
inductive Figure (base : Nat) : List Char → Nat → Prop where
  | digit {character : Char} {value : Nat} :
      IsDigit base character value → Figure base [character] value
  | append {text : List Char} {character : Char} {number value : Nat} :
      Figure base text number → IsDigit base character value →
      Figure base (text ++ [character]) (number * base + value)

/-- A text and the strength of a component that it denotes: a number that fits a byte, behind a plus
sign if signs are allowed. -/
inductive Strength (signs : Bool) (base : Nat) : List Char → UInt8 → Prop where
  | plain {text : List Char} {number : Nat} :
      Figure base text number → number < 256 → Strength signs base text (UInt8.ofNat number)
  | plus {text : List Char} {number : Nat} :
      signs = true → Figure base text number → number < 256 →
      Strength signs base ('+' :: text) (UInt8.ofNat number)

theorem toNat_toLower (character : Char) :
    character.toLower.toNat =
      if 65 ≤ character.toNat ∧ character.toNat ≤ 90 then character.toNat + 32
      else character.toNat := by
  unfold Char.toLower
  split
  next capital =>
    have range : 65 ≤ character.toNat ∧ character.toNat ≤ 90 := capital
    have size : character.val.toNat ≤ 90 := range.2
    rw [if_pos range]
    change (character.val + 32).toNat = character.val.toNat + 32
    rw [UInt32.toNat_add]
    change (character.val.toNat + 32) % 4294967296 = character.val.toNat + 32
    omega
  next other =>
    have range : ¬ (65 ≤ character.toNat ∧ character.toNat ≤ 90) := other
    rw [if_neg range]

theorem toLower_eq_plus_iff {character : Char} : character.toLower = '+' ↔ character = '+' := by
  have plus : '+'.toNat = 43 := rfl
  rw [← Char.toNat_inj, ← Char.toNat_inj, toNat_toLower, plus]
  split <;> omega

theorem toNat_digitChar {value : Nat} (small : value < 16) :
    (Nat.digitChar value).toNat = if value < 10 then 48 + value else 87 + value := by
  revert small value
  decide

theorem digit?_eq_some_iff {base : Nat} (small : base ≤ 16) {character : Char} {value : Nat} :
    Text.digit? base character = some value ↔ IsDigit base character value := by
  by_cases fits : value < base
  · rw [IsDigit, ← Char.toNat_inj, toNat_toLower, toNat_digitChar (by omega)]
    have zero : '0' ≤ character ↔ 48 ≤ character.toNat := Iff.rfl
    have nine : character ≤ '9' ↔ character.toNat ≤ 57 := Iff.rfl
    have smallA : 'a' ≤ character ↔ 97 ≤ character.toNat := Iff.rfl
    have smallF : character ≤ 'f' ↔ character.toNat ≤ 102 := Iff.rfl
    have bigA : 'A' ≤ character ↔ 65 ≤ character.toNat := Iff.rfl
    have bigF : character ≤ 'F' ↔ character.toNat ≤ 70 := Iff.rfl
    have codes : '0'.toNat = 48 ∧ 'a'.toNat = 97 ∧ 'A'.toNat = 65 := by decide
    simp only [Text.digit?, zero, nine, smallA, smallF, bigA, bigF, codes]
    grind
  · exact iff_of_false (fun found => fits (Text.lt_of_digit? found)) fun digit => fits digit.1

theorem Figure.ne_nil {base : Nat} {text : List Char} {number : Nat}
    (figure : Figure base text number) : text ≠ [] := by
  cases figure with
  | digit => simp
  | append => simp

theorem numberOf?_eq_some_iff {base : Nat} (small : base ≤ 16) {text : List Char}
    (nonempty : text ≠ []) {number : Nat} :
    Text.numberOf? base 0 text = some number ↔ Figure base text number := by
  constructor
  · intro found
    induction text using List.reverseRecOn generalizing number with
    | nil => exact absurd rfl nonempty
    | append_singleton text character ih =>
      rw [Text.numberOf?_append] at found
      obtain ⟨front, read, found⟩ := Option.bind_eq_some_iff.1 found
      obtain ⟨value, digit, found⟩ := Option.bind_eq_some_iff.1 found
      cases found
      have digit := (digit?_eq_some_iff small).1 digit
      by_cases empty : text = []
      · subst empty
        cases read
        rw [Nat.zero_mul, Nat.zero_add]
        exact .digit digit
      · exact .append (ih empty read) digit
  · intro figure
    induction figure with
    | digit digit => simp [Text.numberOf?, (digit?_eq_some_iff small).2 digit]
    | append figure digit ih =>
      rw [Text.numberOf?_append, ih figure.ne_nil, (digit?_eq_some_iff small).2 digit]
      rfl

theorem Figure.isDigit {base : Nat} {text : List Char} {number : Nat}
    (figure : Figure base text number) {character : Char} (member : character ∈ text) :
    ∃ value, IsDigit base character value := by
  induction figure with
  | digit digit =>
    rw [List.mem_singleton] at member
    exact ⟨_, member ▸ digit⟩
  | append _ digit ih =>
    rcases List.mem_append.1 member with front | last
    · exact ih front
    · rw [List.mem_singleton] at last
      exact ⟨_, last ▸ digit⟩

theorem Figure.not_mem {base : Nat} (small : base ≤ 16) {text : List Char} {number : Nat}
    (figure : Figure base text number) {character : Char}
    (foreign : Text.digit? 16 character = none) : character ∉ text := by
  intro member
  obtain ⟨value, fits, same⟩ := figure.isDigit member
  have digit : Text.digit? 16 character = some value :=
    (digit?_eq_some_iff (Nat.le_refl 16)).2 ⟨by omega, same⟩
  rw [foreign] at digit
  cases digit

private theorem readFigure_eq_some_iff {base : Nat} (small : base ≤ 16) {text : List Char}
    {strength : UInt8} :
    (if text.isEmpty then none
      else do
        let number ← Text.numberOf? base 0 text
        if number < 256 then some (UInt8.ofNat number) else none) = some strength ↔
      ∃ number, Figure base text number ∧ number < 256 ∧ UInt8.ofNat number = strength := by
  cases text with
  | nil =>
    simp only [List.isEmpty_nil, if_true, reduceCtorEq, false_iff]
    rintro ⟨number, figure, _⟩
    exact figure.ne_nil rfl
  | cons first rest =>
    have nonempty : first :: rest ≠ [] := List.cons_ne_nil first rest
    simp only [List.isEmpty_cons, Bool.false_eq_true, if_false, Option.bind_eq_bind,
      Option.bind_eq_some_iff, numberOf?_eq_some_iff small nonempty, Option.ite_none_right_eq_some,
      Option.some.injEq]

theorem component?_eq_some_iff {base : Nat} (small : base ≤ 16) {text : List Char}
    {strength : UInt8} :
    component? base text = some strength ↔ Strength true base text strength := by
  unfold component?
  dsimp only
  rw [readFigure_eq_some_iff small]
  constructor
  · rintro ⟨number, figure, fits, rfl⟩
    split at figure
    next sign =>
      obtain ⟨rest, rfl⟩ := List.head?_eq_some_iff.1 sign
      exact .plus rfl figure fits
    next => exact .plain figure fits
  · intro denoted
    cases denoted with
    | plain figure fits =>
      have unsigned : text.head? ≠ some '+' := fun sign =>
        figure.not_mem small (by decide) (List.mem_of_head? sign)
      exact ⟨_, by rwa [if_neg unsigned], fits, rfl⟩
    | plus _ figure fits => exact ⟨_, figure, fits, rfl⟩

/-! ## Three components -/

/-- Three texts and the colour with the strengths that they denote. -/
def Strengths (signs : Bool) (base : Nat) (first second third : List Char) (color : Color) : Prop :=
  ∃ redPart greenPart bluePart, Strength signs base first redPart ∧
    Strength signs base second greenPart ∧ Strength signs base third bluePart ∧
    color = .rgb ⟨redPart, greenPart, bluePart⟩

/-- The colour of three components, if each of them can be read. -/
def ofComponents? (base : Nat) (first second third : List Char) : Option Color := do
  return rgb ⟨← component? base first, ← component? base second, ← component? base third⟩

theorem ofComponents?_eq_some_iff {base : Nat} (small : base ≤ 16)
    {first second third : List Char} {color : Color} :
    ofComponents? base first second third = some color ↔
      Strengths true base first second third color := by
  simp only [ofComponents?, Strengths, ← component?_eq_some_iff small]
  constructor
  · intro found
    obtain ⟨redPart, red, found⟩ := Option.bind_eq_some_iff.1 found
    obtain ⟨greenPart, green, found⟩ := Option.bind_eq_some_iff.1 found
    obtain ⟨bluePart, blue, found⟩ := Option.bind_eq_some_iff.1 found
    cases found
    exact ⟨redPart, greenPart, bluePart, red, green, blue, rfl⟩
  · rintro ⟨redPart, greenPart, bluePart, red, green, blue, rfl⟩
    rw [red, green, blue]
    rfl

/-- The digits that a stretch of a hexadecimal text stands for: a single digit stands for itself
twice. -/
def hexDigits (width : Nat) (stretch : List Char) : List Char :=
  if width = 1 then stretch ++ stretch else stretch

theorem ofHex_append {width : Nat} {first second third : List Char}
    (firstSize : Text.byteLength first = width) (secondSize : Text.byteLength second = width)
    (thirdSize : Text.byteLength third = width) :
    ofHex width (first ++ (second ++ third)) = .ok (ofComponents? 16 (hexDigits width first)
      (hexDigits width second) (hexDigits width third)) := by
  have cut : ∀ front back, Text.byteLength front = width →
      cutBytes width (front ++ back) = .ok (front, back) :=
    fun front back size => cutBytes_eq_ok_iff.2 ⟨rfl, size⟩
  have last := cut third [] thirdSize
  rw [List.append_nil] at last
  have spelled : ∀ stretch, (if width = 1 then stretch ++ stretch else stretch)
      = hexDigits width stretch := fun _ => rfl
  have goOn : ∀ {α β : Type} (value : α) (next : α → Except Fault β),
      (Except.ok value >>= next) = next value := fun _ _ => rfl
  simp only [ofHex, ofComponents?, spelled, cut _ _ firstSize, cut _ _ secondSize, last, goOn]
  cases component? 16 (hexDigits width first) with
  | none => rfl
  | some redPart =>
    cases component? 16 (hexDigits width second) with
    | none => rfl
    | some greenPart =>
      cases component? 16 (hexDigits width third) with
      | none => rfl
      | some bluePart => rfl

/-! ## Whole texts -/

/-- A text without capitals and without blanks around it, and the colour that it denotes. With
`signs` a plus sign may stand in front of a number. -/
inductive Spells (signs : Bool) : List Char → Color → Prop where
  | name {name : String} {color : Color} :
      (name, color) ∈ names → Spells signs name.toList color
  | six {first second third fourth fifth sixth : Char} {color : Color} :
      Strengths signs 16 [first, second] [third, fourth] [fifth, sixth] color →
      Spells signs ['#', first, second, third, fourth, fifth, sixth] color
  | three {first second third : Char} {color : Color} :
      Strengths signs 16 [first, first] [second, second] [third, third] color →
      Spells signs ['#', first, second, third] color
  | triple {first second third : List Char} {color : Color} :
      Strengths signs 10 (Text.trim first) (Text.trim second) (Text.trim third) color →
      Spells signs (first ++ ',' :: (second ++ ',' :: third)) color

theorem named?_eq_some_iff {text : List Char} {color : Color} :
    named? text = some color ↔ (String.ofList text, color) ∈ names := by
  constructor
  · intro found
    obtain ⟨before, after, shape, _⟩ := List.lookup_eq_some_iff.1 found
    have listed : names = before ++ (String.ofList text, color) :: after := shape
    rw [listed]
    simp
  · intro listed
    have known : ∀ entry ∈ names, named? entry.1.toList = some entry.2 := by decide
    have found := known _ listed
    rwa [String.toList_ofList] at found

theorem Strength.not_mem {signs : Bool} {base : Nat} (small : base ≤ 16) {text : List Char}
    {strength : UInt8} (denoted : Strength signs base text strength) {character : Char}
    (foreign : Text.digit? 16 character = none) (unsigned : character ≠ '+') :
    character ∉ text := by
  cases denoted with
  | plain figure _ => exact figure.not_mem small foreign
  | plus _ figure _ =>
    rw [List.mem_cons, not_or]
    exact ⟨unsigned, figure.not_mem small foreign⟩

theorem ofTriple?_eq_some_iff {text : List Char} {color : Color} :
    ofTriple? text = some color ↔ ∃ first second third,
      text = first ++ ',' :: (second ++ ',' :: third) ∧
      Strengths true 10 (Text.trim first) (Text.trim second) (Text.trim third) color := by
  constructor
  · intro found
    unfold ofTriple? at found
    split at found
    next first second third pieces =>
      refine ⟨first, second, third, ?_, (ofComponents?_eq_some_iff (by decide)).1 found⟩
      rw [← Text.intercalate_splitAt ',' text, pieces]
      simp [List.intercalate_cons_cons]
    next => cases found
  · rintro ⟨first, second, third, rfl, denoted⟩
    -- A comma would be left of a text when its blanks are cut off, and no number has one.
    have clean : ∀ {part : List Char} {strength : UInt8},
        Strength true 10 (Text.trim part) strength → ',' ∉ part := by
      intro part strength denoted member
      exact denoted.not_mem (by decide) (by decide) (by decide) (Text.mem_trim member (by decide))
    obtain ⟨redPart, greenPart, bluePart, red, green, blue, rfl⟩ := denoted
    have pieces : Text.splitAt ',' (first ++ ',' :: (second ++ ',' :: third))
        = [first, second, third] := by
      rw [Text.splitAt_append, Text.splitAt_append, Text.splitAt_of_not_mem (clean red),
        Text.splitAt_of_not_mem (clean green), Text.splitAt_of_not_mem (clean blue)]
      rfl
    simp only [ofTriple?, pieces]
    exact (ofComponents?_eq_some_iff (by decide)).2 ⟨_, _, _, red, green, blue, rfl⟩

/-- No number has a number sign, so three numbers do not start with one. -/
theorem ofTriple?_hex (hex : List Char) : ofTriple? ('#' :: hex) = none := by
  rw [Option.eq_none_iff_forall_ne_some]
  intro color found
  obtain ⟨first, second, third, shape, _, _, _, red, _⟩ := ofTriple?_eq_some_iff.1 found
  have member : '#' ∈ first := by
    cases first with
    | nil => simp at shape
    | cons character first =>
      rw [List.cons_append, List.cons.injEq] at shape
      exact shape.1 ▸ List.mem_cons_self
  exact red.not_mem (by decide) (by decide) (by decide) (Text.mem_trim member (by decide))

/-- The colour of a text of small ASCII characters without blanks around it. -/
def ofSmall? (text : List Char) : Option Color :=
  match named? text, text with
  | some color, _ => some color
  | none, ['#', first, second, third, fourth, fifth, sixth] =>
    ofComponents? 16 [first, second] [third, fourth] [fifth, sixth]
  | none, ['#', first, second, third] =>
    ofComponents? 16 [first, first] [second, second] [third, third]
  | none, _ => ofTriple? text

theorem ofSmall?_eq_some_iff {text : List Char} {color : Color} :
    ofSmall? text = some color ↔ Spells true text color := by
  constructor
  · intro found
    unfold ofSmall? at found
    split at found
    next named =>
      have spelled : Spells true _ color := .name (named?_eq_some_iff.1 (named.trans found))
      rwa [String.toList_ofList] at spelled
    next => exact .six ((ofComponents?_eq_some_iff (by decide)).1 found)
    next => exact .three ((ofComponents?_eq_some_iff (by decide)).1 found)
    next =>
      obtain ⟨first, second, third, rfl, denoted⟩ := ofTriple?_eq_some_iff.1 found
      exact .triple denoted
  · intro spelled
    unfold ofSmall?
    cases spelled with
    | @name word _ listed =>
      have found : named? word.toList = some color :=
        named?_eq_some_iff.2 (by rwa [String.ofList_toList])
      rw [found]
    | six denoted =>
      rw [named?_hex]
      exact (ofComponents?_eq_some_iff (by decide)).2 denoted
    | three denoted =>
      rw [named?_hex]
      exact (ofComponents?_eq_some_iff (by decide)).2 denoted
    | @triple first second third _ denoted =>
      have found := ofTriple?_eq_some_iff.2 ⟨first, second, third, rfl, denoted⟩
      have nameless : named? (first ++ ',' :: (second ++ ',' :: third)) = none :=
        named?_eq_none (List.mem_append_right first List.mem_cons_self) (by decide)
      rw [nameless]
      split
      next named => cases named
      next shape =>
        rw [shape, ofTriple?_hex] at found
        cases found
      next shape =>
        rw [shape, ofTriple?_hex] at found
        cases found
      next => exact found

theorem parse_hex_of_ascii {text : String} {hex : List Char}
    (sign : Text.lowercase (Text.trim text.toList) = '#' :: hex)
    (ascii : ∀ character ∈ hex, character.toNat < 128) :
    parse text = .ok (ofSmall? ('#' :: hex)) := by
  have bytes : ∀ {stretch : List Char}, stretch ⊆ hex →
      Text.byteLength stretch = stretch.length := fun inside =>
    Text.byteLength_of_ascii fun character member => ascii character (inside member)
  rw [parse_hex sign, bytes (List.Subset.refl hex)]
  unfold ofSmall?
  rw [named?_hex]
  split
  next six =>
    match hex, six with
    | [first, second, third, fourth, fifth, sixth], _ =>
      have read : ofHex 2 ([first, second] ++ ([third, fourth] ++ [fifth, sixth])) = .ok
          (ofComponents? 16 [first, second] [third, fourth] [fifth, sixth]) :=
        ofHex_append (bytes (by simp)) (bytes (by simp)) (bytes (by simp))
      exact read
  next notSix =>
    split
    next three =>
      match hex, three with
      | [first, second, third], _ =>
        have read : ofHex 1 ([first] ++ ([second] ++ [third])) = .ok
            (ofComponents? 16 [first, first] [second, second] [third, third]) :=
          ofHex_append (bytes (by simp)) (bytes (by simp)) (bytes (by simp))
        exact read
    next notThree =>
      split
      next named => cases named
      next shape =>
        cases shape
        exact absurd rfl notSix
      next shape =>
        cases shape
        exact absurd rfl notThree
      next => rfl

theorem parse_eq_ofSmall? {text : String} {small : List Char}
    (same : Text.lowercase (Text.trim text.toList) = small)
    (ascii : ∀ character ∈ small, character.toNat < 128) :
    parse text = .ok (ofSmall? small) := by
  by_cases sign : ∃ hex, small = '#' :: hex
  · obtain ⟨hex, rfl⟩ := sign
    exact parse_hex_of_ascii same (List.forall_mem_cons.1 ascii).2
  · have plain : ∀ hex, small ≠ '#' :: hex := fun hex shape => sign ⟨hex, shape⟩
    unfold parse
    rw [same]
    dsimp only
    split
    next color named =>
      unfold ofSmall?
      rw [named]
    next nameless =>
      unfold ofSmall?
      rw [nameless]
      split
      next hex => exact absurd rfl (plain hex)
      next =>
        split
        next color named _ => cases named
        next => exact absurd rfl (plain _)
        next => exact absurd rfl (plain _)
        next => rfl

/-! ## Signs -/

section Signs

variable {base : Nat} {first second third text : List Char} {strength : UInt8} {color : Color}

theorem Strength.unsigned (denoted : Strength true base text strength) (plain : '+' ∉ text) :
    Strength false base text strength := by
  cases denoted with
  | plain figure fits => exact .plain figure fits
  | plus => exact absurd List.mem_cons_self plain

theorem Strength.signed (denoted : Strength false base text strength) :
    Strength true base text strength := by
  cases denoted with
  | plain figure fits => exact .plain figure fits
  | plus allowed => cases allowed

theorem Strengths.unsigned (denoted : Strengths true base first second third color)
    (firstPlain : '+' ∉ first) (secondPlain : '+' ∉ second) (thirdPlain : '+' ∉ third) :
    Strengths false base first second third color := by
  obtain ⟨redPart, greenPart, bluePart, red, green, blue, same⟩ := denoted
  exact ⟨redPart, greenPart, bluePart, red.unsigned firstPlain, green.unsigned secondPlain,
    blue.unsigned thirdPlain, same⟩

theorem Strengths.signed (denoted : Strengths false base first second third color) :
    Strengths true base first second third color := by
  obtain ⟨redPart, greenPart, bluePart, red, green, blue, same⟩ := denoted
  exact ⟨redPart, greenPart, bluePart, red.signed, green.signed, blue.signed, same⟩

/-- Where no number has a sign it does not matter whether signs are allowed. -/
theorem spells_unsigned_iff (plain : '+' ∉ text) :
    Spells true text color ↔ Spells false text color := by
  constructor
  · intro spelled
    have part : ∀ {stretch : List Char}, stretch ⊆ text → '+' ∉ stretch :=
      fun inside member => plain (inside member)
    cases spelled with
    | name listed => exact .name listed
    | six denoted =>
      exact .six (denoted.unsigned (part (by simp)) (part (by simp)) (part (by simp)))
    | three denoted =>
      exact .three (denoted.unsigned (part (by simp)) (part (by simp)) (part (by simp)))
    | @triple first second third _ denoted =>
      have trimmed : ∀ {stretch : List Char},
          stretch ⊆ first ++ ',' :: (second ++ ',' :: third) → '+' ∉ Text.trim stretch :=
        fun inside member => part inside (Text.mem_of_mem_trim member)
      exact .triple (denoted.unsigned (trimmed fun _ member => by simp [member])
        (trimmed fun _ member => by simp [member]) (trimmed fun _ member => by simp [member]))
  · intro spelled
    cases spelled with
    | name listed => exact .name listed
    | six denoted => exact .six denoted.signed
    | three denoted => exact .three denoted.signed
    | triple denoted => exact .triple denoted.signed

end Signs

/-- A text of ASCII characters denotes a colour just when it has one of the spellings, whatever its
capitals and the blanks around it. Its numbers consist of digits alone if it has no plus sign. -/
theorem parse_of_ascii (text : String)
    (ascii : ∀ character ∈ text.toList, character.toNat < 128) :
    ∃ answer, parse text = .ok answer ∧
      (∀ color, answer = some color ↔
        Spells true ((Text.trim text.toList).map Char.toLower) color) ∧
      ('+' ∉ text.toList → ∀ color, answer = some color ↔
        Spells false ((Text.trim text.toList).map Char.toLower) color) := by
  have inside : ∀ character ∈ Text.trim text.toList, character.toNat < 128 :=
    fun character member => ascii character (Text.mem_of_mem_trim member)
  have small : ∀ character ∈ (Text.trim text.toList).map Char.toLower, character.toNat < 128 := by
    intro character member
    obtain ⟨capital, listed, rfl⟩ := List.mem_map.1 member
    have code := inside capital listed
    rw [toNat_toLower]
    split <;> omega
  refine ⟨_, parse_eq_ofSmall? (Text.lowercase_of_ascii inside) small,
    fun color => ofSmall?_eq_some_iff, ?_⟩
  intro unsigned color
  rw [ofSmall?_eq_some_iff, spells_unsigned_iff]
  intro member
  obtain ⟨character, listed, plus⟩ := List.mem_map.1 member
  rw [toLower_eq_plus_iff] at plus
  exact unsigned (plus ▸ Text.mem_of_mem_trim listed)

/-- A capital digit and blanks around the text do not matter. -/
theorem parse_of_ascii_spaced : parse " #F60\n" = .ok (some (.rgb ⟨255, 102, 0⟩)) := by
  obtain ⟨answer, read, spelled, _⟩ := parse_of_ascii " #F60\n" (by simp)
  have small : (Text.trim " #F60\n".toList).map Char.toLower = ['#', 'f', '6', '0'] := by decide
  have denoted : Spells true ['#', 'f', '6', '0'] (.rgb ⟨255, 102, 0⟩) :=
    .three ((ofComponents?_eq_some_iff (by decide)).1 (by decide))
  rw [read, (spelled _).2 (small ▸ denoted)]

/-- Plus signs in front of single hexadecimal digits take the places of digits. -/
theorem signs_denote_color :
    parse "#+1+2+3" = .ok (some (.rgb ⟨1, 2, 3⟩)) ∧
    ¬ ∃ color, Spells false ((Text.trim "#+1+2+3".toList).map Char.toLower) color := by
  have small : (Text.trim "#+1+2+3".toList).map Char.toLower
      = ['#', '+', '1', '+', '2', '+', '3'] := by decide
  constructor
  · have read : parse "#+1+2+3" = .ok (ofSmall? ['#', '+', '1', '+', '2', '+', '3']) :=
      parse_eq_ofSmall? (by decide) (by simp)
    rw [read]
    decide
  · rintro ⟨color, spelled⟩
    rw [small] at spelled
    generalize shape : ['#', '+', '1', '+', '2', '+', '3'] = text at spelled
    cases spelled with
    | @name word _ listed =>
      have found : named? word.toList = some color :=
        named?_eq_some_iff.2 (by rwa [String.ofList_toList])
      rw [← shape, named?_hex] at found
      cases found
    | six denoted =>
      cases shape
      obtain ⟨_, _, _, red, _⟩ := denoted
      cases red with
      | plain figure _ => exact figure.not_mem (by decide) (by decide) List.mem_cons_self
      | plus allowed => cases allowed
    | three => cases shape
    | triple =>
      have comma : ',' ∈ ['#', '+', '1', '+', '2', '+', '3'] := by simp [shape]
      revert comma
      decide

end Color

end GuildRoster
