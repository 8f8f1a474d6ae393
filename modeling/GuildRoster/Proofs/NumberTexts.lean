import GuildRoster.Figures
import GuildRoster.Proofs.Json.WriterForms

/-!
# Texts of numbers

What the texts of whole numbers and of doubles with fixed places are made of.
-/

set_option autoImplicit false

namespace GuildRoster

/-! ## Whole numbers -/

theorem Figures.toList_plain (number : Int64) :
    (Figures.plain number).toList
      = (if decide (number.toInt < 0) then ['-'] else [])
        ++ Nat.toDigits 10 number.toInt.natAbs := Json.toList_toString_integer number.toInt

/-- The whole number that a text denotes: decimal digits, behind a minus sign if it is negative. -/
def Figures.read? (text : List Char) : Option Int :=
  let negative := text.head? == some '-'
  let digits := if negative then text.tail else text
  if digits ≠ [] ∧ digits.all Char.isDigit = true then
    let magnitude : Int := (Nat.ofDigitChars 10 digits 0 : Nat)
    some (if negative then -magnitude else magnitude)
  else none

@[simp] theorem Figures.read?_nil : Figures.read? [] = none := rfl

theorem isDigit_of_mem_decimalDigits {number : Nat} {character : Char}
    (member : character ∈ decimalDigits number) : character.isDigit = true :=
  Nat.isDigit_of_mem_toDigits (by decide) (by decide) member

theorem decimalDigits_ne_nil (number : Nat) : decimalDigits number ≠ [] := Nat.toDigits_ne_nil

theorem head?_decimalDigits_ne_minus (number : Nat) :
    (decimalDigits number).head? ≠ some '-' := by
  intro first
  exact absurd (isDigit_of_mem_decimalDigits (List.mem_of_head? first)) (by decide)

theorem Figures.read?_decimalDigits (number : Nat) :
    Figures.read? (decimalDigits number) = some (number : Int) := by
  have value : Nat.ofDigitChars 10 (decimalDigits number) 0 = number :=
    Nat.ofDigitChars_ten_toDigits
  have all : (decimalDigits number).all Char.isDigit = true :=
    List.all_eq_true.2 fun _ => isDigit_of_mem_decimalDigits
  simp [read?, head?_decimalDigits_ne_minus, decimalDigits_ne_nil, all, value]

theorem Figures.read?_minus_decimalDigits (number : Nat) :
    Figures.read? ('-' :: decimalDigits number) = some (-(number : Int)) := by
  have value : Nat.ofDigitChars 10 (decimalDigits number) 0 = number :=
    Nat.ofDigitChars_ten_toDigits
  have all : (decimalDigits number).all Char.isDigit = true :=
    List.all_eq_true.2 fun _ => isDigit_of_mem_decimalDigits
  simp [read?, decimalDigits_ne_nil, all, value]

/-- A number reads back from its text. -/
theorem Figures.read?_plain (number : Int64) :
    Figures.read? (Figures.plain number).toList = some number.toInt := by
  rw [Figures.toList_plain, ← decimalDigits]
  by_cases negative : number.toInt < 0
  · have magnitude : -(number.toInt.natAbs : Int) = number.toInt := by omega
    rw [decide_eq_true negative, if_pos rfl, List.singleton_append, read?_minus_decimalDigits,
      magnitude]
  · have magnitude : (number.toInt.natAbs : Int) = number.toInt := by omega
    rw [decide_eq_false negative, if_neg Bool.false_ne_true, List.nil_append,
      read?_decimalDigits, magnitude]

/-! ## Changes -/

/-- A letter or digit, a sign or a point. -/
def IsNumberCharacter (character : Char) : Prop :=
  character.isAlphanum = true ∨ character = '-' ∨ character = '.'

instance (character : Char) : Decidable (IsNumberCharacter character) :=
  inferInstanceAs (Decidable (_ ∨ _))

theorem isNumberCharacter_of_mem_toDigits {number : Nat} {character : Char}
    (member : character ∈ Nat.toDigits 10 number) : IsNumberCharacter character := by
  have digit := Nat.isDigit_of_mem_toDigits (by decide) (by decide) member
  exact .inl (by simp [Char.isAlphanum, digit])

theorem Figures.isNumberCharacter_of_mem_plain {number : Int64} {character : Char}
    (member : character ∈ (Figures.plain number).toList) : IsNumberCharacter character := by
  rw [Figures.toList_plain, List.mem_append] at member
  rcases member with sign | digit
  · split at sign
    next => exact .inr (.inl (List.mem_singleton.1 sign))
    next => cases sign
  · exact isNumberCharacter_of_mem_toDigits digit

theorem isNumberCharacter_of_mem_pointed {places scaled : Nat} {character : Char}
    (member : character ∈ pointed places scaled) : IsNumberCharacter character := by
  unfold pointed at member
  split at member
  next => exact isNumberCharacter_of_mem_toDigits member
  next =>
    simp only [List.mem_append, List.mem_singleton, List.mem_replicate] at member
    rcases member with ((digit | point) | ⟨_, zero⟩) | digit
    · exact isNumberCharacter_of_mem_toDigits digit
    · exact .inr (.inr point)
    · exact .inl (by rw [zero]; decide)
    · exact isNumberCharacter_of_mem_toDigits digit

private theorem isNumberCharacter_of_mem_word (word : String)
    (letters : (word.toList.all fun letter => decide (IsNumberCharacter letter)) = true)
    {character : Char} (member : character ∈ word.toList) : IsNumberCharacter character :=
  of_decide_eq_true (List.all_eq_true.1 letters character member)

theorem Binary64.isNumberCharacter_of_mem_fixed {places : Nat} {number : Float} {character : Char}
    (member : character ∈ (Binary64.fixed places number).toList) :
    IsNumberCharacter character := by
  unfold Binary64.fixed at member
  split at member
  next exact _ =>
    rw [String.toList_ofList, List.mem_append] at member
    rcases member with sign | figure
    · split at sign
      next => exact .inr (.inl (List.mem_singleton.1 sign))
      next => cases sign
    · exact isNumberCharacter_of_mem_pointed figure
  next =>
    split at member
    next =>
      split at member
      next => exact isNumberCharacter_of_mem_word "-inf" (by decide) member
      next => exact isNumberCharacter_of_mem_word "inf" (by decide) member
    next => exact isNumberCharacter_of_mem_word "NaN" (by decide) member

end GuildRoster
