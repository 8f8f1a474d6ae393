/-!
# Digits

Numbers of number systems with up to sixteen digits. Digits beyond nine are letters, small or
capital ones.
-/

set_option autoImplicit false

namespace GuildRoster.Text

/-- The value of a digit of a number system with up to sixteen digits. -/
def digit? (base : Nat) (character : Char) : Option Nat :=
  let value :=
    if '0' ≤ character ∧ character ≤ '9' then character.toNat - '0'.toNat
    else if 'a' ≤ character ∧ character ≤ 'f' then character.toNat - 'a'.toNat + 10
    else if 'A' ≤ character ∧ character ≤ 'F' then character.toNat - 'A'.toNat + 10
    else base
  if value < base then some value else none

/-- The number that digits denote, continuing after a number already read. -/
def numberOf? (base : Nat) (before : Nat) : List Char → Option Nat
  | [] => some before
  | character :: rest => do numberOf? base (before * base + (← digit? base character)) rest

theorem lt_of_digit? {base : Nat} {character : Char} {value : Nat}
    (found : digit? base character = some value) : value < base := by
  simp only [digit?, Option.ite_none_right_eq_some, Option.some.injEq] at found
  obtain ⟨small, rfl⟩ := found
  exact small

theorem numberOf?_append (base before : Nat) (text : List Char) (character : Char) :
    numberOf? base before (text ++ [character]) = do
      let number ← numberOf? base before text
      let value ← digit? base character
      return number * base + value := by
  induction text generalizing before with
  | nil => cases digit : digit? base character <;> simp [numberOf?, digit]
  | cons first text ih =>
    rw [List.cons_append, numberOf?, numberOf?]
    cases digit? base first with
    | none => rfl
    | some value => exact ih (before * base + value)

end GuildRoster.Text
