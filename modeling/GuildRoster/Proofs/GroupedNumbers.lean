import GuildRoster.Proofs.NumberTexts
import GuildRoster.Proofs.PathLaws

/-!
# Grouped numbers

Long numbers are shown in groups of digits with a blank between them. All groups but the first one
have three digits, and without the blanks the text is the ordinary one.
-/

set_option autoImplicit false

namespace GuildRoster

namespace Figures

/-- The groups of digits that a number is shown in. -/
structure GroupsOf (number : Int64) (first : List Char) (others : List (List Char)) : Prop where
  text : (grouped number).toList =
    (if number.toInt < 0 then ['-'] else []) ++ [' '].intercalate (first :: others)
  isDigit : ∀ group ∈ first :: others, ∀ character ∈ group, character.isDigit = true
  short : 1 ≤ first.length ∧ first.length ≤ 3
  whole : ∀ group ∈ others, group.length = 3
  leading : first.head? = some '0' → first = ['0'] ∧ others = []

theorem length_flatten_groups {groups : List (List Char)}
    (whole : ∀ group ∈ groups, group.length = 3) : groups.flatten.length = 3 * groups.length := by
  induction groups with
  | nil => rfl
  | cons group groups ih =>
    rw [List.forall_mem_cons] at whole
    rw [List.flatten_cons, List.length_append, whole.1, ih whole.2, List.length_cons]
    omega

/-- Before a further digit the first group either has room for it or is closed. -/
theorem exists_groups {digits : List Char} (nonempty : digits ≠ []) :
    ∃ first others, grouped.spaced digits = [' '].intercalate (first :: others) ∧
      (first :: others).flatten = digits ∧ 1 ≤ first.length ∧ first.length ≤ 3 ∧
      ∀ group ∈ others, group.length = 3 := by
  induction digits with
  | nil => exact absurd rfl nonempty
  | cons digit rest ih =>
    by_cases last : rest = []
    · subst last
      exact ⟨[digit], [], by simp [grouped.spaced], rfl, by simp⟩
    · obtain ⟨first, others, spaced, digits, some, short, whole⟩ := ih last
      have length : rest.length = first.length + 3 * others.length := by
        rw [← digits, List.flatten_cons, List.length_append, length_flatten_groups whole]
      by_cases closed : rest.length % 3 = 0
      · have full : first.length = 3 := by omega
        refine ⟨[digit], first :: others, ?_, ?_, by simp, by simp, ?_⟩
        · rw [grouped.spaced, if_pos ⟨closed, last⟩, spaced, List.intercalate_cons_cons]
          rfl
        · rw [List.flatten_cons, digits]
          rfl
        · rw [List.forall_mem_cons]
          exact ⟨full, whole⟩
      · refine ⟨digit :: first, others, ?_, ?_, by simp, ?_, whole⟩
        · rw [grouped.spaced, if_neg fun both => closed both.1, spaced, Text.intercalate_cons,
            Text.intercalate_cons, List.cons_append]
        · rw [List.flatten_cons, List.cons_append, ← List.flatten_cons, digits]
        · rw [List.length_cons]
          omega

theorem filter_spaced {digits : List Char} (clean : ' ' ∉ digits) :
    (grouped.spaced digits).filter (· ≠ ' ') = digits := by
  induction digits with
  | nil => rfl
  | cons digit rest ih =>
    rw [List.mem_cons, not_or] at clean
    have shown : digit ≠ ' ' := Ne.symm clean.1
    rw [grouped.spaced]
    split
    · simpa [shown] using ih clean.2
    · simpa [shown] using ih clean.2

theorem toList_grouped (number : Int64) :
    (grouped number).toList = (if number.toInt < 0 then ['-'] else [])
      ++ grouped.spaced (decimalDigits number.toInt.natAbs) := by
  rw [grouped, String.toList_ofList]
  simp only [Int64.lt_iff_toInt_lt, Int64.toInt_zero]

/-- The blanks are all that grouping adds to the text of a number. -/
theorem filter_grouped (number : Int64) :
    (grouped number).toList.filter (· ≠ ' ') = (plain number).toList := by
  have clean : ' ' ∉ decimalDigits number.toInt.natAbs := by
    intro member
    have digit := isDigit_of_mem_decimalDigits member
    revert digit
    decide
  rw [toList_grouped, toList_plain, List.filter_append, filter_spaced clean]
  split <;> simp_all [decimalDigits]

theorem exists_groupsOf (number : Int64) : ∃ first others, GroupsOf number first others := by
  obtain ⟨first, others, spaced, digits, some, short, whole⟩ :=
    exists_groups (decimalDigits_ne_nil number.toInt.natAbs)
  refine ⟨first, others, ?_, ?_, ⟨some, short⟩, whole, ?_⟩
  · rw [toList_grouped, spaced]
  · intro group listed character member
    apply isDigit_of_mem_decimalDigits
    rw [← digits]
    exact List.mem_flatten.2 ⟨group, listed, member⟩
  · intro zero
    obtain ⟨rest, shape⟩ := List.head?_eq_some_iff.1 zero
    have none : number.toInt.natAbs = 0 := by
      apply Json.toDigits_head_zero
      rw [← decimalDigits, ← digits, shape]
      rfl
    have alone : rest ++ others.flatten = [] := by
      have zeros : (first :: others).flatten = ['0'] := by rw [digits, none]; rfl
      rw [shape, List.flatten_cons, List.cons_append, List.cons.injEq] at zeros
      exact zeros.2
    obtain ⟨rfl, empty⟩ := List.append_eq_nil_iff.1 alone
    refine ⟨shape, ?_⟩
    have length := length_flatten_groups whole
    rw [empty, List.length_nil] at length
    exact List.eq_nil_of_length_eq_zero (by omega)

theorem grouped_injective : Function.Injective grouped := by
  intro number other same
  have texts : (plain number).toList = (plain other).toList := by
    rw [← filter_grouped, ← filter_grouped, same]
  have values := read?_plain number
  rw [texts, read?_plain, Option.some.injEq] at values
  exact Int64.toInt_inj.1 values.symm

/-- A number is shown as its groups of digits behind a minus sign if it is negative, without its
blanks it has the ordinary text, and different numbers are shown differently. -/
theorem grouped_shows_numbers :
    (∀ number, (∃ first others, GroupsOf number first others) ∧
      (grouped number).toList.filter (· ≠ ' ') = (plain number).toList ∧
      read? ((grouped number).toList.filter (· ≠ ' ')) = some number.toInt) ∧
    Function.Injective grouped := by
  refine ⟨fun number => ⟨exists_groupsOf number, filter_grouped number, ?_⟩, grouped_injective⟩
  rw [filter_grouped, read?_plain]

end Figures

end GuildRoster
