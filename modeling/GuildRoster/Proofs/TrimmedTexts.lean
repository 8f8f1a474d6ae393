import GuildRoster.Text.Blank
import Mathlib.Data.List.TakeWhile

/-!
# Trimmed texts

What a text is without the blanks at its end, or at both ends, said without taking anything away:
the rest is blank, and what is left does not begin or end with a blank.
-/

set_option autoImplicit false

namespace GuildRoster.Text

private theorem dropWhile_blanks {front shown : List Char}
    (blank : ∀ character ∈ front, isBlank character = true)
    (stops : ∀ character, shown.head? = some character → isBlank character = false) :
    (front ++ shown).dropWhile isBlank = shown := by
  rw [List.dropWhile_append_of_pos blank]
  cases shown with
  | nil => rfl
  | cons character rest => rw [List.dropWhile_cons_of_neg (by simp [stops character rfl])]

private theorem head?_dropWhile_isBlank {text : List Char} {character : Char}
    (first : (text.dropWhile isBlank).head? = some character) : isBlank character = false := by
  have stops := List.head?_dropWhile_not isBlank text
  rw [first] at stops
  exact stops

/-! ## Without blanks at the end -/

/-- One text is what stands before the blanks at the end of another. -/
structure TrimsEnd (text inner : List Char) : Prop where
  whole : ∃ back, text = inner ++ back ∧ ∀ character ∈ back, isBlank character = true
  last : ∀ character, inner.getLast? = some character → isBlank character = false

theorem trimEnd_of_trimsEnd {text inner : List Char} (trims : TrimsEnd text inner) :
    trimEnd text = inner := by
  obtain ⟨⟨back, rfl, blank⟩, last⟩ := trims
  have ending : (back.reverse ++ inner.reverse).dropWhile isBlank = inner.reverse := by
    apply dropWhile_blanks
    · intro character member
      exact blank character (List.mem_reverse.1 member)
    · intro character found
      rw [List.head?_reverse] at found
      exact last character found
  rw [trimEnd, List.reverse_append, ending, List.reverse_reverse]

theorem trimsEnd_trimEnd (text : List Char) : TrimsEnd text (trimEnd text) := by
  constructor
  case whole =>
    refine ⟨(text.reverse.takeWhile isBlank).reverse, ?_, ?_⟩
    · rw [trimEnd, ← List.reverse_append, List.takeWhile_append_dropWhile, List.reverse_reverse]
    · intro character member
      exact List.mem_takeWhile_imp (List.mem_reverse.1 member)
  case last =>
    intro character found
    rw [trimEnd, List.getLast?_reverse] at found
    exact head?_dropWhile_isBlank found

namespace TrimsEnd

variable {front back line : List Char}

/-- As many characters as the front of a text has show the front, up to the blanks at its end. -/
theorem take (trims : TrimsEnd (front ++ back) line) :
    TrimsEnd front (trimEnd (line.take front.length)) := by
  obtain ⟨⟨rest, whole, blank⟩, last⟩ := trims
  rcases List.append_eq_append_iff.1 whole with ⟨more, rfl, -⟩ | ⟨more, rfl, rfl⟩
  · rw [List.take_left]
    exact trimsEnd_trimEnd front
  · have kept : trimEnd line = line :=
      trimEnd_of_trimsEnd ⟨⟨[], (List.append_nil line).symm, by simp⟩, last⟩
    rw [List.take_of_length_le (by simp), kept]
    exact ⟨⟨more, rfl, fun character member => blank character (List.mem_append_left back member)⟩,
      last⟩

/-- The characters behind the front of a text show the rest, which is trimmed on its own. -/
theorem drop (trims : TrimsEnd (front ++ back) line) :
    TrimsEnd back (line.drop front.length) := by
  obtain ⟨⟨rest, whole, blank⟩, last⟩ := trims
  rcases List.append_eq_append_iff.1 whole with ⟨more, rfl, rfl⟩ | ⟨more, rfl, rfl⟩
  · rw [List.drop_left]
    refine ⟨⟨rest, rfl, blank⟩, fun character found => last character ?_⟩
    rw [List.getLast?_append, found, Option.some_or]
  · rw [List.drop_of_length_le (by simp)]
    exact ⟨⟨back, rfl, fun character member => blank character (List.mem_append_right more member)⟩,
      by simp⟩

end TrimsEnd

/-! ## Without blanks at both ends -/

/-- One text is what stands between the blanks at the ends of another. -/
structure Trims (text inner : List Char) : Prop where
  whole : ∃ front back, text = front ++ inner ++ back ∧
    ∀ character ∈ front ++ back, isBlank character = true
  first : ∀ character, inner.head? = some character → isBlank character = false
  last : ∀ character, inner.getLast? = some character → isBlank character = false

theorem trim_of_trims {text inner : List Char} (trims : Trims text inner) : trim text = inner := by
  obtain ⟨⟨front, back, rfl, blank⟩, first, last⟩ := trims
  cases inner with
  | nil =>
    have nothing : (front ++ back ++ []).dropWhile isBlank = [] := dropWhile_blanks blank (by simp)
    rw [List.append_nil] at nothing ⊢
    rw [trim, trimStart, nothing]
    rfl
  | cons character rest =>
    rw [List.forall_mem_append] at blank
    have start : (front ++ (character :: rest ++ back)).dropWhile isBlank
        = character :: rest ++ back := dropWhile_blanks blank.1 first
    rw [trim, trimStart, List.append_assoc, start]
    exact trimEnd_of_trimsEnd ⟨⟨back, rfl, blank.2⟩, last⟩

theorem trims_trim (text : List Char) : Trims text (trim text) := by
  obtain ⟨⟨back, rest, blank⟩, last⟩ := trimsEnd_trimEnd (trimStart text)
  constructor
  case whole =>
    refine ⟨text.takeWhile isBlank, back, ?_, ?_⟩
    · rw [trim, List.append_assoc, ← rest, trimStart, List.takeWhile_append_dropWhile]
    · rw [List.forall_mem_append]
      exact ⟨fun character member => List.mem_takeWhile_imp member, blank⟩
  case first =>
    intro character found
    have start : (text.dropWhile isBlank).head? = some character := by
      rw [trim] at found
      rw [← trimStart, rest, List.head?_append, found, Option.some_or]
    exact head?_dropWhile_isBlank start
  case last => exact last

theorem trims_iff {text inner : List Char} : Trims text inner ↔ trim text = inner :=
  ⟨trim_of_trims, fun trimmed => trimmed ▸ trims_trim text⟩

/-- Only blanks are trimmed. -/
theorem mem_trim {text : List Char} {character : Char} (member : character ∈ text)
    (shown : isBlank character = false) : character ∈ trim text := by
  obtain ⟨⟨front, back, whole, blank⟩, -, -⟩ := trims_trim text
  rw [whole, List.mem_append, List.mem_append] at member
  rw [List.forall_mem_append] at blank
  rcases member with (found | kept) | found
  · cases shown.symm.trans (blank.1 character found)
  · exact kept
  · cases shown.symm.trans (blank.2 character found)

end GuildRoster.Text
