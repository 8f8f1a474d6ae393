import GuildRoster.Path
import GuildRoster.Text.Utf8
import Mathlib.Data.List.Basic

/-!
# Laws of paths

How texts fall into pieces at a separator, and names into a stem and an extension.
-/

set_option autoImplicit false

namespace GuildRoster

/-! ## Pieces of texts -/

namespace Text

theorem splitAt_of_not_mem {separator : Char} {text : List Char} (absent : separator ∉ text) :
    splitAt separator text = [text] := by
  induction text with
  | nil => rfl
  | cons character rest ih =>
    rw [List.mem_cons, not_or] at absent
    simp [splitAt, Ne.symm absent.1, ih absent.2]

theorem splitAt_append (separator : Char) (front back : List Char) :
    splitAt separator (front ++ separator :: back) =
      splitAt separator front ++ splitAt separator back := by
  induction front with
  | nil => simp [splitAt]
  | cons character front ih =>
    rw [List.cons_append, splitAt, splitAt]
    split
    next => rw [ih, List.cons_append]
    next =>
      rw [ih]
      cases cut : splitAt separator front with
      | nil => exact absurd cut (splitAt_ne_nil separator front)
      | cons piece pieces => rfl

/-- A text that is added at the end is added to the last piece, if it has no separators. -/
theorem splitAt_append_last (separator : Char) (text : List Char) :
    ∃ front last, ∀ back, separator ∉ back →
      splitAt separator (text ++ back) = front ++ [last ++ back] := by
  induction text with
  | nil => exact ⟨[], [], fun back absent => splitAt_of_not_mem absent⟩
  | cons character text ih =>
    obtain ⟨front, last, shape⟩ := ih
    by_cases same : character = separator
    · refine ⟨[] :: front, last, fun back absent => ?_⟩
      simp [splitAt, same, shape back absent]
    · cases front with
      | nil =>
        refine ⟨[], character :: last, fun back absent => ?_⟩
        simp [splitAt, same, shape back absent]
      | cons piece pieces =>
        refine ⟨(character :: piece) :: pieces, last, fun back absent => ?_⟩
        simp [splitAt, same, shape back absent]

theorem not_mem_of_mem_splitAt {separator : Char} {text piece : List Char}
    (member : piece ∈ splitAt separator text) : separator ∉ piece := by
  induction text generalizing piece with
  | nil =>
    rw [splitAt, List.mem_singleton] at member
    simp [member]
  | cons character text ih =>
    unfold splitAt at member
    split at member
    next =>
      rcases List.mem_cons.1 member with rfl | later
      · exact List.not_mem_nil
      · exact ih later
    next other =>
      split at member
      next empty => exact absurd empty (splitAt_ne_nil separator text)
      next first others shape =>
        rw [shape] at ih
        rcases List.mem_cons.1 member with rfl | later
        · rw [List.mem_cons, not_or]
          exact ⟨Ne.symm other, ih List.mem_cons_self⟩
        · exact ih (List.mem_cons_of_mem first later)

theorem length_splitAt (separator : Char) (text : List Char) :
    (splitAt separator text).length = text.count separator + 1 := by
  induction text with
  | nil => rfl
  | cons character text ih =>
    rw [splitAt, List.count_cons]
    split
    next same => simp [same, ih]
    next other =>
      split
      next empty => exact absurd empty (splitAt_ne_nil separator text)
      next shape =>
        rw [shape, List.length_cons] at ih
        simpa [other] using ih

/-- Texts without separators are the pieces of the text that they are put together to. -/
theorem splitAt_intercalate {separator : Char} {pieces : List (List Char)} (nonempty : pieces ≠ [])
    (clean : ∀ piece ∈ pieces, separator ∉ piece) :
    splitAt separator ([separator].intercalate pieces) = pieces := by
  induction pieces with
  | nil => exact absurd rfl nonempty
  | cons piece pieces ih =>
    have first := splitAt_of_not_mem (clean piece List.mem_cons_self)
    cases pieces with
    | nil => simpa using first
    | cons next others =>
      have rest := ih (List.cons_ne_nil next others)
        fun piece member => clean piece (List.mem_cons_of_mem _ member)
      rw [List.intercalate_cons_cons, List.append_assoc, List.singleton_append, splitAt_append,
        first, rest]
      rfl

/-- Texts behind each other with a separator before each further one. -/
theorem splitAt_append_flatMap (separator : Char) (first : List Char) (others : List (List Char)) :
    splitAt separator (first ++ others.flatMap (separator :: ·)) =
      splitAt separator first ++ others.flatMap (splitAt separator) := by
  induction others generalizing first with
  | nil => simp
  | cons next others ih =>
    rw [List.flatMap_cons, List.cons_append, splitAt_append, ih next, List.flatMap_cons]

theorem intercalate_splitAt (separator : Char) (text : List Char) :
    [separator].intercalate (splitAt separator text) = text := by
  induction text with
  | nil => rfl
  | cons character text ih =>
    rw [splitAt]
    cases pieces : splitAt separator text with
    | nil => exact absurd pieces (splitAt_ne_nil separator text)
    | cons piece others =>
      rw [pieces] at ih
      split
      next same => rw [List.intercalate_cons_cons, ih, same, List.nil_append, List.singleton_append]
      next =>
        cases others with
        | nil =>
          rw [List.intercalate_singleton] at ih ⊢
          rw [ih]
        | cons other others =>
          rw [List.intercalate_cons_cons] at ih ⊢
          rw [← ih, List.cons_append, List.cons_append]

theorem splitAt_append_pieces {separator : Char} (front : List Char) {pieces : List (List Char)}
    (clean : ∀ piece ∈ pieces, separator ∉ piece) :
    splitAt separator (front ++ pieces.flatMap (separator :: ·)) =
      splitAt separator front ++ pieces := by
  have whole : pieces.flatMap (splitAt separator) = pieces := by
    rw [List.flatMap_congr fun piece member => splitAt_of_not_mem (clean piece member),
      ← List.map_eq_flatMap, List.map_id']
  rw [splitAt_append_flatMap, whole]

/-- Texts with a separator behind each of them, and so nothing behind the last separator. -/
theorem splitAt_flatMap_ended {separator : Char} {pieces : List (List Char)}
    (clean : ∀ piece ∈ pieces, separator ∉ piece) :
    splitAt separator (pieces.flatMap (· ++ [separator])) = pieces ++ [[]] := by
  induction pieces with
  | nil => rfl
  | cons piece pieces ih =>
    rw [List.forall_mem_cons] at clean
    rw [List.flatMap_cons, List.append_assoc, List.singleton_append, splitAt_append,
      splitAt_of_not_mem clean.1, ih clean.2, List.singleton_append, List.cons_append]

theorem intercalate_cons (separator : Char) (first : List Char) (others : List (List Char)) :
    [separator].intercalate (first :: others) = first ++ others.flatMap (separator :: ·) := by
  induction others generalizing first with
  | nil => simp
  | cons next others ih =>
    rw [List.intercalate_cons_cons, ih next, List.flatMap_cons, List.append_assoc,
      List.singleton_append, List.cons_append]

theorem not_mem_intercalate {separator character : Char} {pieces : List (List Char)}
    (other : character ≠ separator) (absent : ∀ piece ∈ pieces, character ∉ piece) :
    character ∉ [separator].intercalate pieces := by
  induction pieces with
  | nil => exact List.not_mem_nil
  | cons piece pieces ih =>
    have first := absent piece List.mem_cons_self
    have rest := ih fun piece member => absent piece (List.mem_cons_of_mem _ member)
    cases pieces with
    | nil => simpa using first
    | cons next others =>
      rw [List.intercalate_cons_cons]
      simp [first, other, rest]

theorem byteLength_append (front back : List Char) :
    byteLength (front ++ back) = byteLength front + byteLength back := by
  induction front with
  | nil => simp [byteLength]
  | cons character front ih => simp [byteLength, ih, Nat.add_assoc]

end Text

/-! ## Extensions -/

namespace Path

theorem eq_of_splitName_eq_none {name stem : List Char} (split : splitName name = (stem, none)) :
    stem = name := by
  unfold splitName at split
  dsimp only at split
  split at split
  · exact (Prod.mk.inj split).1.symm
  · cases split

theorem mem_of_mem_stem {name : List Char} {character : Char}
    (member : character ∈ (splitName name).1) : character ∈ name := by
  unfold splitName at member
  dsimp only at member
  split at member
  · exact member
  · exact List.mem_reverse.1 (List.mem_of_mem_drop (List.mem_reverse.1 member))

theorem splitName_append (stem : List Char) {ending : List Char} (undotted : '.' ∉ ending) :
    splitName (stem ++ '.' :: ending) =
      if stem = [] then ('.' :: ending, none) else (stem, some ending) := by
  have whole : (stem ++ '.' :: ending).reverse = ending.reverse ++ '.' :: stem.reverse := by simp
  have front : (ending.reverse ++ '.' :: stem.reverse).takeWhile (· ≠ '.') = ending.reverse := by
    rw [List.takeWhile_append_of_pos]
    · simp
    · intro character member
      have other : character ≠ '.' := by
        intro equal
        subst equal
        exact undotted (by simpa using member)
      simpa using other
  simp only [splitName, whole, front]
  by_cases empty : stem = []
  · simp [empty]
  · simp [empty, List.drop_append]

theorem splitName_of_not_mem {name : List Char} (undotted : '.' ∉ name) :
    splitName name = (name, none) := by
  have front : (name.reverse ++ []).takeWhile (· ≠ '.') = name.reverse ++ [] := by
    rw [List.takeWhile_append_of_pos]
    · rfl
    · intro character member
      have other : character ≠ '.' := by
        intro equal
        subst equal
        exact undotted (by simpa using member)
      simpa using other
  rw [List.append_nil] at front
  simp only [splitName, front]
  simp

theorem splitName_eq_some_iff {name stem ending : List Char} :
    splitName name = (stem, some ending) ↔
      name = stem ++ '.' :: ending ∧ stem ≠ [] ∧ '.' ∉ ending := by
  by_cases dotted : '.' ∈ name
  · obtain ⟨back, front, reversed, undotted⟩ :=
      List.eq_append_cons_of_mem (List.mem_reverse.2 dotted)
    have whole : name = front.reverse ++ '.' :: back.reverse := by
      rw [← List.reverse_reverse name, reversed]
      simp
    have clean : '.' ∉ back.reverse := by simpa using undotted
    rw [whole, splitName_append _ clean]
    constructor
    · intro split
      by_cases empty : front.reverse = []
      · simp [empty] at split
      · rw [if_neg empty, Prod.mk.injEq, Option.some.injEq] at split
        obtain ⟨rfl, rfl⟩ := split
        exact ⟨rfl, empty, clean⟩
    · intro assumed
      rcases assumed with ⟨same, nonempty, other⟩
      have again := splitName_append stem other
      rw [← same, splitName_append _ clean, if_neg nonempty] at again
      exact again
  · rw [splitName_of_not_mem dotted]
    refine iff_of_false (by simp) ?_
    intro assumed
    rcases assumed with ⟨rfl, _, _⟩
    exact dotted (by simp)

end Path

end GuildRoster
