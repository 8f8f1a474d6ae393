import GuildRoster.Export.Destination
import GuildRoster.Proofs.FileTreeLaws
import GuildRoster.Proofs.PathLaws

/-!
# Parts of paths

A path to a file is a text that ends with a slash or is empty, the name of the file, and slashes
and single dots that do not count. Adding and removing an extension keeps the first part, changes
the end of the name and drops the third part.
-/

set_option autoImplicit false

namespace GuildRoster

namespace Path

/-- The components above the last one. -/
def parentComponents (path : Path) : List PathComponent := path.components.dropLast

/-! ## Pieces that count -/

theorem component?_eq_none_iff {piece : List Char} :
    component? piece = none ↔ piece = [] ∨ piece = ['.'] := by
  unfold component?
  split
  next idle => simp only [idle]
  next counts =>
    split
    · simp [counts]
    · simp [counts]

theorem component?_eq_name_iff {piece name : List Char} :
    component? piece = some (.name name) ↔ piece = name ∧ FileTree.IsName name := by
  unfold component? FileTree.IsName
  constructor
  · intro counts
    split at counts
    next => cases counts
    next some =>
      rw [not_or] at some
      split at counts
      next => cases counts
      next notAbove =>
        cases counts
        exact ⟨rfl, some.1, some.2, notAbove⟩
  · rintro ⟨rfl, some, notHere, notAbove⟩
    simp [some, notHere, notAbove]

/-- The component that the beginning of a path stands for. -/
def leadingComponents (path : Path) : List PathComponent :=
  if path.isAbsolute then [.root] else if path.pieces.head? = some ['.'] then [.here] else []

theorem components_eq (path : Path) :
    path.components = path.leadingComponents ++ path.pieces.filterMap component? := by
  unfold components leadingComponents
  split
  · rfl
  · split <;> rfl

theorem no_name_mem_leadingComponents {path : Path} {name : List Char} :
    .name name ∉ path.leadingComponents := by
  unfold leadingComponents
  split
  · simp
  · split <;> simp

/-- What follows a slash adds its own components. -/
theorem components_append_slash (above back : List Char) :
    components ⟨above ++ '/' :: back⟩ =
      components ⟨above ++ ['/']⟩ ++ (Text.splitAt '/' back).filterMap component? := by
  have whole : ∀ back, pieces ⟨above ++ '/' :: back⟩
      = Text.splitAt '/' above ++ Text.splitAt '/' back := Text.splitAt_append '/' above
  have leading : ∀ back, leadingComponents ⟨above ++ '/' :: back⟩
      = leadingComponents ⟨above ++ ['/']⟩ := by
    intro back
    have absolute : isAbsolute ⟨above ++ '/' :: back⟩ = isAbsolute ⟨above ++ ['/']⟩ := by
      cases above <;> rfl
    have heads : (pieces ⟨above ++ '/' :: back⟩).head? = (pieces ⟨above ++ ['/']⟩).head? := by
      rw [whole, whole]
      cases shape : Text.splitAt '/' above with
      | nil => exact absurd shape (Text.splitAt_ne_nil '/' above)
      | cons piece others => rfl
    simp only [leadingComponents, absolute, heads]
  have empty : (Text.splitAt '/' []).filterMap component? = [] := rfl
  simp only [components_eq, leading, whole, List.filterMap_append, empty, List.append_nil,
    List.append_assoc]

/-- Slashes and single dots behind a name: pieces that do not count. -/
def IsTail (tail : List Char) : Prop :=
  ∃ pieces : List (List Char), (∀ piece ∈ pieces, component? piece = none) ∧
    tail = pieces.flatMap ('/' :: ·)

theorem IsTail.nil : IsTail [] := ⟨[], by simp, rfl⟩

theorem IsTail.slash {tail : List Char} (idle : IsTail tail) : IsTail ('/' :: tail) := by
  obtain ⟨pieces, idle, rfl⟩ := idle
  refine ⟨[] :: pieces, ?_, rfl⟩
  rw [List.forall_mem_cons]
  exact ⟨rfl, idle⟩

theorem IsTail.dot {tail : List Char} (idle : IsTail tail) : IsTail ('/' :: '.' :: tail) := by
  obtain ⟨pieces, idle, rfl⟩ := idle
  refine ⟨['.'] :: pieces, ?_, rfl⟩
  rw [List.forall_mem_cons]
  exact ⟨rfl, idle⟩

/-- What is left of slashes and single dots when some characters are cut off at the end. -/
theorem IsTail.take {tail : List Char} (idle : IsTail tail) (count : Nat) :
    IsTail (tail.take count) := by
  obtain ⟨pieces, idle, rfl⟩ := idle
  induction pieces generalizing count with
  | nil =>
    rw [List.flatMap_nil, List.take_nil]
    exact .nil
  | cons piece pieces ih =>
    rw [List.forall_mem_cons, component?_eq_none_iff] at idle
    rw [List.flatMap_cons]
    rcases idle.1 with rfl | rfl
    · cases count with
      | zero => exact .nil
      | succ count => exact .slash (ih count idle.2)
    · match count with
      | 0 => exact .nil
      | 1 => exact .slash .nil
      | count + 2 => exact .dot (ih count idle.2)

/-! ## Paths with a name -/

/-- A path that leads to a file: the text in front of the name, the name, and what follows it. -/
structure Consists (path : Path) (front name tail : List Char) : Prop where
  characters : path.characters = front ++ name ++ tail
  front : front = [] ∨ front.getLast? = some '/'
  isName : FileTree.IsName name
  noSlash : '/' ∉ name
  tail : IsTail tail

namespace Consists

variable {path : Path} {front name tail : List Char}

theorem splitAt_tail (parts : Consists path front name tail) :
    ∃ after : List (List Char), (∀ piece ∈ after, component? piece = none) ∧
      tail = after.flatMap ('/' :: ·) ∧ Text.splitAt '/' (name ++ tail) = name :: after := by
  obtain ⟨after, idle, rfl⟩ := parts.tail
  refine ⟨after, idle, rfl, ?_⟩
  rw [Text.splitAt_append_pieces, Text.splitAt_of_not_mem parts.noSlash, List.singleton_append]
  intro piece member
  rcases component?_eq_none_iff.1 (idle piece member) with rfl | rfl <;> decide

theorem pieces (parts : Consists path front name tail) :
    ∃ before after : List (List Char), path.pieces = before ++ name :: after ∧
      (∀ piece ∈ after, component? piece = none) ∧ tail = after.flatMap ('/' :: ·) := by
  obtain ⟨after, idle, shape, ending⟩ := parts.splitAt_tail
  rcases parts.front with rfl | slash
  · refine ⟨[], after, ?_, idle, shape⟩
    rw [Path.pieces, parts.characters, List.nil_append, ending, List.nil_append]
  · obtain ⟨above, rfl⟩ := List.getLast?_eq_some_iff.1 slash
    refine ⟨Text.splitAt '/' above, after, ?_, idle, shape⟩
    rw [Path.pieces, parts.characters, List.append_assoc, List.append_assoc,
      List.singleton_append, Text.splitAt_append, ending]

theorem components (parts : Consists path front name tail) :
    path.components = Path.components ⟨front⟩ ++ [.name name] := by
  obtain ⟨after, idle, _, ending⟩ := parts.splitAt_tail
  have counts : (name :: after).filterMap component? = [.name name] := by
    rw [List.filterMap_cons_some (component?_eq_name_iff.2 ⟨rfl, parts.isName⟩),
      List.filterMap_eq_nil_iff.2 idle]
  rcases parts.front with rfl | slash
  · have relative : path.isAbsolute = false := by
      rw [isAbsolute, parts.characters]
      cases shape : name with
      | nil => exact absurd shape parts.isName.1
      | cons first rest =>
        have other : first ≠ '/' := fun same => parts.noSlash (by simp [shape, same])
        simp [other]
    have whole : path.pieces = name :: after := by
      rw [Path.pieces, parts.characters, List.nil_append, ending]
    have leading : path.leadingComponents = [] := by
      simp [leadingComponents, relative, whole, parts.isName.2.1]
    rw [components_eq, leading, whole, counts]
    rfl
  · obtain ⟨above, rfl⟩ := List.getLast?_eq_some_iff.1 slash
    have below : path = ⟨above ++ '/' :: (name ++ tail)⟩ := by
      rw [← List.singleton_append, ← List.append_assoc, ← List.append_assoc, ← parts.characters]
    rw [below, components_append_slash, ending, counts]

theorem parentComponents (parts : Consists path front name tail) :
    path.parentComponents = Path.components ⟨front⟩ := by
  rw [Path.parentComponents, parts.components, List.dropLast_concat]

theorem fileName? (parts : Consists path front name tail) : path.fileName? = some name := by
  simp [Path.fileName?, parts.components]

theorem extension? (parts : Consists path front name tail) :
    path.extension? = (splitName name).2 := by
  rw [Path.extension?, parts.fileName?, Option.bind_some]

theorem trailingLength (parts : Consists path front name tail) :
    path.trailingLength = tail.length := by
  obtain ⟨before, after, whole, idle, rfl⟩ := parts.pieces
  have idleLast : (path.pieces.reverse.takeWhile fun piece => piece = [] ∨ piece = ['.'])
      = after.reverse := by
    rw [whole, List.reverse_append, List.reverse_cons, List.append_assoc,
      List.takeWhile_append_of_pos, List.singleton_append, List.takeWhile_cons_of_neg,
      List.append_nil]
    · simpa using ⟨parts.isName.1, parts.isName.2.1⟩
    · intro piece member
      simpa using component?_eq_none_iff.1 (idle piece (List.mem_reverse.1 member))
  rw [Path.trailingLength, idleLast]
  exact (after.reverse_perm.flatMap_right _).length_eq

/-- An extension is added to the stem of the name, and what follows the name is dropped. -/
theorem addExtension (parts : Consists path front name tail) (extension : List Char) :
    path.addExtension extension =
      ⟨front ++ (splitName name).1 ++ if extension.isEmpty then [] else '.' :: extension⟩ := by
  have cut : path.characters.take (path.characters.length - path.trailingLength - name.length)
      = front := by
    rw [parts.trailingLength, parts.characters, List.length_append, Nat.add_sub_cancel,
      List.length_append, Nat.add_sub_cancel, List.append_assoc, List.take_left]
  simp only [Path.addExtension, parts.fileName?, cut]

/-- Replacing an extension keeps the stem of the name. Two dots are left of a name that starts with
them and has no third one, so its stem is lost. -/
theorem withExtension (parts : Consists path front name tail) {stem old : List Char}
    (split : splitName name = (stem, some old)) (proper : stem ≠ ['.']) (extension : List Char) :
    path.withExtension extension =
      ⟨front ++ stem ++ if extension.isEmpty then [] else '.' :: extension⟩ := by
  obtain ⟨rfl, nonempty, undotted⟩ := splitName_eq_some_iff.1 split
  -- As many characters as the old extension has are cut off at the end, so some of it may stay.
  have cut : path.characters.take (path.characters.length - old.length)
      = front ++ (stem ++ '.' :: old.take tail.length) ++ tail.take (tail.length - old.length) := by
    have before : path.characters = (front ++ (stem ++ ['.'])) ++ (old ++ tail) := by
      rw [parts.characters]
      simp
    have count : path.characters.length - old.length
        = (front ++ (stem ++ ['.'])).length + tail.length := by
      rw [before]
      simp only [List.length_append]
      omega
    rw [count, before, List.take_length_add_append, List.take_append]
    simp
  have clean : '.' ∉ old.take tail.length := fun member => undotted (List.mem_of_mem_take member)
  have plain := parts.noSlash
  rw [List.mem_append, List.mem_cons, not_or, not_or] at plain
  have rest : Consists ⟨path.characters.take (path.characters.length - old.length)⟩ front
      (stem ++ '.' :: old.take tail.length) (tail.take (tail.length - old.length)) := by
    refine ⟨cut, parts.front, ⟨by simp, ?_, ?_⟩, ?_, parts.tail.take _⟩
    · intro same
      cases stem with
      | nil => exact nonempty rfl
      | cons first others => simp at same
    · intro same
      match stem, nonempty, proper with
      | [first], _, proper =>
        rw [List.singleton_append, List.cons.injEq] at same
        exact proper (by rw [same.1])
      | _ :: _ :: _, _, _ => simp at same
    · rw [List.mem_append, List.mem_cons, not_or, not_or]
      exact ⟨plain.1, plain.2.1, fun member => plain.2.2 (List.mem_of_mem_take member)⟩
  simp only [Path.withExtension, parts.extension?, split, rest.addExtension,
    splitName_append stem clean, if_neg nonempty]

end Consists

/-- Every path with the name of a file has these parts. -/
theorem fileName?_eq_some_iff {path : Path} {name : List Char} :
    path.fileName? = some name ↔ ∃ front tail, Consists path front name tail := by
  constructor
  · intro found
    have last : path.components.getLast? = some (.name name) := by
      unfold fileName? at found
      split at found
      next ending =>
        cases found
        exact ending
      next => cases found
    have counted : (path.pieces.filterMap component?).getLast? = some (.name name) := by
      rw [components_eq, List.getLast?_append] at last
      cases ending : (path.pieces.filterMap component?).getLast? with
      | none =>
        rw [ending] at last
        exact absurd (List.mem_of_getLast? last) no_name_mem_leadingComponents
      | some component =>
        rw [ending] at last
        exact last
    rw [List.getLast?_filterMap, List.findSome?_eq_some_iff] at counted
    obtain ⟨later, piece, earlier, reversed, counts, idle⟩ := counted
    obtain ⟨rfl, named⟩ := component?_eq_name_iff.1 counts
    have whole : path.pieces = earlier.reverse ++ piece :: later.reverse := by
      rw [← List.reverse_reverse path.pieces, reversed]
      simp
    have listed : piece ∈ Text.splitAt '/' path.characters := by
      rw [← Path.pieces, whole]
      simp
    have noSlash : '/' ∉ piece := Text.not_mem_of_mem_splitAt listed
    have tail : IsTail (later.reverse.flatMap ('/' :: ·)) :=
      ⟨later.reverse, fun piece member => idle piece (List.mem_reverse.1 member), rfl⟩
    have characters : path.characters
        = ['/'].intercalate (earlier.reverse ++ piece :: later.reverse) := by
      rw [← whole, Path.pieces, Text.intercalate_splitAt]
    cases above : earlier.reverse with
    | nil =>
      rw [above, List.nil_append, Text.intercalate_cons] at characters
      exact ⟨[], _, characters, .inl rfl, named, noSlash, tail⟩
    | cons first others =>
      rw [above, List.cons_append, Text.intercalate_cons, List.flatMap_append,
        List.flatMap_cons] at characters
      refine ⟨first ++ others.flatMap ('/' :: ·) ++ ['/'], _, ?_, .inr ?_, named, noSlash, tail⟩
      · rw [characters]
        simp
      · simp
  · rintro ⟨front, tail, parts⟩
    exact parts.fileName?

end Path

end GuildRoster
