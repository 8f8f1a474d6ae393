import GuildRoster.Color
import GuildRoster.Proofs.Faults
import GuildRoster.Proofs.PathLaws

/-!
# Texts that denote colours

Which texts stop the reading of a colour. Hexadecimal digits are counted in bytes and cut after
bytes, so a text of the right length is a fault when it has a longer character across a cut. No
other text is.
-/

set_option autoImplicit false

namespace GuildRoster

/-! ## Cuts after bytes -/

namespace Text

/-- A character of the text starts after so many bytes, or the text ends there. -/
def IsBoundary (count : Nat) (text : List Char) : Prop :=
  ∃ front back, text = front ++ back ∧ byteLength front = count

theorem byteLength_eq_zero_iff {text : List Char} : byteLength text = 0 ↔ text = [] := by
  cases text with
  | nil => simp [byteLength]
  | cons character rest =>
    have positive := character.utf8Size_pos
    simp only [byteLength, reduceCtorEq, iff_false]
    omega

/-- Of two ways to cut a text, the one after fewer bytes leaves the other one a cut of the rest. -/
theorem isBoundary_append (front back : List Char) (count : Nat) :
    IsBoundary (byteLength front + count) (front ++ back) ↔ IsBoundary count back := by
  induction front with
  | nil => simp [byteLength]
  | cons character front ih =>
    have positive := character.utf8Size_pos
    rw [← ih]
    constructor
    · rintro ⟨taken, left, shape, length⟩
      cases taken with
      | nil =>
        simp only [byteLength] at length
        omega
      | cons first taken =>
        rw [List.cons_append, List.cons_append, List.cons.injEq] at shape
        obtain ⟨rfl, rest⟩ := shape
        simp only [byteLength] at length
        exact ⟨taken, left, rest, by omega⟩
    · rintro ⟨taken, left, shape, length⟩
      refine ⟨character :: taken, left, by rw [List.cons_append, shape]; rfl, ?_⟩
      simp only [byteLength, length]
      omega

end Text

namespace Color

theorem cutBytes_eq_ok_iff {count : Nat} {text front back : List Char} :
    cutBytes count text = .ok (front, back) ↔
      text = front ++ back ∧ Text.byteLength front = count := by
  fun_induction cutBytes count text generalizing front with
  | case1 rest =>
    rw [Text.byteLength_eq_zero_iff]
    constructor
    · intro same
      cases same
      exact ⟨rfl, rfl⟩
    · rintro ⟨rfl, rfl⟩
      rfl
  | case2 bytes =>
    simp only [reduceCtorEq, false_iff]
    rintro ⟨shape, length⟩
    rw [(List.append_eq_nil_iff.1 shape.symm).1] at length
    cases length
  | case3 bytes character rest fits ih =>
    rw [except_bind_eq_ok_iff]
    constructor
    · rintro ⟨⟨taken, left⟩, cut, same⟩
      cases same
      obtain ⟨rfl, length⟩ := ih.1 cut
      refine ⟨rfl, ?_⟩
      simp only [Text.byteLength, length]
      omega
    · rintro ⟨shape, length⟩
      cases front with
      | nil => cases length
      | cons first front =>
        rw [List.cons_append, List.cons.injEq] at shape
        obtain ⟨rfl, rfl⟩ := shape
        simp only [Text.byteLength] at length
        exact ⟨(front, back), ih.2 ⟨rfl, by omega⟩, rfl⟩
  | case4 bytes character rest long =>
    simp only [reduceCtorEq, false_iff]
    rintro ⟨shape, length⟩
    cases front with
    | nil => cases length
    | cons first front =>
      rw [List.cons_append, List.cons.injEq] at shape
      obtain ⟨rfl, _⟩ := shape
      simp only [Text.byteLength] at length
      omega

theorem cutBytes_failsJust (count : Nat) (text : List Char) :
    FailsJust .outOfBounds (¬ Text.IsBoundary count text) (cutBytes count text) := by
  have ends : cutBytes count text = .error .outOfBounds ∨ Succeeds (cutBytes count text) := by
    fun_induction cutBytes count text with
    | case1 rest => exact .inr ⟨_, rfl⟩
    | case2 bytes => exact .inl rfl
    | case3 bytes character rest fits ih =>
      rcases ih with failed | ⟨⟨taken, left⟩, cut⟩
      · exact .inl (by rw [failed]; rfl)
      · exact .inr ⟨_, by rw [cut]; rfl⟩
    | case4 bytes character rest long => exact .inl rfl
  constructor
  · rintro inside
    refine ends.resolve_right ?_
    rintro ⟨⟨front, back⟩, cut⟩
    exact inside ⟨front, back, cutBytes_eq_ok_iff.1 cut⟩
  · intro cuts
    obtain ⟨front, back, cut⟩ := Classical.not_not.1 cuts
    exact ⟨_, cutBytes_eq_ok_iff.2 cut⟩

/-! ## Colours in hexadecimal digits -/

/-- The strength of a component in stretches of so many bytes. -/
def hexPart? (width : Nat) (stretch : List Char) : Option UInt8 :=
  component? 16 (if width = 1 then stretch ++ stretch else stretch)

/-- One of the cuts into three stretches falls inside a character. The second cut is made only
behind a first component that can be read. -/
def HexCuts (width : Nat) (hex : List Char) : Prop :=
  ¬ Text.IsBoundary width hex ∨
    ∃ first rest, hex = first ++ rest ∧ Text.byteLength first = width ∧
      (hexPart? width first).isSome ∧ ¬ Text.IsBoundary (2 * width) hex

theorem ofHex_failsJust {width : Nat} {hex : List Char} (length : Text.byteLength hex = 3 * width) :
    FailsJust .outOfBounds (HexCuts width hex) (ofHex width hex) := by
  refine (cutBytes_failsJust width hex).bind ?_
  rintro ⟨first, rest⟩ cut
  obtain ⟨rfl, size⟩ := cutBytes_eq_ok_iff.1 cut
  have twice : Text.IsBoundary (2 * width) (first ++ rest) ↔ Text.IsBoundary width rest := by
    rw [Nat.two_mul, ← Text.isBoundary_append first rest width, size]
  have later : (hexPart? width first).isSome ∧ ¬ Text.IsBoundary width rest ↔
      ∃ other left, first ++ rest = other ++ left ∧ Text.byteLength other = width ∧
        (hexPart? width other).isSome ∧ ¬ Text.IsBoundary (2 * width) (first ++ rest) := by
    rw [twice]
    constructor
    · rintro ⟨part, inside⟩
      exact ⟨first, rest, rfl, size, part, inside⟩
    · rintro ⟨other, left, same, also, part, inside⟩
      have again := cutBytes_eq_ok_iff.2 ⟨same, also⟩
      rw [cut] at again
      cases again
      exact ⟨part, inside⟩
  have spelled : ∀ stretch, component? 16 (if width = 1 then stretch ++ stretch else stretch)
      = hexPart? width stretch := fun _ => rfl
  refine FailsJust.congr ?_ later
  simp only [spelled]
  cases hexPart? width first with
  | none => exact (FailsJust.of_succeeds ⟨none, rfl⟩).congr (by simp)
  | some redPart =>
    have whole : ∀ condition : Prop, (condition ∨ False ↔ (some redPart).isSome ∧ condition) := by
      simp
    refine FailsJust.congr ((cutBytes_failsJust width rest).bind ?_) (whole _)
    rintro ⟨second, left⟩ cut
    obtain ⟨rfl, also⟩ := cutBytes_eq_ok_iff.1 cut
    have remains : Text.byteLength left = width := by
      simp only [Text.byteLength_append, size, also] at length
      omega
    have ending := cutBytes_eq_ok_iff.2 ⟨(List.append_nil left).symm, remains⟩
    dsimp only
    cases hexPart? width second with
    | none => exact .of_succeeds ⟨none, rfl⟩
    | some greenPart =>
      refine .of_succeeds (Succeeds.bind_of_eq ending ?_)
      dsimp only
      cases hexPart? width left with
      | none => exact ⟨none, rfl⟩
      | some bluePart => exact ⟨_, rfl⟩

/-! ## Whole texts -/

/-- The names of colours. -/
def names : List (String × Color) := [
  ("black", .black), ("red", .red), ("green", .green), ("yellow", .yellow), ("blue", .blue),
  ("magenta", .magenta), ("cyan", .cyan), ("gray", .gray), ("grey", .gray),
  ("darkgray", .darkGray), ("darkgrey", .darkGray), ("white", .white),
  ("orange", .rgb ⟨255, 165, 0⟩)]

theorem named?_eq_none {character : Char} {text : List Char} (member : character ∈ text)
    (foreign : ∀ entry ∈ names, character ∉ entry.1.toList) : named? text = none := by
  change names.lookup (String.ofList text) = none
  rw [List.lookup_eq_none_iff]
  intro entry listed
  have different : String.ofList text ≠ entry.1 := by
    intro same
    exact foreign entry listed (by rw [← same, String.toList_ofList]; exact member)
  simpa using different

theorem named?_hex (hex : List Char) : named? ('#' :: hex) = none :=
  named?_eq_none List.mem_cons_self (by decide)

/-- A number sign and as many bytes as three components of one or two digits have, which cannot be
cut into these components. -/
def CutsCharacter (text : String) : Prop :=
  ∃ width hex, (width = 1 ∨ width = 2) ∧ Text.lowercase (Text.trim text.toList) = '#' :: hex ∧
    Text.byteLength hex = 3 * width ∧ HexCuts width hex

theorem parse_hex {text : String} {hex : List Char}
    (sign : Text.lowercase (Text.trim text.toList) = '#' :: hex) :
    parse text = if Text.byteLength hex = 6 then ofHex 2 hex
      else if Text.byteLength hex = 3 then ofHex 1 hex else .ok (ofTriple? ('#' :: hex)) := by
  simp only [parse, sign, named?_hex]

theorem parse_unsigned {text : String}
    (plain : ∀ hex, Text.lowercase (Text.trim text.toList) ≠ '#' :: hex) :
    Succeeds (parse text) := by
  unfold parse
  dsimp only
  split
  next color _ => exact ⟨some color, rfl⟩
  next =>
    split
    next hex sign => exact absurd sign (plain hex)
    next => exact ⟨_, rfl⟩

/-- Reading a colour stops with a fault just when the text cannot be cut into its components. -/
theorem parse_failsJust (text : String) :
    FailsJust .outOfBounds (CutsCharacter text) (parse text) := by
  by_cases sign : ∃ hex, Text.lowercase (Text.trim text.toList) = '#' :: hex
  · obtain ⟨hex, sign⟩ := sign
    have cuts : ∀ width, (width = 1 ∨ width = 2) → Text.byteLength hex = 3 * width →
        (HexCuts width hex ↔ CutsCharacter text) := by
      intro width known length
      constructor
      · intro inside
        exact ⟨width, hex, known, sign, length, inside⟩
      · rintro ⟨other, again, _, alsoSign, alsoLength, inside⟩
        cases sign.symm.trans alsoSign
        obtain rfl : width = other := by omega
        exact inside
    rw [parse_hex sign]
    split
    next six => exact (ofHex_failsJust six).congr (cuts 2 (.inr rfl) six)
    next notSix =>
      split
      next three => exact (ofHex_failsJust three).congr (cuts 1 (.inl rfl) three)
      next notThree =>
        refine (FailsJust.of_succeeds ⟨_, rfl⟩).congr ?_
        simp only [false_iff]
        rintro ⟨width, again, known, alsoSign, length, _⟩
        cases sign.symm.trans alsoSign
        omega
  · refine (FailsJust.of_succeeds (parse_unsigned fun hex same => sign ⟨hex, same⟩)).congr ?_
    simp only [false_iff]
    rintro ⟨_, hex, _, same, _⟩
    exact sign ⟨hex, same⟩

end Color

end GuildRoster
