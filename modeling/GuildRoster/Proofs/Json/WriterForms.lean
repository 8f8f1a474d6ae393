import GuildRoster.Json.Writer
import GuildRoster.Proofs.Json.Forms
import GuildRoster.Roster

/-!
# What the writer writes

The writer turns texts, whole numbers of 64 bits, lists and records into forms of themselves, at
every depth. Decimals and data that break off are no part of this: rosters have neither.
-/

set_option autoImplicit false

namespace GuildRoster.Json

/-! ## Texts -/

private theorem hexDigit_digitChar (digit : Nat) (small : digit < 16) :
    Text.digit? 16 (Nat.digitChar digit) = some digit := by
  revert small digit
  decide

private theorem controlUnit {code : Nat} (control : code < 0x20) :
    hexUnit? '0' '0' (Nat.digitChar (code / 16)) (Nat.digitChar (code % 16)) = some code := by
  have zero : Text.digit? 16 '0' = some 0 := by decide
  have high := hexDigit_digitChar (code / 16) (by omega)
  have low := hexDigit_digitChar (code % 16) (by omega)
  have whole : code / 16 * 16 + code % 16 = code := by omega
  simp [hexUnit?, Text.numberOf?, zero, high, low, whole]

theorem TextForm.escape_append (character : Char) {form characters : List Char}
    (written : TextForm form characters) :
    TextForm (Json.escape character ++ form) (character :: characters) := by
  unfold Json.escape
  split
  · subst_vars; exact .escape rfl written
  split
  · subst_vars; exact .escape rfl written
  split
  · subst_vars; exact .escape rfl written
  split
  · subst_vars; exact .escape rfl written
  split
  · subst_vars; exact .escape rfl written
  split
  · subst_vars; exact .escape rfl written
  split
  · subst_vars; exact .escape rfl written
  split
  next control =>
    have unit := controlUnit control
    have same : Char.ofNat character.toNat = character := Char.ofNat_toNat character
    have isUnit := TextForm.unit unit (by simp [isTrailing]; omega) (by simp [isLeading]; omega)
      written
    rwa [same] at isUnit
  next notQuote notBackslash _ _ _ _ _ visible =>
    exact .plain notQuote notBackslash visible written

theorem textForm_escaped (characters : List Char) :
    TextForm (characters.flatMap Json.escape) characters := by
  induction characters with
  | nil => exact .nil
  | cons character characters ih => exact ih.escape_append character

/-! ## Whole numbers -/

/-- The digits of a natural number. -/
def digitsOf (number : Nat) : List Nat :=
  (Nat.toDigits 10 number).map fun character => character.toNat - '0'.toNat

theorem digitsText_digitsOf (number : Nat) :
    digitsText (digitsOf number) = Nat.toDigits 10 number := by
  simp only [digitsText, digitsOf, List.map_map]
  refine (List.map_congr_left fun character member => ?_).trans (List.map_id _)
  have isDigit := Nat.isDigit_of_mem_toDigits (by decide) (by decide) member
  exact (digitChar_of_isDigit isDigit).2

theorem isDigits_digitsOf (number : Nat) : IsDigits (digitsOf number) where
  nonempty := by simp [digitsOf, Nat.toDigits_ne_nil]
  small := by
    intro digit member
    obtain ⟨character, written, rfl⟩ := List.mem_map.mp member
    have isDigit := Nat.isDigit_of_mem_toDigits (by decide) (by decide) written
    exact (digitChar_of_isDigit isDigit).1

theorem ofDigits_digitsOf (number : Nat) : ofDigits 0 (digitsOf number) = number := by
  have value := Nat.ofDigitChars_ten_toDigits (n := number)
  rw [Nat.ofDigitChars_eq_foldl] at value
  rw [ofDigits, digitsOf, List.foldl_map]
  simpa only [Nat.mul_comm] using value

private theorem digitChar_eq_zero {digit : Nat} (small : digit < 10)
    (zero : Nat.digitChar digit = '0') : digit = 0 := by
  revert small zero digit
  decide

theorem toDigits_head_zero {number : Nat}
    (zero : (Nat.toDigits 10 number).head? = some '0') : number = 0 := by
  induction number using Nat.strongRecOn with
  | _ number ih =>
    rw [Nat.toDigits_eq_if (by decide)] at zero
    split at zero
    next small => exact digitChar_eq_zero small (by simpa using zero)
    next large =>
      obtain ⟨first, others, shape⟩ :=
        List.exists_cons_of_ne_nil (Nat.toDigits_ne_nil (n := number / 10) (b := 10))
      have smaller := ih (number / 10) (by omega) (by simpa [shape] using zero)
      omega

theorem digitsOf_head_zero {number : Nat} (zero : (digitsOf number).head? = some 0) :
    digitsOf number = [0] := by
  have first : (Nat.toDigits 10 number).head? = some '0' := by
    rw [← digitsText_digitsOf, digitsText, List.head?_map, zero]
    rfl
  rw [toDigits_head_zero first]
  decide

theorem numberForm_natural (negative : Bool) (number : Nat) :
    NumberForm ((if negative then ['-'] else []) ++ Nat.toDigits 10 number)
      ⟨negative, digitsOf number, none, none⟩ := by
  have signed : (if negative then ['-'] else [], negative) ∈ [([], false), (['-'], true)] := by
    cases negative <;> simp
  have written := NumberForm.mk signed (isDigits_digitsOf number) digitsOf_head_zero .absent .absent
  simpa only [digitsText_digitsOf, List.append_nil] using written

theorem toList_toString_integer (value : Int) :
    (toString value).toList
      = (if decide (value < 0) then ['-'] else []) ++ Nat.toDigits 10 value.natAbs := by
  rw [Int.toString_eq_repr, Int.repr_eq_if]
  by_cases negative : value < 0
  · have magnitude : (-value).toNat = value.natAbs := by omega
    have notNatural : ¬ 0 ≤ value := by omega
    simp [negative, notNatural, magnitude]
  · have magnitude : value.toNat = value.natAbs := by omega
    have natural : 0 ≤ value := by omega
    simp [negative, natural, magnitude]

/-- A whole number is written as a form of itself if it fits 64 bits, with or without a sign. -/
theorem valueForm_integer {value : Int} (least : -9223372036854775808 ≤ value)
    (most : value < 18446744073709551616) : ValueForm (toString value).toList (.integer value) := by
  have written := ValueForm.number (numberForm_natural (decide (value < 0)) value.natAbs)
  have signed : (if decide (value < 0) then -(value.natAbs : Int) else value.natAbs) = value := by
    by_cases negative : value < 0
    · simp only [negative, decide_true, if_true]
      omega
    · simp only [negative, decide_false, Bool.false_eq_true, if_false]
      omega
  have noNegativeZero : ¬ (decide (value < 0) = true ∧ value.natAbs = 0) := by
    rw [decide_eq_true_eq]
    omega
  have datum : (⟨decide (value < 0), digitsOf value.natAbs, none, none⟩ : Numeral).datum
      = .integer value := by
    simp only [Numeral.datum, ofDigits_digitsOf, signed]
    exact if_pos ⟨rfl, rfl, noNegativeZero, least, most⟩
  rwa [toList_toString_integer, ← datum]

/-! ## Lists and records -/

/-- The writer writes a datum as a form of itself, however deep it stands. -/
def WritesForm (datum : Datum) : Prop := ∀ depth, ValueForm (writeAt depth datum) datum

theorem gap_newLine (depth : Nat) : Gap (newLine depth) := by
  intro character member
  simp only [newLine, List.mem_cons, List.mem_replicate] at member
  rcases member with rfl | ⟨_, rfl⟩ <;> decide

theorem writesForm_null : WritesForm .null := fun depth => by
  simpa [writeAt] using ValueForm.null

theorem writesForm_integer {value : Int} (least : -9223372036854775808 ≤ value)
    (most : value < 18446744073709551616) : WritesForm (.integer value) := fun depth => by
  simpa only [writeAt] using valueForm_integer least most

theorem writesForm_text (value : String) : WritesForm (.text value) := fun depth => by
  have written := ValueForm.text (textForm_escaped value.toList)
  rw [String.ofList_toList] at written
  simpa [writeAt, writeText] using written

private theorem itemsForm_written {first : Datum} {items : List Datum}
    (written : ∀ item ∈ first :: items, WritesForm item) (depth : Nat) {gap : List Char}
    (blank : Gap gap) :
    ItemsForm (writeAt depth first ++ writeItems depth items ++ gap) (first :: items) := by
  induction items generalizing first with
  | nil =>
    simpa [writeItems] using ItemsForm.last (written first List.mem_cons_self depth) blank
  | cons next items ih =>
    have others := ih fun item member => written item (List.mem_cons_of_mem first member)
    have more := ItemsForm.more (written first List.mem_cons_self depth) gap_nil
      (gap_newLine depth) others
    simpa [writeItems] using more

theorem writesForm_list {items : List Datum} (written : ∀ item ∈ items, WritesForm item) :
    WritesForm (.list items none) := by
  intro depth
  cases items with
  | nil => simpa [writeAt] using ValueForm.emptyList gap_nil
  | cons first items =>
    have body := itemsForm_written written (depth + 1) (gap_newLine depth)
    simpa [writeAt] using ValueForm.list (gap_newLine (depth + 1)) body

private theorem memberForm_written {member : String × Datum} (written : WritesForm member.2)
    (depth : Nat) :
    MemberForm (writeText member.1 ++ [':', ' '] ++ writeAt depth member.2) (.ok member.1)
      member.2 := by
  have blank : Gap [' '] := by
    simp only [Gap, List.mem_singleton, forall_eq]
    decide
  have keyed := KeyForm.text (textForm_escaped member.1.toList)
  have form := MemberForm.mk keyed gap_nil blank (written depth)
  rw [String.ofList_toList] at form
  simpa [writeText] using form

private theorem membersForm_written {first : String × Datum} {members : List (String × Datum)}
    (written : ∀ member ∈ first :: members, WritesForm member.2) (depth : Nat) {gap : List Char}
    (blank : Gap gap) :
    MembersForm (writeText first.1 ++ [':', ' '] ++ writeAt depth first.2
        ++ writeMembers depth (members.map fun entry => (.ok entry.1, entry.2)) ++ gap)
      ((first :: members).map fun entry => (.ok entry.1, entry.2)) := by
  induction members generalizing first with
  | nil =>
    have form := memberForm_written (written first List.mem_cons_self) depth
    simpa [writeMembers] using MembersForm.last form blank
  | cons next members ih =>
    have others := ih fun member inside => written member (List.mem_cons_of_mem first inside)
    have form := memberForm_written (written first List.mem_cons_self) depth
    have more := MembersForm.more form gap_nil (gap_newLine depth) others
    simpa [writeMembers, writeKey] using more

theorem writesForm_members {members : List (String × Datum)}
    (written : ∀ member ∈ members, WritesForm member.2) : WritesForm (.ofMembers members) := by
  intro depth
  cases members with
  | nil =>
    simpa [Datum.ofMembers, writeAt] using
      ValueForm.emptyRecord gap_nil
  | cons first members =>
    have body := membersForm_written written (depth + 1) (gap_newLine depth)
    simpa [Datum.ofMembers, writeAt, writeKey] using
      ValueForm.record (gap_newLine (depth + 1)) body

/-- What the writer writes for a datum reads as that datum. -/
theorem WritesForm.read_write {datum : Datum} (written : WritesForm datum) :
    Json.read (Json.write datum) = (datum, false) := by
  simpa [Json.write] using (written 0).read gap_nil gap_nil

end GuildRoster.Json
