import GuildRoster.Text.Utf8

/-!
# The order of bytes

Texts compare in their UTF-8 form as they do character by character, so an order of texts by their
characters is their order by bytes.
-/

set_option autoImplicit false

namespace GuildRoster.Text

private theorem digits64 (number : Nat) : ∃ first second third fourth,
    second < 64 ∧ third < 64 ∧ fourth < 64 ∧
      number = 262144 * first + 4096 * second + 64 * third + fourth ∧
      number / 262144 = first ∧ number / 4096 % 64 = second ∧ number / 64 % 64 = third ∧
      number % 64 = fourth :=
  ⟨number / 262144, number / 4096 % 64, number / 64 % 64, number % 64, by omega, by omega,
    by omega, by omega, rfl, rfl, rfl, rfl⟩

private theorem fourBytes_lt {low high : Nat} (below : low < high) (most : high < 0x110000)
    (rest others : List UInt8) :
    UInt8.ofNat (low / 262144 % 8 + 0xf0) :: UInt8.ofNat (low / 4096 % 64 + 0x80) ::
        UInt8.ofNat (low / 64 % 64 + 0x80) :: UInt8.ofNat (low % 64 + 0x80) :: rest <
      UInt8.ofNat (high / 262144 % 8 + 0xf0) :: UInt8.ofNat (high / 4096 % 64 + 0x80) ::
        UInt8.ofNat (high / 64 % 64 + 0x80) :: UInt8.ofNat (high % 64 + 0x80) :: others := by
  obtain ⟨a, b, c, d, _, _, _, lowShape, lowLead, lowNext, lowLater, lowLast⟩ := digits64 low
  obtain ⟨e, f, g, h, _, _, _, highShape, highLead, highNext, highLater, highLast⟩ :=
    digits64 high
  simp only [List.cons_lt_cons_iff, UInt8.lt_iff_toNat_lt, ← UInt8.toNat_inj, UInt8.toNat_ofNat',
    lowLead, lowNext, lowLater, lowLast, highLead, highNext, highLater, highLast]
  have lead : ∀ digit, digit < 8 → (digit % 8 + 0xf0) % 2 ^ 8 = digit + 0xf0 := by omega
  rw [lead a (by omega), lead e (by omega)]
  clear lowLead lowNext lowLater lowLast highLead highNext highLater highLast
  subst lowShape highShape
  omega

/-- A lesser character has the lesser bytes, and the difference lies in these bytes whatever
follows them. -/
theorem utf8EncodeChar_append_lt {left right : Char} (less : left < right)
    (rest others : List UInt8) :
    String.utf8EncodeChar left ++ rest < String.utf8EncodeChar right ++ others := by
  have below : left.val.toNat < right.val.toNat := less
  have most : right.val.toNat < 0x110000 := by
    have valid := right.valid
    simp only [UInt32.isValidChar, Nat.isValidChar] at valid
    omega
  simp only [String.utf8EncodeChar]
  generalize left.val.toNat = low at below ⊢
  generalize right.val.toNat = high at below most ⊢
  -- One case for each pair of lengths; a longer form starts with the greater byte.
  split <;> split <;> (try split) <;> (try split) <;> (try split) <;> (try split)
  case isFalse.isFalse.isFalse.isFalse.isFalse.isFalse =>
    exact fourBytes_lt below most rest others
  all_goals
    simp only [List.cons_append, List.nil_append, List.cons_lt_cons_iff, UInt8.lt_iff_toNat_lt,
      ← UInt8.toNat_inj, UInt8.toNat_ofNat']
    omega

private theorem append_lt_append_iff (front left right : List UInt8) :
    front ++ left < front ++ right ↔ left < right := by
  induction front with
  | nil => rfl
  | cons byte front ih => simp [ih]

private theorem flatMap_utf8EncodeChar_lt_iff (left right : List Char) :
    left.flatMap String.utf8EncodeChar < right.flatMap String.utf8EncodeChar ↔ left < right := by
  induction left generalizing right with
  | nil =>
    cases right with
    | nil => simp
    | cons first right =>
      have nonempty : (first :: right).flatMap String.utf8EncodeChar ≠ [] := by simp
      obtain ⟨byte, bytes, shape⟩ := List.exists_cons_of_ne_nil nonempty
      simp [shape]
  | cons first left ih =>
    cases right with
    | nil => simp
    | cons other right =>
      rw [List.flatMap_cons, List.flatMap_cons, List.cons_lt_cons_iff]
      by_cases same : first = other
      · subst same
        simp [append_lt_append_iff, ih]
      · by_cases less : first < other
        · exact iff_of_true (utf8EncodeChar_append_lt less _ _) (.inl less)
        · have more : other < first := by
            apply Std.lt_of_le_of_ne (Std.not_lt.1 less)
            exact Ne.symm same
          have after := utf8EncodeChar_append_lt more (right.flatMap String.utf8EncodeChar)
            (left.flatMap String.utf8EncodeChar)
          exact iff_of_false (List.lt_asymm after) (by simp [less, same])

private theorem byteArray_toList (bytes : ByteArray) : bytes.toList = bytes.data.toList := by
  have loop : ∀ position reversed, ByteArray.toList.loop bytes position reversed
      = reversed.reverse ++ bytes.data.toList.drop position := by
    intro position reversed
    fun_induction ByteArray.toList.loop bytes position reversed with
    | case1 position reversed inside ih =>
      have here : position < bytes.data.size := inside
      have rest : bytes.data.toList.drop position
          = bytes.get! position :: bytes.data.toList.drop (position + 1) := by
        rw [List.drop_eq_getElem_cons (by simpa using here)]
        rw [ByteArray.get!, getElem!_pos bytes.data position here]
        rfl
      rw [ih, rest, List.reverse_cons, List.append_assoc, List.singleton_append]
    | case2 position reversed outside =>
      have past : bytes.data.size ≤ position := Nat.le_of_not_lt outside
      rw [List.drop_eq_nil_of_le (by simpa using past), List.append_nil]
  simpa [ByteArray.toList] using loop 0 []

theorem encode_eq_flatMap (text : String) :
    encode text = text.toList.flatMap String.utf8EncodeChar := by
  have bytes : text.toUTF8 = text.toList.utf8Encode := String.utf8Encode_toList.symm
  rw [encode, bytes, byteArray_toList, List.utf8Encode, List.toList_data_toByteArray]

theorem encode_lt_iff {left right : String} : encode left < encode right ↔ left < right := by
  rw [encode_eq_flatMap, encode_eq_flatMap, flatMap_utf8EncodeChar_lt_iff]
  rfl

end GuildRoster.Text
