import GuildRoster.Export
import GuildRoster.Proofs.FileTreeLaws
import GuildRoster.Proofs.PathLaws

/-!
# Blocks and their files

The blocks of a roster take its players in order, all but the last block as many as a picture has
room for. Each block has a path of its own, and no two of these paths lead to the same place.
-/

set_option autoImplicit false

namespace GuildRoster

/-! ## Cutting a roster into blocks -/

namespace Block

variable {α : Type} {size : Nat}

theorem flatten_chunks (size : Nat) (items : List α) : (chunks size items).flatten = items := by
  fun_induction chunks size items with
  | case1 => rfl
  | case2 item items ih => rw [List.flatten_cons, ih, List.cons_append, List.take_append_drop]

theorem chunks_append (positive : 0 < size) {first : List α} (full : first.length = size)
    (items : List α) : chunks size (first ++ items) = first :: chunks size items := by
  cases first with
  | nil =>
    rw [List.length_nil] at full
    omega
  | cons item others =>
    have length : others.length = size - 1 := by
      rw [List.length_cons] at full
      omega
    rw [List.cons_append, chunks, ← length, List.take_left, List.drop_left]

theorem chunks_ne_nil {items chunk : List α} (member : chunk ∈ chunks size items) :
    chunk ≠ [] := by
  fun_induction chunks size items with
  | case1 => cases member
  | case2 item items ih =>
    cases member with
    | head => exact List.cons_ne_nil _ _
    | tail _ later => exact ih later

theorem length_chunk_le (positive : 0 < size) {items chunk : List α}
    (member : chunk ∈ chunks size items) : chunk.length ≤ size := by
  fun_induction chunks size items with
  | case1 => cases member
  | case2 item items ih =>
    cases member with
    | head =>
      rw [List.length_cons, List.length_take]
      omega
    | tail _ later => exact ih later

/-- Only the last piece may be shorter than the others. -/
theorem length_chunk_of_dropLast (positive : 0 < size) {items chunk : List α}
    (member : chunk ∈ (chunks size items).dropLast) : chunk.length = size := by
  fun_induction chunks size items with
  | case1 => cases member
  | case2 item items ih =>
    cases others : chunks size (items.drop (size - 1)) with
    | nil =>
      rw [others] at member
      cases member
    | cons next rest =>
      rw [others, List.dropLast_cons_cons] at member
      rw [others] at ih
      cases member with
      | head =>
        have more : items.drop (size - 1) ≠ [] := by
          intro empty
          rw [empty, chunks] at others
          cases others
        rw [ne_eq, List.drop_eq_nil_iff] at more
        rw [List.length_cons, List.length_take]
        omega
      | tail _ later => exact ih later

/-- No block holds more players than a picture has room for. -/
theorem length_plan_le {roster block : Roster} {onlyMembers : Bool}
    (member : block ∈ plan roster onlyMembers) : block.length ≤ capacity := by
  cases onlyMembers with
  | false => exact length_chunk_le (by decide) member
  | true =>
    obtain rfl : block = (roster.take capacity).filter (·.isMember) := by simpa [plan] using member
    exact Nat.le_trans (List.length_filter_le _ _) (List.length_take_le _ _)

end Block

/-! ## Paths of blocks -/

namespace Export

/-- What the path of a block has behind the stem of the chosen path. -/
def blockEnding (index : Nat) : List Char :=
  (if index = 0 then [] else '_' :: Nat.toDigits 10 index) ++ '.' :: FileKind.png.extension

theorem blockEnding_injective {index other : Nat} (same : blockEnding index = blockEnding other) :
    index = other := by
  have numbers := List.append_cancel_right same
  by_cases zero : index = 0
  · by_cases alsoZero : other = 0
    · rw [zero, alsoZero]
    · simp [zero, alsoZero] at numbers
  · by_cases alsoZero : other = 0
    · simp [zero, alsoZero] at numbers
    · rw [if_neg zero, if_neg alsoZero, List.cons.injEq] at numbers
      have value := congrArg (Nat.ofDigitChars 10 · 0) numbers.2
      simpa [Nat.ofDigitChars_ten_toDigits] using value

theorem noSlash_blockEnding (index : Nat) : '/' ∉ blockEnding index := by
  have digits : '/' ∉ Nat.toDigits 10 index := by
    intro member
    have digit := Nat.isDigit_of_mem_toDigits (by decide) (by decide) member
    revert digit
    decide
  unfold blockEnding
  split
  · decide
  · simp [digits, FileKind.extension]

theorem isName_append_blockEnding (base : List Char) (index : Nat) :
    FileTree.IsName (base ++ blockEnding index) := by
  apply FileTree.isName_of_long
  simp only [blockEnding, FileKind.extension, List.length_append, List.length_cons]
  omega

private theorem relative_blockEnding (index : Nat) :
    Path.isAbsolute ⟨blockEnding index⟩ = false := by
  unfold blockEnding
  split
  · rfl
  · rfl

theorem blockPaths_eq (chosen : Path) (count : Nat) :
    blockPaths chosen count = (List.range count).map fun index =>
      ⟨(chosen.withExtension []).characters ++ blockEnding index⟩ := by
  simp only [blockPaths, blockEnding, List.append_assoc]

theorem length_blockPaths (chosen : Path) (count : Nat) :
    (blockPaths chosen count).length = count := by
  rw [blockPaths_eq, List.length_map, List.length_range]

theorem apart_of_endings {tree : FileTree} (base : List Char) {index other : Nat}
    (different : index ≠ other) :
    tree.Apart ⟨base ++ blockEnding index⟩ ⟨base ++ blockEnding other⟩ := by
  obtain ⟨front, last, pieces⟩ := Text.splitAt_append_last '/' base
  have start : ∀ index, tree.start ⟨base ++ blockEnding index⟩ = tree.start ⟨base⟩ := by
    intro index
    have same : Path.isAbsolute ⟨base ++ blockEnding index⟩ = Path.isAbsolute ⟨base⟩ := by
      cases base with
      | nil => exact relative_blockEnding index
      | cons first rest => rfl
    simp only [FileTree.start, same]
  have ending : ∀ index,
      Path.pieces ⟨base ++ blockEnding index⟩ = front ++ [last ++ blockEnding index] :=
    fun index => pieces _ (noSlash_blockEnding index)
  apply FileTree.apart_of_names ((start index).trans (start other).symm) (ending index)
    (ending other) (isName_append_blockEnding last index) (isName_append_blockEnding last other)
  intro same
  exact different (blockEnding_injective (List.append_cancel_left same))

theorem blockPaths_apart (tree : FileTree) (chosen : Path) (count : Nat) :
    (blockPaths chosen count).Pairwise tree.Apart := by
  rw [blockPaths_eq, List.pairwise_map]
  exact List.pairwise_lt_range.imp fun less => apart_of_endings _ (Nat.ne_of_lt less)

end Export

end GuildRoster
