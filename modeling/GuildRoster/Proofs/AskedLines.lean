import GuildRoster.Export.Destination
import GuildRoster.Proofs.Runs
import GuildRoster.Proofs.TrimmedTexts

/-!
# Questions answered line by line

Several questions asked one after the other take one line of the input each. The lines are those of
the bytes alone, so no question reads less or more than its own line, whatever is in the lines
before it: nothing, blanks or bytes that are no text.
-/

set_option autoImplicit false

namespace GuildRoster

namespace Text

/-! ## Lines of bytes -/

/-- The lines of bytes. Each ends with its only line feed, and the last one may lack it. -/
inductive InLines : List UInt8 → List (List UInt8) → Prop where
  | none : InLines [] []
  | unended {line : List UInt8} : line ≠ [] → 10 ∉ line → InLines line [line]
  | ended {content rest : List UInt8} {lines : List (List UInt8)} :
      10 ∉ content → InLines rest lines →
      InLines (content ++ 10 :: rest) ((content ++ [10]) :: lines)

theorem exists_inLines (bytes : List UInt8) : ∃ lines, InLines bytes lines := by
  induction bytes with
  | nil => exact ⟨[], .none⟩
  | cons byte bytes ih =>
    obtain ⟨lines, whole⟩ := ih
    by_cases same : byte = 10
    · subst same
      have nothing : (10 : UInt8) ∉ ([] : List UInt8) := List.not_mem_nil
      exact ⟨_, .ended nothing whole⟩
    · have other := Ne.symm same
      cases whole with
      | none => exact ⟨_, .unended (by simp) (by simpa using other)⟩
      | unended _ unbroken => exact ⟨_, .unended (by simp) (by simp [other, unbroken])⟩
      | ended unbroken later =>
        rw [← List.cons_append]
        exact ⟨_, .ended (by simp [other, unbroken]) later⟩

end Text

/-! ## Taking lines -/

namespace Destination

open Text (InLines)

theorem takeLine_of_unbroken {line : List UInt8} (unbroken : 10 ∉ line) :
    takeLine line = (line, []) := by
  induction line with
  | nil => rfl
  | cons byte line ih =>
    rw [List.mem_cons, not_or] at unbroken
    rw [takeLine, if_neg (Ne.symm unbroken.1), ih unbroken.2]

theorem takeLine_append {content : List UInt8} (unbroken : 10 ∉ content) (rest : List UInt8) :
    takeLine (content ++ 10 :: rest) = (content ++ [10], rest) := by
  induction content with
  | nil => rfl
  | cons byte content ih =>
    rw [List.mem_cons, not_or] at unbroken
    rw [List.cons_append, takeLine, if_neg (Ne.symm unbroken.1), ih unbroken.2]
    rfl

/-- Where there are bytes, the line that is taken is the first one, and the others stay. -/
theorem inLines_cases {input : List UInt8} {lines : List (List UInt8)}
    (whole : InLines input lines) :
    (input = [] ∧ lines = []) ∨ ∃ later, (takeLine input).1 ≠ [] ∧
      lines = (takeLine input).1 :: later ∧ InLines (takeLine input).2 later := by
  cases whole with
  | none => exact .inl ⟨rfl, rfl⟩
  | unended nonempty unbroken =>
    rw [takeLine_of_unbroken unbroken]
    exact .inr ⟨[], nonempty, rfl, .none⟩
  | ended unbroken later =>
    rw [takeLine_append unbroken]
    exact .inr ⟨_, by simp, rfl, later⟩

/-- Bytes have their lines in one way. -/
theorem inLines_unique {input : List UInt8} {lines others : List (List UInt8)}
    (whole : InLines input lines) (again : InLines input others) : lines = others := by
  induction lines generalizing input others with
  | nil =>
    rcases inLines_cases whole with ⟨rfl, _⟩ | ⟨_, _, shape, _⟩
    · rcases inLines_cases again with ⟨_, rfl⟩ | ⟨_, nonempty, _⟩
      · rfl
      · exact absurd rfl nonempty
    · cases shape
  | cons line lines ih =>
    rcases inLines_cases whole with ⟨_, shape⟩ | ⟨_, nonempty, shape, later⟩
    · cases shape
    · cases shape
      rcases inLines_cases again with ⟨rfl, _⟩ | ⟨_, _, rfl, rest⟩
      · exact absurd rfl nonempty
      · rw [ih later rest]

end Destination

/-! ## Questions -/

/-- A question for a destination: its title, the name that it suggests, and the kind of file. -/
structure Question where
  title : String
  name : String
  kind : FileKind
  deriving DecidableEq, Repr

namespace Question

def ask (question : Question) : Run (Option Path) :=
  Destination.asked.choose question.title question.name question.kind

/-- How a line answers a question, or the missing line. -/
inductive Answered (question : Question) : Option (List UInt8) → Option Path → Prop where
  | missing : Answered question none none
  | unreadable {line : List UInt8} :
      Text.decode? line = none → Answered question (some line) none
  | blank {line : List UInt8} {text : String} :
      Text.decode? line = some text → Text.Trims text.toList [] →
      Answered question (some line) (some (question.kind.complete (.ofString question.name)))
  | refused {line : List UInt8} {text : String} :
      Text.decode? line = some text → Text.Trims text.toList ['-'] →
      Answered question (some line) none
  | named {line : List UInt8} {text : String} {characters : List Char} :
      Text.decode? line = some text → Text.Trims text.toList characters →
      characters ≠ [] → characters ≠ ['-'] →
      Answered question (some line) (some (question.kind.complete ⟨characters⟩))

variable {question : Question}

/-- What is read as the answer to a question is how the line answers it. -/
theorem answered_iff {line : List UInt8} (nonempty : line ≠ []) {answer : Option Path} :
    question.Answered (some line) answer ↔
      Destination.answer question.kind (question.kind.complete (.ofString question.name)) line
        = answer := by
  have some : line.isEmpty = false := by simpa using nonempty
  simp only [Destination.answer, some, Bool.false_eq_true, if_false]
  constructor
  · intro answered
    cases answered with
    | unreadable undecodable => rw [undecodable]
    | blank decoded trims => simp only [decoded, Text.trim_of_trims trims]
    | refused decoded trims => simp only [decoded, Text.trim_of_trims trims]
    | named decoded trims nonempty other =>
      simp only [decoded, Text.trim_of_trims trims]
  · intro read
    cases decoded : Text.decode? line with
    | none =>
      rw [decoded] at read
      exact read ▸ .unreadable decoded
    | some text =>
      have trims := Text.trims_trim text.toList
      simp only [decoded] at read
      split at read
      next blank => exact read ▸ .blank decoded (blank ▸ trims)
      next refused => exact read ▸ .refused decoded (refused ▸ trims)
      next characters nonempty other => exact read ▸ .named decoded trims nonempty other

/-- A question takes the first line of the input for its answer and leaves the others. -/
theorem exec_ask (question : Question) {world : World} {lines : List (List UInt8)}
    (whole : Text.InLines world.input lines) :
    ∃ answer after, Run.exec question.ask world = (.ok answer, after) ∧
      (∀ other, question.Answered lines[0]? other ↔ other = answer) ∧
      Text.InLines after.input lines.tail := by
  refine ⟨Destination.answer question.kind (question.kind.complete (.ofString question.name))
    (Destination.takeLine world.input).1, _, rfl, ?_⟩
  rcases Destination.inLines_cases whole with ⟨empty, rfl⟩ | ⟨later, nonempty, rfl, rest⟩
  · rw [empty]
    refine ⟨fun other => ⟨fun answered => ?_, fun none => none ▸ .missing⟩, .none⟩
    cases answered
    rfl
  · refine ⟨fun other => ?_, rest⟩
    exact (answered_iff nonempty).trans eq_comm

/-- The questions of a list take the lines of the input in turn. -/
theorem exec_mapM_ask (questions : List Question) {world : World} {lines : List (List UInt8)}
    (whole : Text.InLines world.input lines) :
    ∃ answers after, Run.exec (questions.mapM ask) world = (.ok answers, after) ∧
      answers.length = questions.length ∧
      (∀ (index : Nat) (question : Question), questions[index]? = some question → ∀ answer,
        question.Answered lines[index]? answer ↔ answers[index]? = some answer) ∧
      Text.InLines after.input (lines.drop questions.length) := by
  induction questions generalizing world lines with
  | nil => exact ⟨[], world, rfl, rfl, by simp, whole⟩
  | cons question questions ih =>
    obtain ⟨answer, between, asked, answered, rest⟩ := exec_ask question whole
    obtain ⟨answers, after, others, length, each, left⟩ := ih rest
    refine ⟨answer :: answers, after, ?_, by simp [length], ?_, ?_⟩
    · rw [List.mapM_cons, Run.exec_bind_ok asked, Run.exec_bind_ok others]
      rfl
    · intro index other found
      cases index with
      | zero =>
        cases found
        intro given
        rw [answered given]
        simp [eq_comm]
      | succ index =>
        have later := each index other found
        rwa [List.getElem?_tail] at later
    · rwa [List.drop_tail] at left

/-- However many questions are asked, each is answered by the line of its own number alone, as the
lines of the bytes are, and just these lines are used up. -/
theorem answered_by_own_lines (questions : List Question) (world : World) :
    ∃ lines answers after, Text.InLines world.input lines ∧
      (∀ others, Text.InLines world.input others → others = lines) ∧
      Run.exec (questions.mapM ask) world = (.ok answers, after) ∧
      answers.length = questions.length ∧
      (∀ (index : Nat) (question : Question), questions[index]? = some question → ∀ answer,
        question.Answered lines[index]? answer ↔ answers[index]? = some answer) ∧
      Text.InLines after.input (lines.drop questions.length) := by
  obtain ⟨lines, whole⟩ := Text.exists_inLines world.input
  obtain ⟨answers, after, asked⟩ := exec_mapM_ask questions whole
  exact ⟨lines, answers, after, whole, fun _ others => Destination.inLines_unique others whole,
    asked⟩

/-- Questions for a picture and a table in turn. -/
def fourQuestions : List Question :=
  [⟨"Save as", "guild", .csv⟩, ⟨"Save as", "guild", .png⟩, ⟨"Save as", "guild", .csv⟩,
    ⟨"Save as", "guild", .png⟩]

/-- A line that is no text, a blank one, one without a line feed, and none. -/
theorem answered_by_own_lines_mixed :
    ∃ after, Run.exec (fourQuestions.mapM ask) { input := [255, 10, 10, 120] }
      = (.ok [none, some (.ofString "guild.png"), some (.ofString "x.csv"), none], after) := by
  obtain ⟨lines, answers, after, _, unique, asked, length, each, _⟩ :=
    answered_by_own_lines fourQuestions { input := [255, 10, 10, 120] }
  have unreadable : (10 : UInt8) ∉ [255] := by decide
  have nothing : (10 : UInt8) ∉ ([] : List UInt8) := List.not_mem_nil
  have whole : Text.InLines [255, 10, 10, 120] [[255, 10], [10], [120]] :=
    .ended unreadable (.ended nothing (.unended (by decide) (by decide)))
  have shape := unique _ whole
  subst shape
  have blank : Text.decode? [10] = some "\n" := by decide
  have named : Text.decode? [120] = some "x" := by decide
  have first := (each 0 _ rfl none).1 (.unreadable (by decide))
  have second := (each 1 _ rfl _).1 (.blank blank (Text.trims_iff.2 (by decide)))
  have third := (each 2 _ rfl (some (.ofString "x.csv"))).1
    (.named named (Text.trims_trim _) (by decide) (by decide))
  have fourth := (each 3 _ rfl _).1 .missing
  refine ⟨after, ?_⟩
  rw [asked]
  match answers, length with
  | [_, _, _, _], _ =>
    cases first
    cases second
    cases third
    cases fourth
    rfl

end Question

end GuildRoster
