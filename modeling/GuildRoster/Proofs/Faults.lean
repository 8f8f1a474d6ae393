import GuildRoster.Fault

/-!
# When computations fail

A computation either has an answer or stops with a fault. Most steps always have one; where a single
condition decides, it carries over from the steps of a computation to the whole.
-/

set_option autoImplicit false

namespace GuildRoster

variable {α β σ : Type}

/-- A computation that ends with an answer. -/
def Succeeds (computation : Except Fault α) : Prop := ∃ value, computation = .ok value

/-- A computation that stops with one fault under a condition and has an answer otherwise. -/
structure FailsJust (fault : Fault) (condition : Prop) (computation : Except Fault α) : Prop where
  fails : condition → computation = .error fault
  succeeds : ¬ condition → Succeeds computation

theorem Succeeds.bind {first : Except Fault α} {next : α → Except Fault β}
    (succeeds : Succeeds first) (continues : ∀ value, first = .ok value → Succeeds (next value)) :
    Succeeds (first >>= next) := by
  obtain ⟨value, found⟩ := succeeds
  obtain ⟨result, after⟩ := continues value found
  exact ⟨result, except_bind_eq_ok_iff.2 ⟨value, found, after⟩⟩

theorem Succeeds.bind_of_eq {first : Except Fault α} {next : α → Except Fault β} {value : α}
    (found : first = .ok value) (continues : Succeeds (next value)) :
    Succeeds (first >>= next) := by
  rw [found]
  exact continues

theorem Succeeds.foldlM {items : List β} {step : σ → β → Except Fault σ}
    (steps : ∀ state, ∀ item ∈ items, Succeeds (step state item)) (state : σ) :
    Succeeds (items.foldlM step state) := by
  induction items generalizing state with
  | nil => exact ⟨state, rfl⟩
  | cons item items ih =>
    rw [List.foldlM_cons]
    refine (steps state item List.mem_cons_self).bind fun next _ => ih ?_ next
    intro state other member
    exact steps state other (List.mem_cons_of_mem item member)

theorem Succeeds.mapM {items : List α} {compute : α → Except Fault β}
    (each : ∀ item ∈ items, Succeeds (compute item)) : Succeeds (items.mapM compute) := by
  induction items with
  | nil => exact ⟨[], rfl⟩
  | cons item items ih =>
    rw [List.forall_mem_cons] at each
    rw [List.mapM_cons]
    refine each.1.bind fun result _ => (ih each.2).bind fun results _ => ?_
    exact ⟨result :: results, rfl⟩

/-- Each result of a list of computations is that of the item in its place. -/
theorem mapM_eq_ok {items : List α} {compute : α → Except Fault β} {results : List β}
    (done : items.mapM compute = .ok results) :
    results.length = items.length ∧ ∀ (index : Nat) (item : α) (result : β),
      items[index]? = some item → results[index]? = some result → compute item = .ok result := by
  induction items generalizing results with
  | nil =>
    cases done
    exact ⟨rfl, by simp⟩
  | cons item items ih =>
    rw [List.mapM_cons, except_bind_eq_ok_iff] at done
    obtain ⟨result, first, others⟩ := done
    obtain ⟨results, later, shape⟩ := except_bind_eq_ok_iff.1 others
    cases shape
    obtain ⟨length, rest⟩ := ih later
    refine ⟨by simp [length], fun index other found there here => ?_⟩
    cases index with
    | zero =>
      cases there
      cases here
      exact first
    | succ index => exact rest index other found there here

namespace FailsJust

variable {fault : Fault} {condition other : Prop}

theorem of_succeeds {computation : Except Fault α} (succeeds : Succeeds computation) :
    FailsJust fault False computation :=
  ⟨False.elim, fun _ => succeeds⟩

theorem congr {computation : Except Fault α} (just : FailsJust fault condition computation)
    (same : condition ↔ other) : FailsJust fault other computation :=
  ⟨fun holds => just.fails (same.2 holds), fun fails => just.succeeds fun holds =>
    fails (same.1 holds)⟩

theorem bind {first : Except Fault α} {next : α → Except Fault β}
    (start : FailsJust fault condition first)
    (rest : ∀ value, first = .ok value → FailsJust fault other (next value)) :
    FailsJust fault (condition ∨ other) (first >>= next) := by
  by_cases holds : condition
  · refine ⟨fun _ => ?_, fun neither => absurd (.inl holds) neither⟩
    rw [start.fails holds]
    rfl
  · obtain ⟨value, found⟩ := start.succeeds holds
    have after := rest value found
    rw [found]
    refine ⟨fun either => ?_, fun neither => ?_⟩
    · exact after.fails (either.resolve_left holds)
    · exact after.succeeds fun also => neither (.inr also)

theorem foldlM {bad : β → Prop} {items : List β} {step : σ → β → Except Fault σ}
    (steps : ∀ state, ∀ item ∈ items, FailsJust fault (bad item) (step state item)) (state : σ) :
    FailsJust fault (∃ item ∈ items, bad item) (items.foldlM step state) := by
  induction items generalizing state with
  | nil => exact ⟨by simp, fun _ => ⟨state, rfl⟩⟩
  | cons item items ih =>
    rw [List.foldlM_cons]
    have others : ∀ state, ∀ item ∈ items, FailsJust fault (bad item) (step state item) :=
      fun state other member => steps state other (List.mem_cons_of_mem item member)
    have whole := (steps state item List.mem_cons_self).bind fun next _ => ih others next
    exact whole.congr (by simp)

theorem eq_error_iff {computation : Except Fault α}
    (just : FailsJust fault condition computation) {found : Fault} :
    computation = .error found ↔ condition ∧ found = fault := by
  constructor
  · intro failed
    by_cases holds : condition
    · rw [just.fails holds] at failed
      cases failed
      exact ⟨holds, rfl⟩
    · obtain ⟨value, answered⟩ := just.succeeds holds
      rw [answered] at failed
      cases failed
  · intro assumed
    rcases assumed with ⟨holds, rfl⟩
    exact just.fails holds

theorem succeeds_iff {computation : Except Fault α}
    (just : FailsJust fault condition computation) : Succeeds computation ↔ ¬ condition := by
  constructor
  · intro assumed holds
    rcases assumed with ⟨value, answered⟩
    rw [just.fails holds] at answered
    cases answered
  · exact just.succeeds

end FailsJust

end GuildRoster
