import GuildRoster.Export.Outcome
import GuildRoster.Proofs.FileTreeLaws
import GuildRoster.Source

/-!
# What runs do

The result of a run and the world after it, step by step. Logging changes nothing but the file of
the log, and leaves pictures alone even there.
-/

set_option autoImplicit false

namespace GuildRoster

/-! ## Carrying out a run -/

namespace World

/-- A world after entries were logged. -/
def recordAll (world : World) (entries : List LogEntry) : World := entries.foldl record world

/-- The file that keeps the log. -/
def logFile (world : World) : Option Location := world.log.map (·.location)

end World

namespace Run

variable {α β : Type}

/-- The result of a run and the world after it. -/
def exec (run : Run α) (world : World) : Except Fault α × World :=
  StateT.run (ExceptT.run run) world

@[simp] theorem exec_pure (value : α) (world : World) :
    exec (pure value) world = (.ok value, world) := rfl

@[simp] theorem exec_get (world : World) : exec get world = (.ok world, world) := rfl

@[simp] theorem exec_modify (change : World → World) (world : World) :
    exec (modify change) world = (.ok (), change world) := rfl

theorem exec_bind (run : Run α) (next : α → Run β) (world : World) :
    exec (run >>= next) world =
      match exec run world with
      | (.ok value, after) => exec (next value) after
      | (.error fault, after) => (.error fault, after) := by
  simp only [exec, ExceptT.run_bind, StateT.run_bind]
  cases StateT.run (ExceptT.run run) world with
  | mk result after =>
    cases result with
    | ok value => rfl
    | error fault => rfl

theorem exec_bind_ok {run : Run α} {next : α → Run β} {world after : World} {value : α}
    (done : exec run world = (.ok value, after)) :
    exec (run >>= next) world = exec (next value) after := by
  rw [exec_bind, done]

theorem exec_bind_error {run : Run α} {next : α → Run β} {world after : World} {fault : Fault}
    (failed : exec run world = (.error fault, after)) :
    exec (run >>= next) world = (.error fault, after) := by
  rw [exec_bind, failed]

theorem exec_map_ok {run : Run α} {world after : World} {value : α}
    (done : exec run world = (.ok value, after)) (change : α → β) :
    exec (change <$> run) world = (.ok (change value), after) := by
  rw [map_eq_pure_bind, exec_bind_ok done, exec_pure]

@[simp] theorem exec_ofExcept (computation : Except Fault α) (world : World) :
    exec (ofExcept computation) world = (computation, world) := by
  cases computation with
  | ok value => rfl
  | error fault => rfl

@[simp] theorem exec_record (entry : LogEntry) (world : World) :
    exec (record entry) world = (.ok (), world.record entry) := rfl

theorem exec_recordAll (entries : List LogEntry) (world : World) :
    exec (recordAll entries) world = (.ok (), world.recordAll entries) := by
  induction entries generalizing world with
  | nil => rfl
  | cons entry entries ih =>
    rw [recordAll, exec_bind_ok (exec_record entry world), ih]
    rfl

end Run

/-! ## How runs end -/

/-- What holds of the value that a run returns, or else of the fault that it stops with. -/
def Run.Ends {α : Type} (run : Run α) (world : World) (returns : α → Prop)
    (stops : Fault → Prop) : Prop :=
  match (exec run world).1 with
  | .ok value => returns value
  | .error fault => stops fault

namespace Run.Ends

variable {α β : Type} {run : Run α} {next : α → Run β} {world : World} {value : α}
  {returns : α → Prop} {results : β → Prop} {stops : Fault → Prop}

theorem pure (holds : returns value) : Ends (pure value) world returns stops := holds

theorem ofExcept {computation : Except Fault α}
    (ok : ∀ value, computation = .ok value → returns value)
    (error : ∀ fault, computation = .error fault → stops fault) :
    Ends (ofExcept computation) world returns stops := by
  unfold Ends
  rw [exec_ofExcept]
  cases computation with
  | ok value => exact ok value rfl
  | error fault => exact error fault rfl

theorem of_forall (ok : ∀ value, returns value) (error : ∀ fault, stops fault) :
    Ends run world returns stops := by
  unfold Ends
  cases (exec run world).1 with
  | ok value => exact ok value
  | error fault => exact error fault

theorem of_eq_ok (done : (exec run world).1 = .ok value) (holds : returns value) :
    Ends run world returns stops := by
  unfold Ends
  rw [done]
  exact holds

theorem bind (first : Ends run world returns stops)
    (rest : ∀ value after, returns value → exec run world = (.ok value, after) →
      Ends (next value) after results stops) :
    Ends (run >>= next) world results stops := by
  unfold Ends at first
  unfold Ends
  rw [exec_bind]
  cases done : exec run world with
  | mk result after =>
    rw [done] at first
    cases result with
    | ok value => exact rest value after first done
    | error fault => exact first

theorem returned {after : World} (ends : Ends run world returns stops)
    (done : exec run world = (.ok value, after)) : returns value := by
  unfold Ends at ends
  rwa [done] at ends

theorem stopped {after : World} {fault : Fault} (ends : Ends run world returns stops)
    (failed : exec run world = (.error fault, after)) : stops fault := by
  unfold Ends at ends
  rwa [failed] at ends

end Run.Ends

theorem Source.exec_askKeys (source : Source) (world : World) :
    Run.exec source.askKeys world =
      (.ok (source.keys world.files).1, world.recordAll (source.keys world.files).2) := by
  rw [askKeys, Run.exec_bind_ok (Run.exec_get world)]
  rw [Run.exec_bind_ok (Run.exec_recordAll _ world)]
  rfl

/-- What a source is asked for comes from the files that there are at that moment. -/
theorem Source.exec_askRoster (source : Source) (key : String) (world : World) :
    Run.exec (source.askRoster key) world =
      (.ok (source.roster key world.files).1,
        world.recordAll (source.roster key world.files).2) := by
  rw [askRoster, Run.exec_bind_ok (Run.exec_get world)]
  rw [Run.exec_bind_ok (Run.exec_recordAll _ world)]
  rfl

theorem ExportOutcome.exec_ofFault (fault : ExportFault) (world : World) :
    Run.exec (ofFault fault) world = (.ok (.failed fault.message),
      world.record ⟨.error, "sfroster::export", "Export failed: " ++ fault.message⟩) := rfl

/-! ## Runs that only log -/

theorem World.recordAll_append (world : World) (first second : List LogEntry) :
    world.recordAll (first ++ second) = (world.recordAll first).recordAll second :=
  List.foldl_append

/-- A run that changes the world only by logging, and whose value has a property. -/
def Run.Quiet {α : Type} (run : Run α) (returns : α → Prop) : Prop :=
  ∀ world, (∃ entries, (exec run world).2 = world.recordAll entries) ∧
    Ends run world returns fun _ => True

namespace Run.Quiet

variable {α β : Type} {run : Run α} {next : α → Run β} {value : α} {returns : α → Prop}
  {results : β → Prop}

theorem pure (holds : returns value) : Quiet (pure value) returns :=
  fun _ => ⟨⟨[], rfl⟩, holds⟩

theorem ofExcept {computation : Except Fault α}
    (ok : ∀ value, computation = .ok value → returns value) :
    Quiet (ofExcept computation) returns := by
  intro world
  refine ⟨⟨[], ?_⟩, .ofExcept ok fun _ _ => trivial⟩
  rw [exec_ofExcept]
  rfl

theorem bind (first : Quiet run returns)
    (rest : ∀ value, returns value → Quiet (next value) results) :
    Quiet (run >>= next) results := by
  intro world
  obtain ⟨⟨entries, logged⟩, ends⟩ := first world
  refine ⟨?_, ends.bind fun value after holds _ => (rest value holds after).2⟩
  rw [exec_bind]
  cases done : exec run world with
  | mk result after =>
    rw [done] at logged
    cases result with
    | error fault => exact ⟨entries, logged⟩
    | ok value =>
      obtain ⟨⟨more, also⟩, _⟩ := rest value (ends.returned done) after
      refine ⟨entries ++ more, ?_⟩
      dsimp only at logged ⊢
      rw [also, logged, World.recordAll_append]

theorem record (entry : LogEntry) : Quiet (record entry) fun _ => True :=
  fun _ => ⟨⟨[entry], rfl⟩, trivial⟩

theorem askRoster (source : Source) (key : String) :
    Quiet (source.askRoster key) fun _ => True := by
  intro world
  rw [Ends, source.exec_askRoster key world]
  exact ⟨⟨_, rfl⟩, trivial⟩

end Run.Quiet

end GuildRoster
