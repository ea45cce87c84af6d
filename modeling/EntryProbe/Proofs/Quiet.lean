import EntryProbe.Build.Run
import EntryProbe.Proofs.InPlace

/-!
# Steps that do not start the compiler

Starting the compiler is one of the events that a build leaves behind
(`EntryProbe.Build.starts`). All the steps before it only leave notes, and nothing that they
do depends on what has happened already: a step is quiet if it takes the files to the same
result and adds the same events whatever the trace is, and the compiler is not started
(`EntryProbe.Build.Action.Quiet`). Quiet steps one after the other are quiet
(`EntryProbe.Build.Action.Quiet.bind`), so that this is shown along the steps of a task
(`EntryProbe.Build.quiet_process`, `EntryProbe.Build.quiet_processInPlace`), and then for a
build up to the compiler (`EntryProbe.Build.quiet_instrumentAll`).
-/

namespace EntryProbe.Build

open Go Profiling

/-- A start of the compiler, if the event is one. -/
def Event.start? : Event → Option (Location × List String)
  | .compiled dir arguments => some (dir, arguments)
  | _ => none

/-- **The starts of the compiler** in a trace: where it was started, and with which
arguments. -/
def starts (events : List Event) : List (Location × List String) :=
  events.filterMap Event.start?

@[simp] theorem starts_append (events events' : List Event) :
    starts (events ++ events') = starts events ++ starts events' :=
  List.filterMap_append

namespace Action

variable {α β ε : Type}

/-- **A quiet step**: it does not look at the trace, and adds events to it that do not start
the compiler. -/
def Quiet (action : Action α) : Prop :=
  ∀ files, ∃ result after added, starts added = [] ∧
    ∀ events, action.perform ⟨files, events⟩ = (result, ⟨after, events ++ added⟩)

/-- **Quiet steps one after the other.** -/
theorem Quiet.bind {action : Action α} {next : α → Action β} (h : action.Quiet)
    (hnext : ∀ a, (next a).Quiet) : (action >>= next).Quiet := by
  intro files
  obtain ⟨result, mid, added, hadded, hrun⟩ := h files
  rcases result with failure | a
  · refine ⟨.error failure, mid, added, hadded, fun events => ?_⟩
    rw [perform_bind, hrun]
  · obtain ⟨result, after, added', hadded', hrun'⟩ := hnext a mid
    refine ⟨result, after, added ++ added', by rw [starts_append, hadded, hadded']; rfl,
      fun events => ?_⟩
    rw [perform_bind, hrun]
    simp only [hrun', List.append_assoc]

theorem quiet_pure (a : α) : (pure a : Action α).Quiet :=
  fun files => ⟨.ok a, files, [], rfl, fun events => by rw [List.append_nil]; rfl⟩

theorem quiet_throw (failure : Failure) : (throw failure : Action α).Quiet :=
  fun files => ⟨.error failure, files, [], rfl, fun events => by rw [List.append_nil]; rfl⟩

theorem quiet_files : files.Quiet :=
  fun files => ⟨.ok files, files, [], rfl, fun events => by rw [List.append_nil]; rfl⟩

theorem quiet_setFiles (after : FileSystem) : (setFiles after).Quiet :=
  fun _ => ⟨.ok (), after, [], rfl, fun events => by rw [List.append_nil]; rfl⟩

theorem quiet_emit {event : Event} (h : event.start? = none) : (emit event).Quiet :=
  fun files => ⟨.ok (), files, [event], by simp [starts, h], fun _ => rfl⟩

theorem quiet_note (level : Level) (origin : Origin) (text : String) :
    (note level origin text).Quiet :=
  quiet_emit rfl

theorem quiet_orFail (error : ε → Error) (result : Except ε α) : (orFail error result).Quiet := by
  rcases result with cause | a
  · exact quiet_throw _
  · exact quiet_pure a

end Action

open EntryProbe.Build.Action

/-! ### The steps of a task -/

section

variable (cwd : Location)

theorem quiet_entryFile? (path : Path) : (entryFile? cwd path).Quiet := by
  refine quiet_files.bind fun files => (quiet_orFail _ _).bind fun text => ?_
  exact (quiet_orFail _ _).bind fun file => quiet_pure _

theorem quiet_instrumented (file : SourceFile) (profile : String) :
    (instrumented file profile).Quiet := by
  simp only [instrumented]
  split
  · exact (quiet_note _ _ _).bind fun _ => quiet_pure _
  · exact quiet_pure _

theorem quiet_writeFile (place : Location) (file : SourceFile) : (writeFile place file).Quiet := by
  refine quiet_files.bind fun files => (quiet_setFiles _).bind fun _ => ?_
  rcases file.print with _ | text
  · exact quiet_throw _
  · exact quiet_files.bind fun files => quiet_setFiles _

theorem quiet_duplicate (source target : Path) : (duplicate cwd source target).Quiet := by
  refine (quiet_note _ _ _).bind fun _ => quiet_files.bind fun files => ?_
  exact (quiet_setFiles _).bind fun _ => quiet_orFail _ _

theorem quiet_process (task : Task) : (task.process cwd).Quiet := by
  have hstays : (do duplicate cwd task.source task.destination; return false : Action Bool).Quiet :=
    (quiet_duplicate cwd _ _).bind fun _ => quiet_pure _
  unfold Task.process
  split
  · refine (quiet_entryFile? cwd _).bind fun file? => ?_
    rcases file? with _ | file
    · exact hstays
    · refine (quiet_instrumented file _).bind fun changed => quiet_files.bind fun files => ?_
      refine (quiet_orFail _ _).bind fun place => (quiet_writeFile place changed).bind fun _ => ?_
      exact quiet_pure _
  · exact hstays

theorem quiet_processInPlace (path : Path) (profile : String) :
    (processInPlace cwd path profile).Quiet := by
  unfold processInPlace
  split
  · refine (quiet_entryFile? cwd _).bind fun file? => ?_
    rcases file? with _ | file
    · exact quiet_pure _
    · refine (quiet_instrumented file _).bind fun changed => quiet_files.bind fun files => ?_
      refine (quiet_orFail _ _).bind fun place => (quiet_writeFile place changed).bind fun _ => ?_
      exact quiet_pure _
  · exact quiet_pure _

/-! ### The steps of a build -/

variable (inPlace : Bool)

theorem quiet_run (task : Task) : (task.run cwd inPlace).Quiet := by
  have hnoted : ∀ found : Bool, (do
      if found then
        note .info .build ("found and instrumented main() in " ++ task.source.text)
      return found : Action Bool).Quiet := by
    rintro (_ | _)
    · exact quiet_pure _
    · exact (quiet_note _ _ _).bind fun _ => quiet_pure _
  simp only [Task.run]
  split
  · exact (quiet_processInPlace cwd _ _).bind hnoted
  · exact (quiet_process cwd task).bind hnoted

theorem quiet_runTasks (tasks : List Task) : (runTasks cwd inPlace tasks).Quiet := by
  induction tasks with
  | nil => exact quiet_pure _
  | cons task rest ih =>
    exact (quiet_run cwd inPlace task).bind fun found => ih.bind fun others => quiet_pure _

/-- **Instrumenting the files of a build is quiet.** -/
theorem quiet_instrumentAll (tasks : List Task) : (instrumentAll cwd inPlace tasks).Quiet := by
  refine (quiet_runTasks cwd inPlace tasks).bind fun count => ?_
  split
  · exact (quiet_throw _).bind fun _ => quiet_pure _
  · exact quiet_pure _

end

end EntryProbe.Build
