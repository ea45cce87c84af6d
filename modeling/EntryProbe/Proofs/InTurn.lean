import EntryProbe.Proofs.Fates
import EntryProbe.Proofs.Quiet

/-!
# Tasks in turn

A build in place is a run of steps that each look at the files and leave them changed. Two
tasks can have the same file, by the same path or over links, and then the later one reads what
the earlier one has written. So what a task does is told of the files that it finds
(`EntryProbe.Build.Task.Yields`), and a run of tasks is told of the files between them
(`EntryProbe.Build.InTurn`). Both have one course (`EntryProbe.Build.Task.Yields.unique`,
`EntryProbe.Build.InTurn.unique`).

A build either takes all its tasks in turn, or it takes some of them in turn and stops at the
next one (`EntryProbe.Build.StopsAt`). A task that fails with an error, and one that finds
nothing to instrument, leaves the files as they are; that is what ties each way to end to the
tasks whose effects are there.

* `EntryProbe.Build.perform_runTasks_inTurn` – the run of a build is one or the other;
* `EntryProbe.Build.instrumentAll_inPlace` – what the files are after a build in place, for
  each of its results.
-/

namespace EntryProbe.Build

open Go Profiling

/-- **What a task comes to where its file is**: from the files that it finds, to its result and
the files that it leaves, whatever has happened before. -/
def Task.Yields (cwd : Location) (files : FileSystem) (task : Task) (result : Except Failure Bool)
    (after : FileSystem) : Prop :=
  ∀ events, ∃ events', (processInPlace cwd task.source task.profile).perform ⟨files, events⟩ =
    (result, ⟨after, events'⟩)

/-- **Tasks in turn**: each one succeeds, and finds the files that the one before it has left.
The answers tell whether its file was instrumented. -/
inductive InTurn (cwd : Location) : FileSystem → List Task → List Bool → FileSystem → Prop
  /-- There are no tasks left. -/
  | done {files : FileSystem} : InTurn cwd files [] [] files
  /-- A task succeeds, and the others follow. -/
  | step {files mid after : FileSystem} {task : Task} {rest : List Task} {found : Bool}
      {founds : List Bool} : task.Yields cwd files (.ok found) mid →
      InTurn cwd mid rest founds after → InTurn cwd files (task :: rest) (found :: founds) after

/-- **The tasks stop**: some are taken in turn, and the next one fails. -/
def StopsAt (cwd : Location) (files : FileSystem) (tasks : List Task) (failure : Failure)
    (after : FileSystem) : Prop :=
  ∃ done task rest founds mid, tasks = done ++ task :: rest ∧ InTurn cwd files done founds mid ∧
    task.Yields cwd mid (.error failure) after

section

variable {cwd : Location} {files mid after after' : FileSystem} {task : Task}
  {result result' : Except Failure Bool}

/-! ### One task -/

theorem Task.Yields.unique (h : task.Yields cwd files result after)
    (h' : task.Yields cwd files result' after') : result = result' ∧ after = after' := by
  obtain ⟨events, hrun⟩ := h []
  obtain ⟨events', hrun'⟩ := h' []
  rw [hrun] at hrun'
  cases hrun'
  exact ⟨rfl, rfl⟩

/-- A task comes to something, and that is to write to its file or to nothing. -/
theorem exists_yields (cwd : Location) (files : FileSystem) (task : Task) :
    ∃ result places after, task.Yields cwd files result after ∧
      task.Rewriting files cwd result places after := by
  obtain ⟨result, places, after, events, hrun, hwriting⟩ :=
    perform_processInPlace cwd task ⟨files, []⟩
  obtain ⟨result', after', added, -, hquiet⟩ :=
    quiet_processInPlace cwd task.source task.profile files
  rw [hquiet []] at hrun
  cases hrun
  exact ⟨result, places, after, fun events => ⟨_, hquiet events⟩, hwriting⟩

theorem Task.Yields.exists_rewriting (h : task.Yields cwd files result after) :
    ∃ places, task.Rewriting files cwd result places after := by
  obtain ⟨result', places, after', hyields, hwriting⟩ := exists_yields cwd files task
  obtain ⟨rfl, rfl⟩ := h.unique hyields
  exact ⟨places, hwriting⟩

/-- **A task that does not instrument its file leaves the files as they are**, unless it
crashes. -/
theorem Task.Yields.eq_of_ne (h : task.Yields cwd files result after) (hfound : result ≠ .ok true)
    (hcrash : result ≠ .error .crash) : after = files := by
  obtain ⟨places, hwriting⟩ := h.exists_rewriting
  cases hwriting with
  | failed _ _ => rfl
  | crashed _ _ _ _ => exact absurd rfl hcrash
  | kept _ => rfl
  | instrumented _ _ _ _ => exact absurd rfl hfound

/-- A task does not fail for the want of an entry point. -/
theorem Task.Yields.ne_noEntryPoint {error : Error}
    (h : task.Yields cwd files (.error (.error error)) after) : error ≠ .noEntryPoint := by
  obtain ⟨places, hwriting⟩ := h.exists_rewriting
  have hfate := hwriting.result_eq
  rintro rfl
  unfold Task.fate at hfate
  split at hfate
  · split at hfate
    · cases hfate
    split at hfate
    · cases hfate
    split at hfate
    · split at hfate <;> cases hfate
    · cases hfate
  · cases hfate

/-! ### Tasks in turn -/

variable {tasks : List Task} {founds founds' : List Bool}

/-- **Tasks in turn have one course.** -/
theorem InTurn.unique (h : InTurn cwd files tasks founds after)
    (h' : InTurn cwd files tasks founds' after') : founds = founds' ∧ after = after' := by
  induction h generalizing founds' with
  | done =>
    cases h'
    exact ⟨rfl, rfl⟩
  | step hyields _ ih =>
    cases h' with
    | step hyields' h' =>
      obtain ⟨hfound, rfl⟩ := hyields.unique hyields'
      cases hfound
      obtain ⟨rfl, rfl⟩ := ih h'
      exact ⟨rfl, rfl⟩

/-- Tasks that stop are not taken in turn. -/
theorem InTurn.not_stopsAt {failure : Failure} (h : InTurn cwd files tasks founds after) :
    ¬ StopsAt cwd files tasks failure after' := by
  rintro ⟨done, task, rest, founds', mid, rfl, hdone, hfails⟩
  induction hdone generalizing founds with
  | done =>
    cases h with
    | step hyields _ =>
      obtain ⟨hresult, -⟩ := hyields.unique hfails
      cases hresult
  | step hyields _ ih =>
    cases h with
    | step hyields' h =>
      obtain ⟨-, rfl⟩ := hyields.unique hyields'
      exact ih h hfails

/-- Tasks that find nothing to instrument leave the files as they are. -/
theorem InTurn.eq_of_count_eq_zero (h : InTurn cwd files tasks founds after)
    (hcount : founds.count true = 0) : after = files := by
  induction h with
  | done => rfl
  | @step files mid after task rest found founds hyields _ ih =>
    cases found with
    | true => simp at hcount
    | false =>
      obtain rfl := hyields.eq_of_ne nofun nofun
      exact ih (by simpa using hcount)

/-- **The run of a build in place**: all tasks are taken in turn, and those are counted whose
files were instrumented; or the tasks stop. -/
theorem perform_runTasks_inTurn (cwd : Location) (tasks : List Task) (world : World) :
    (∃ founds after events, (runTasks cwd true tasks).perform world =
        (.ok (founds.count true), ⟨after, events⟩) ∧ InTurn cwd world.files tasks founds after) ∨
    (∃ failure after events, (runTasks cwd true tasks).perform world =
        (.error failure, ⟨after, events⟩) ∧ StopsAt cwd world.files tasks failure after) := by
  induction tasks generalizing world with
  | nil => exact .inl ⟨[], _, _, rfl, .done⟩
  | cons task rest ih =>
    obtain ⟨result, -, mid, hyields, -⟩ := exists_yields cwd world.files task
    obtain ⟨_, hprocess⟩ := hyields world.events
    obtain ⟨events, hrun⟩ := perform_run_inPlace cwd task world
    rw [hprocess] at hrun
    rcases result with failure | found
    · exact .inr ⟨failure, mid, events, perform_runTasks_of_error hrun rest, [], task, rest, [], _,
        rfl, .done, hyields⟩
    rcases ih ⟨mid, events⟩ with ⟨founds, after, events', hrest, hturn⟩ |
      ⟨failure, after, events', hrest, done, other, behind, founds, last, rfl, hturn, hfails⟩
    · refine .inl ⟨found :: founds, after, events', ?_, .step hyields hturn⟩
      have hcount : (found :: founds).count true =
          (if found then 1 else 0) + founds.count true := by
        cases found <;> simp [Nat.add_comm]
      rw [perform_runTasks_of_ok hrun hrest, hcount]
      rfl
    · exact .inr ⟨failure, after, events', perform_runTasks_of_ok hrun hrest, task :: done, other,
        behind, found :: founds, last, rfl, .step hyields hturn, hfails⟩

end

/-- A build in place changes only the contents of files that the path of a source file leads
to. -/
theorem get?_of_instrumentAll_inPlace {cwd : Location} {tasks : List Task} {world after : World}
    {result : Except Failure Nat}
    (h : (instrumentAll cwd true tasks).perform world = (result, after)) (place : Location) :
    after.files.get? place = world.files.get? place ∨
      ∃ content content', world.files.get? place = some (.file content) ∧
        after.files.get? place = some (.file content') ∧
        ∃ task ∈ tasks, isSource task.source = true ∧
          world.files.resolve cwd task.source = .ok place := by
  obtain ⟨_, places, last, events, hrun, hruns⟩ := perform_runTasks_inPlace cwd tasks world
  rw [perform_instrumentAll, hrun] at h
  cases h
  by_cases hplace : place ∈ places
  · right
    obtain ⟨content, hfile⟩ := hruns.rewrites.isFile place hplace
    obtain ⟨content', hfile'⟩ := hruns.rewrites.sameShape.exists_file hfile
    obtain ⟨task, hmem, hresolve, hsource⟩ := hruns.exists_of_mem hplace
    exact ⟨content, content', hfile, hfile', task, hmem, hsource, hresolve⟩
  · exact .inl (hruns.rewrites.elsewhere place hplace)

/-- **What the files are after a build in place.** All that can have changed are the contents
of files that the path of a source file leads to. If no entry point was found, then nothing has
changed. With any other error, some tasks were taken in turn, and the files are as these have
left them: the next task, which has failed, and those behind it have done nothing. And the build
succeeds exactly if all its tasks can be taken in turn and instrument a file at least once; it
counts how often. -/
theorem instrumentAll_inPlace (cwd : Location) (tasks : List Task) (world after : World)
    (result : Except Failure Nat)
    (h : (instrumentAll cwd true tasks).perform world = (result, after)) :
    (∀ place, after.files.get? place = world.files.get? place ∨
      ∃ content content', world.files.get? place = some (.file content) ∧
        after.files.get? place = some (.file content') ∧
        ∃ task ∈ tasks, isSource task.source = true ∧
          world.files.resolve cwd task.source = .ok place) ∧
    (result = .error (.error .noEntryPoint) → after.files = world.files) ∧
    (∀ error, result = .error (.error error) → error ≠ .noEntryPoint →
      ∃ done task rest founds, tasks = done ++ task :: rest ∧
        InTurn cwd world.files done founds after.files ∧
        task.Yields cwd after.files (.error (.error error)) after.files) ∧
    (∀ count, result = .ok count ↔ ∃ founds last, InTurn cwd world.files tasks founds last ∧
      founds.count true = count ∧ 1 ≤ count) ∧
    (∀ founds last, InTurn cwd world.files tasks founds last → after.files = last) := by
  refine ⟨get?_of_instrumentAll_inPlace h, ?_⟩
  rw [perform_instrumentAll] at h
  rcases perform_runTasks_inTurn cwd tasks world with
    ⟨founds, last, events, hrun, hturn⟩ | ⟨failure, last, events, hrun, hstops⟩
  · -- all tasks are taken in turn, so that only the number of files that were found matters
    have hcourse : ∀ founds' last', InTurn cwd world.files tasks founds' last' →
        founds'.count true = founds.count true ∧ last = last' := by
      intro founds' last' hturn'
      obtain ⟨rfl, rfl⟩ := hturn.unique hturn'
      exact ⟨rfl, rfl⟩
    rw [hrun] at h
    by_cases hcount : founds.count true = 0
    · simp only [Except.bind, hcount, if_true] at h
      cases h
      refine ⟨fun _ => hturn.eq_of_count_eq_zero hcount, ?_, fun count => ?_,
        fun founds' last' hturn' => (hcourse founds' last' hturn').2⟩
      · intro error herror hne
        cases herror
        exact absurd rfl hne
      · refine iff_of_false nofun ?_
        rintro ⟨founds', last', hturn', rfl, hpos⟩
        rw [(hcourse founds' last' hturn').1, hcount] at hpos
        cases hpos
    · simp only [Except.bind, hcount, if_false] at h
      cases h
      refine ⟨nofun, nofun, fun count => ⟨?_, ?_⟩,
        fun founds' last' hturn' => (hcourse founds' last' hturn').2⟩
      · rintro ⟨⟩
        exact ⟨founds, last, hturn, rfl, Nat.pos_of_ne_zero hcount⟩
      · rintro ⟨founds', last', hturn', rfl, -⟩
        rw [(hcourse founds' last' hturn').1]
  · rw [hrun] at h
    cases h
    have hnone : ∀ founds last', ¬ InTurn cwd world.files tasks founds last' :=
      fun founds last' hturn => hturn.not_stopsAt hstops
    obtain ⟨done, task, rest, founds, mid, htasks, hdone, hfails⟩ := hstops
    refine ⟨?_, ?_, fun count => ?_, fun founds last' hturn => absurd hturn (hnone founds last')⟩
    · intro herror
      cases herror
      exact absurd rfl hfails.ne_noEntryPoint
    · intro error herror _
      cases herror
      obtain rfl := hfails.eq_of_ne nofun nofun
      exact ⟨done, task, rest, founds, htasks, hdone, hfails⟩
    · refine iff_of_false nofun ?_
      rintro ⟨founds, last', hturn, -⟩
      exact hnone founds last' hturn

/-- A program of a package is instrumented where it is. -/
theorem exists_yields_distantPackage : ∃ after,
    Task.Yields [] distantPackage.files ⟨⟨"d/main.go"⟩, ⟨"d/main.go"⟩, "p"⟩ (.ok true) after := by
  obtain ⟨out, hfate⟩ := exists_fate_distantPackage ⟨"d/main.go"⟩
  obtain ⟨result, places, after, hyields, hwriting⟩ :=
    exists_yields [] distantPackage.files ⟨⟨"d/main.go"⟩, ⟨"d/main.go"⟩, "p"⟩
  have hresult := hwriting.result_eq
  rw [hfate] at hresult
  obtain rfl : result = .ok true := hresult
  exact ⟨after, hyields⟩

theorem instrumentAll_inPlace_distant :
    (∃ after, (instrumentAll [] true [⟨⟨"d/main.go"⟩, ⟨"d/main.go"⟩, "p"⟩]).perform distantPackage =
      (.ok 1, after)) ∧
    (∃ after, (instrumentAll [] true [⟨⟨"data"⟩, ⟨"data"⟩, "p"⟩]).perform distantPackage =
      (.error (.error .noEntryPoint), after) ∧ after.files = distantPackage.files) ∧
    (∃ after done task rest founds,
      (instrumentAll [] true [⟨⟨"data"⟩, ⟨"data"⟩, "p"⟩, ⟨⟨"gone.go"⟩, ⟨"gone.go"⟩, "p"⟩,
        ⟨⟨"d/main.go"⟩, ⟨"d/main.go"⟩, "p"⟩]).perform distantPackage =
          (.error (.error (.read ⟨"gone.go"⟩ .notFound)), after) ∧
      [⟨⟨"data"⟩, ⟨"data"⟩, "p"⟩, ⟨⟨"gone.go"⟩, ⟨"gone.go"⟩, "p"⟩,
        ⟨⟨"d/main.go"⟩, ⟨"d/main.go"⟩, "p"⟩] = done ++ task :: rest ∧
      InTurn [] distantPackage.files done founds after.files) := by
  refine ⟨?_, ?_, ?_⟩
  · obtain ⟨last, hyields⟩ := exists_yields_distantPackage
    rcases hrun : (instrumentAll [] true [⟨⟨"d/main.go"⟩, ⟨"d/main.go"⟩, "p"⟩]).perform
      distantPackage with ⟨result, after⟩
    obtain ⟨-, -, -, hok, -⟩ := instrumentAll_inPlace [] _ _ _ _ hrun
    obtain rfl := (hok 1).mpr ⟨[true], last, .step hyields .done, rfl, Nat.le_refl 1⟩
    exact ⟨after, rfl⟩
  · have hresult : ((instrumentAll [] true [⟨⟨"data"⟩, ⟨"data"⟩, "p"⟩]).perform distantPackage).1 =
        .error (.error .noEntryPoint) := by decide
    exact ⟨_, Prod.ext hresult rfl,
      (instrumentAll_inPlace [] _ _ _ _ (Prod.ext hresult rfl)).2.1 rfl⟩
  · have hresult : ((instrumentAll [] true [⟨⟨"data"⟩, ⟨"data"⟩, "p"⟩,
        ⟨⟨"gone.go"⟩, ⟨"gone.go"⟩, "p"⟩, ⟨⟨"d/main.go"⟩, ⟨"d/main.go"⟩, "p"⟩]).perform
          distantPackage).1 = .error (.error (.read ⟨"gone.go"⟩ .notFound)) := by decide
    obtain ⟨done, task, rest, founds, htasks, hdone, -⟩ :=
      (instrumentAll_inPlace [] _ _ _ _ (Prod.ext hresult rfl)).2.2.1 _ rfl nofun
    exact ⟨_, done, task, rest, founds, Prod.ext hresult rfl, htasks, hdone⟩

end EntryProbe.Build
