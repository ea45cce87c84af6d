import EntryProbe.Proofs.Trails

/-!
# What becomes of a file

What becomes of the file of a task is decided by what is read from it, whether the result
goes to a new place or back to where the file was: the task fails, or the file stays as it
is, or an instrumented program takes its place (`EntryProbe.Build.Task.fate`). The two ways
to process a file differ in where the result goes, and in what is done with a file that
stays as it is.

* `EntryProbe.Build.Task.Outcome.result_eq` – the fate of a file that goes to a new place;
* `EntryProbe.Build.perform_processInPlace` – what a task does where its file is, which all
  else about builds in place is derived from;
* `EntryProbe.Build.perform_runTasks_inPlace`, `EntryProbe.Build.RunsInPlace.rewrites` – a run
  in place changes the contents of some files, and nothing else.
-/

namespace EntryProbe.Build

open Go Profiling

/-- **What becomes of the file of a task**: the text of the program that takes its place, or
nothing if it stays as it is. -/
def Task.fate (files : FileSystem) (cwd : Location) (task : Task) :
    Except Failure (Option String) :=
  if isSource task.source then
    match files.readText cwd task.source with
    | .error cause => .error (.error (.read task.source cause))
    | .ok text =>
      match parse text with
      | .error cause => .error (.error (.parse task.source cause))
      | .ok file =>
        if file.hasEntryPoint then
          match (instrument file task.profile).1.print with
          | some out => .ok (some out)
          | none => .error .crash
        else
          .ok none
  else
    .ok none

/-- The result of tasks with these fates: the number of the files that are instrumented, or
the first failure. -/
def tally : List (Except Failure (Option String)) → Except Failure Nat
  | [] => .ok 0
  | .error failure :: _ => .error failure
  | .ok text :: rest => (tally rest).map ((if text.isSome then 1 else 0) + ·)

theorem exists_of_map_eq_ok {ε α β : Type} {f : α → β} {result : Except ε α} {b : β}
    (h : result.map f = .ok b) : ∃ a, result = .ok a ∧ b = f a := by
  rcases result with cause | a <;> cases h
  exact ⟨a, rfl, rfl⟩

theorem eq_error_of_map {ε α β : Type} {f : α → β} {result : Except ε α} {cause : ε}
    (h : result.map f = .error cause) : result = .error cause := by
  rcases result with other | a <;> cases h
  rfl

/-- If no failure is met, there is none. -/
theorem exists_ok_of_tally {fates : List (Except Failure (Option String))} {count : Nat}
    (h : tally fates = .ok count) : ∀ fate ∈ fates, ∃ text, fate = .ok text := by
  induction fates generalizing count with
  | nil => exact nofun
  | cons fate rest ih =>
    rcases fate with failure | text
    · cases h
    · obtain ⟨others, hrest, -⟩ := exists_of_map_eq_ok h
      exact List.forall_mem_cons.mpr ⟨⟨text, rfl⟩, ih hrest⟩

/-- **If tasks fail, the reason is in their sources.** -/
theorem ofSource_of_tally {files : FileSystem} {cwd : Location} {tasks : List Task}
    {failure : Failure} (h : tally (tasks.map (Task.fate files cwd)) = .error failure) :
    failure.OfSource := by
  induction tasks with
  | nil => cases h
  | cons task rest ih =>
    rw [List.map_cons] at h
    rcases hfate : task.fate files cwd with other | text <;> rw [hfate] at h
    · cases h
      unfold Task.fate at hfate
      split at hfate
      · split at hfate
        · cases hfate
          exact .read
        · split at hfate
          · cases hfate
            exact .parse
          · split at hfate
            · split at hfate <;> cases hfate
              exact .crash
            · cases hfate
      · cases hfate
    · exact ih (eq_error_of_map h)

section

variable {files after : FileSystem} {cwd place spot : Location} {task : Task} {file : SourceFile}

/-- The fate of a program with an entry point. -/
theorem LeadsTo.fate_eq (h : LeadsTo files cwd task.source file) :
    task.fate files cwd = match (instrument file task.profile).1.print with
      | some out => .ok (some out)
      | none => .error .crash := by
  obtain ⟨text, htext, hparse⟩ := h.parse_eq
  simp only [Task.fate, h.isSource, htext, hparse, h.hasEntryPoint, if_true]

theorem StaysAsIs.fate_eq (h : StaysAsIs files cwd task.source) :
    task.fate files cwd = .ok none := by
  unfold Task.fate
  split
  · next hsource =>
    obtain ⟨text, file, htext, hparse, hentry⟩ := h hsource
    simp [htext, hparse, hentry]
  · rfl

/-- A program takes the place of a file only if the file has an entry point. -/
theorem exists_leadsTo_of_fate {out : String} (h : task.fate files cwd = .ok (some out)) :
    ∃ file, LeadsTo files cwd task.source file := by
  unfold Task.fate at h
  split at h
  · next hsource =>
    split at h
    · cases h
    next text htext =>
    split at h
    · cases h
    next file hparse =>
    split at h
    · next hentry => exact ⟨file, hsource, ⟨text, htext, hparse⟩, hentry⟩
    · cases h
  · cases h

/-- The fate of a file follows from what is read. -/
theorem fate_congr (h : after.readText cwd task.source = files.readText cwd task.source) :
    task.fate after cwd = task.fate files cwd := by
  rw [Task.fate, Task.fate, h]

/-- **A task whose destination is free does what is the fate of its file.** A file that stays
as it is gets a link. -/
theorem Task.Outcome.result_eq {result : Except Failure Bool} {node : Option Node}
    {absolute : Path} (h : task.Outcome files cwd spot result node)
    (hfree : files.get? spot = none)
    (habsolute : Path.absolute? cwd.path task.source = some absolute) :
    result = (task.fate files cwd).map Option.isSome ∧
      ∀ text, task.fate files cwd = .ok text →
        node = some (text.elim (.link absolute) .ofText) := by
  rcases h with ⟨hsource, herror⟩ | ⟨hsource, htext, herror⟩ | hwhy | ⟨hleads, -, hprint⟩ |
    ⟨hleads, -, hprint⟩ | ⟨hstays, -, heq⟩
  · simp [Task.fate, hsource, herror, Except.map]
  · simp [Task.fate, hsource, htext, herror, Except.map]
  · rcases hwhy with hoccupied | hnone
    · simp [FileSystem.occupied, hfree] at hoccupied
    · simp [hnone] at habsolute
  · simp [hleads.fate_eq, hprint, Except.map]
  · simp [hleads.fate_eq, hprint, Except.map]
  · rw [habsolute] at heq
    cases heq
    simp [hstays.fate_eq, Except.map]

/-! ### Files that are processed where they are -/

/-- **What a task does where its file is.** It gives a result, and it writes to the files at
some locations: at one, or at none. -/
inductive Task.Rewriting (files : FileSystem) (cwd : Location) (task : Task) :
    Except Failure Bool → List Location → FileSystem → Prop
  /-- The file cannot be read or parsed. -/
  | failed {failure : Failure} : task.fate files cwd = .error failure → failure ≠ .crash →
      Rewriting files cwd task (.error failure) [] files
  /-- The instrumented program cannot be printed, and the file is empty. -/
  | crashed {place : Location} {content : ByteArray} {after : FileSystem} :
      task.fate files cwd = .error .crash → files.resolve cwd task.source = .ok place →
      files.get? place = some (.file content) →
      FileSystem.ChangedAt files after place (.file .empty) →
      Rewriting files cwd task (.error .crash) [place] after
  /-- The file stays as it is. -/
  | kept : task.fate files cwd = .ok none → Rewriting files cwd task (.ok false) [] files
  /-- The instrumented program is written to the file. -/
  | instrumented {out : String} {place : Location} {content : ByteArray} {after : FileSystem} :
      task.fate files cwd = .ok (some out) → files.resolve cwd task.source = .ok place →
      files.get? place = some (.file content) →
      FileSystem.ChangedAt files after place (.ofText out) →
      Rewriting files cwd task (.ok true) [place] after

/-- **What processing a file where it is does.** -/
theorem perform_processInPlace (cwd : Location) (task : Task) (world : World) :
    ∃ result places after events,
      (processInPlace cwd task.source task.profile).perform world = (result, ⟨after, events⟩) ∧
      task.Rewriting world.files cwd result places after := by
  by_cases hprogram : ∃ file, LeadsTo world.files cwd task.source file
  · obtain ⟨file, hleads⟩ := hprogram
    obtain ⟨place, content, hplace, hbelow, hfile, -⟩ := hleads.exists_place
    obtain ⟨events, hrun⟩ := perform_processInPlace_of_leadsTo hleads hplace task.profile
    have hfate := hleads.fate_eq
    rw [hrun]
    rcases hprint : (instrument file task.profile).1.print with _ | out <;> rw [hprint] at hfate
    · exact ⟨_, _, _, events, rfl, .crashed hfate hplace hfile
        (FileSystem.changedAt_insert _ _ hbelow)⟩
    · exact ⟨_, _, _, events, rfl, .instrumented hfate hplace hfile
        (FileSystem.changedAt_insert_insert _ _ _ hbelow)⟩
  · by_cases hsource : isSource task.source = true
    · simp only [processInPlace, hsource, if_true, Action.perform_bind, perform_entryFile?]
      rcases htext : world.files.readText cwd task.source with cause | text
      · have hfate : task.fate world.files cwd = .error (.error (.read task.source cause)) := by
          simp [Task.fate, hsource, htext]
        exact ⟨_, [], _, _, rfl, .failed hfate (by simp)⟩
      simp only
      rcases hparse : parse text with cause | file
      · have hfate : task.fate world.files cwd = .error (.error (.parse task.source cause)) := by
          simp [Task.fate, hsource, htext, hparse]
        exact ⟨_, [], _, _, rfl, .failed hfate (by simp)⟩
      have hentry : file.hasEntryPoint = false := by
        rw [Bool.eq_false_iff]
        intro hentry
        exact hprogram ⟨file, hsource, ⟨text, htext, hparse⟩, hentry⟩
      have hstays : StaysAsIs world.files cwd task.source :=
        fun _ => ⟨text, file, htext, hparse, hentry⟩
      simp only [hentry]
      exact ⟨.ok false, [], _, _, rfl, .kept hstays.fate_eq⟩
    · rw [processInPlace, if_neg hsource]
      exact ⟨_, [], _, _, rfl, .kept (by rw [Task.fate, if_neg hsource])⟩

/-- **Only contents of files change**, and only at some locations. -/
structure Rewrites (files after : FileSystem) (places : List Location) : Prop where
  /-- There were files, and there still are. -/
  isFile : ∀ place ∈ places, ∃ content, files.get? place = some (.file content)
  /-- The same things stand everywhere. -/
  sameShape : files.SameShape after
  /-- All else is as it was. -/
  elsewhere : ∀ place, place ∉ places → after.get? place = files.get? place

theorem Rewrites.refl (files : FileSystem) : Rewrites files files [] :=
  ⟨nofun, .refl files, fun _ _ => rfl⟩

theorem Rewrites.trans {mid : FileSystem} {places places' : List Location}
    (h : Rewrites files mid places) (h' : Rewrites mid after places') :
    Rewrites files after (places ++ places') := by
  refine ⟨?_, h.sameShape.trans h'.sameShape, fun place hplace => ?_⟩
  · intro place hplace
    rcases List.mem_append.mp hplace with hplace | hplace
    · exact h.isFile place hplace
    · obtain ⟨content, hmid⟩ := h'.isFile place hplace
      exact h.sameShape.symm.exists_file hmid
  · simp only [List.mem_append, not_or] at hplace
    rw [h'.elsewhere place hplace.2, h.elsewhere place hplace.1]

theorem rewrites_of_changedAt {content content' : ByteArray}
    (hfile : files.get? place = some (.file content))
    (h : FileSystem.ChangedAt files after place (.file content')) :
    Rewrites files after [place] where
  isFile := by simpa using ⟨content, hfile⟩
  sameShape := h.sameShape hfile
  elsewhere spot hspot := h.elsewhere spot (by simpa using hspot)

section

variable {result : Except Failure Bool} {places : List Location}

/-- A task gives the result that is the fate of its file. -/
theorem Task.Rewriting.result_eq (h : task.Rewriting files cwd result places after) :
    result = (task.fate files cwd).map Option.isSome := by
  rcases h with ⟨hfate, -⟩ | ⟨hfate, -, -, -⟩ | hfate | ⟨hfate, -, -, -⟩ <;> rw [hfate] <;> rfl

theorem Task.Rewriting.rewrites (h : task.Rewriting files cwd result places after) :
    Rewrites files after places := by
  rcases h with - | ⟨-, -, hfile, hchanged⟩ | - | ⟨-, -, hfile, hchanged⟩
  · exact .refl files
  · exact rewrites_of_changedAt hfile hchanged
  · exact .refl files
  · exact rewrites_of_changedAt hfile hchanged

theorem Task.Rewriting.nodup (h : task.Rewriting files cwd result places after) :
    places.Nodup := by
  rcases h with - | - | - | - <;> simp

/-- A task writes only to the file that its source leads to, and only if that is a source
file. -/
theorem Task.Rewriting.eq_of_mem (h : task.Rewriting files cwd result places after)
    (hplace : place ∈ places) :
    files.resolve cwd task.source = .ok place ∧ isSource task.source = true := by
  have hsource : task.fate files cwd ≠ .ok none → isSource task.source = true := by
    intro hfate
    by_contra hnone
    exact hfate (by rw [Task.fate, if_neg hnone])
  rcases h with - | ⟨hfate, hresolve, -, -⟩ | - | ⟨hfate, hresolve, -, -⟩
  · cases hplace
  · obtain rfl := List.mem_singleton.mp hplace
    exact ⟨hresolve, hsource (by simp [hfate])⟩
  · cases hplace
  · obtain rfl := List.mem_singleton.mp hplace
    exact ⟨hresolve, hsource (by simp [hfate])⟩

/-- A file whose task is done holds the instrumented program, or is as it was. -/
theorem Task.Rewriting.get?_eq (h : task.Rewriting files cwd result places after)
    {text : Option String} (hfate : task.fate files cwd = .ok text)
    (hplace : files.resolve cwd task.source = .ok place) :
    after.get? place = text.elim (files.get? place) fun out => some (.ofText out) := by
  rcases h with ⟨hfate', -⟩ | ⟨hfate', -, -, -⟩ | hfate' | ⟨hfate', hplace', -, hchanged⟩ <;>
    rw [hfate'] at hfate <;> cases hfate
  · rfl
  · rw [hplace] at hplace'
    cases hplace'
    exact hchanged.here

end

/-! ### Runs in place -/

/-- **A run of tasks in place**: each one does what it does, up to the first one that fails.
The locations that are written to are told in order. -/
inductive RunsInPlace (cwd : Location) :
    FileSystem → List Task → Except Failure Nat → List Location → FileSystem → Prop
  /-- There are no tasks left. -/
  | done {files : FileSystem} : RunsInPlace cwd files [] (.ok 0) [] files
  /-- A task fails. -/
  | failed {files after : FileSystem} {task : Task} {rest : List Task} {failure : Failure}
      {places : List Location} : task.Rewriting files cwd (.error failure) places after →
      RunsInPlace cwd files (task :: rest) (.error failure) places after
  /-- A task is done, and the others follow. -/
  | step {files mid after : FileSystem} {task : Task} {rest : List Task} {found : Bool}
      {places places' : List Location} {result : Except Failure Nat} :
      task.Rewriting files cwd (.ok found) places mid →
      RunsInPlace cwd mid rest result places' after →
      RunsInPlace cwd files (task :: rest) (result.map ((if found then 1 else 0) + ·))
        (places ++ places') after

theorem perform_run_inPlace (cwd : Location) (task : Task) (world : World) :
    ∃ events, (task.run cwd true).perform world =
      (((processInPlace cwd task.source task.profile).perform world).1,
        ⟨((processInPlace cwd task.source task.profile).perform world).2.files, events⟩) := by
  simp only [Task.run, if_true, Action.perform_bind]
  rcases (processInPlace cwd task.source task.profile).perform world with ⟨failure | found, after⟩
  · exact ⟨after.events, rfl⟩
  · cases found
    · exact ⟨after.events, rfl⟩
    · exact ⟨_, rfl⟩

theorem perform_runTasks_inPlace (cwd : Location) (tasks : List Task) (world : World) :
    ∃ result places after events,
      (runTasks cwd true tasks).perform world = (result, ⟨after, events⟩) ∧
      RunsInPlace cwd world.files tasks result places after := by
  induction tasks generalizing world with
  | nil => exact ⟨_, _, _, _, rfl, .done⟩
  | cons task rest ih =>
    obtain ⟨result, places, mid, _, hprocess, hwriting⟩ := perform_processInPlace cwd task world
    obtain ⟨events, hrun⟩ := perform_run_inPlace cwd task world
    rw [hprocess] at hrun
    rcases result with failure | found
    · exact ⟨_, _, _, _, perform_runTasks_of_error hrun rest, .failed hwriting⟩
    · obtain ⟨others, places', after, events', hrest, hruns⟩ := ih ⟨mid, events⟩
      exact ⟨_, _, after, events', perform_runTasks_of_ok hrun hrest, .step hwriting hruns⟩

section

variable {tasks : List Task} {result : Except Failure Nat} {places : List Location}

/-- **A run in place changes the contents of some files, and nothing else.** -/
theorem RunsInPlace.rewrites (h : RunsInPlace cwd files tasks result places after) :
    Rewrites files after places := by
  induction h with
  | done => exact .refl _
  | failed hwriting => exact hwriting.rewrites
  | step hwriting _ ih => exact hwriting.rewrites.trans ih

/-- **A run in place writes only to files that the sources of its tasks lead to.** -/
theorem RunsInPlace.exists_of_mem (h : RunsInPlace cwd files tasks result places after)
    (hplace : place ∈ places) :
    ∃ task ∈ tasks, files.resolve cwd task.source = .ok place ∧ isSource task.source = true := by
  induction h with
  | done => cases hplace
  | failed hwriting => exact ⟨_, List.mem_cons_self, hwriting.eq_of_mem hplace⟩
  | @step _ _ _ task _ _ _ _ _ hwriting _ ih =>
    rcases List.mem_append.mp hplace with hplace | hplace
    · exact ⟨task, List.mem_cons_self, hwriting.eq_of_mem hplace⟩
    · obtain ⟨other, hmem, hresolve, hsource⟩ := ih hplace
      -- what was written does not change where the other sources lead
      rw [hwriting.rewrites.sameShape.resolve_eq] at hresolve
      exact ⟨other, List.mem_cons_of_mem _ hmem, hresolve, hsource⟩

end

end

/-- The program of the package is instrumented, wherever it goes. -/
theorem exists_fate_distantPackage (destination : Path) : ∃ out,
    Task.fate distantPackage.files [] ⟨⟨"d/main.go"⟩, destination, "p"⟩ = .ok (some out) := by
  obtain ⟨file, hleads, hearly⟩ := leadsTo_distantPackage
  obtain ⟨text, -, hparse⟩ := hleads.parse_eq
  obtain ⟨out, hout⟩ := exists_print_instrument hparse hearly "p"
  exact ⟨out, by rw [LeadsTo.fate_eq hleads, hout]⟩

end EntryProbe.Build
