import EntryProbe.Build.Plan
import EntryProbe.Proofs.InPlace
import EntryProbe.Proofs.Walks

/-!
# Builds with a work directory of their own

A build that does not change its sources in place leaves everything that exists as it
is. It only adds entries to its work directory, one for each task at most, and under the
name of the task's source (`EntryProbe.FileSystem.Adds`).

That an entry goes into the work directory and nowhere else rests on two facts. A
destination is a name below the work directory, so that it stands for one location
whatever links there are (`EntryProbe.FileSystem.entryOf_join`); and a file is created,
and a link made, only where nothing stands. What the tasks before have added does not
disturb the walk to the work directory (`EntryProbe.FileSystem.Extends.resolveDir`).

* `EntryProbe.Build.perform_process` – what one task does, which all else is derived
  from;
* `EntryProbe.Build.perform_runTasks` – what the tasks of a build do one after the other;
* `EntryProbe.Build.instrumentAll_untouched` – a whole build, however it ends.
-/

namespace EntryProbe

/-! ### Entries that are added to a directory -/

namespace FileSystem

/-- **Entries are added to a directory**, and nothing else changes. -/
structure Adds (before after : FileSystem) (dir : Location) (entries : List (String × Node)) :
    Prop where
  /-- There is one entry for a name. -/
  nodup : (entries.map Prod.fst).Nodup
  /-- Nothing was there before. -/
  fresh : ∀ entry ∈ entries, before.get? (dir ++ [entry.1]) = none
  /-- The entries are there now. -/
  here : ∀ entry ∈ entries, after.get? (dir ++ [entry.1]) = some entry.2
  /-- All else is as it was. -/
  elsewhere : ∀ place, (∀ entry ∈ entries, place ≠ dir ++ [entry.1]) →
    after.get? place = before.get? place

section

variable {first second third : FileSystem} {dir : Location}
  {entries entries' : List (String × Node)}

/-- **What was there is still there.** -/
theorem Adds.extends (h : Adds first second dir entries) : first.Extends second := by
  intro place node hnode
  rw [h.elsewhere place, hnode]
  rintro entry hentry rfl
  rw [h.fresh entry hentry] at hnode
  cases hnode

theorem Adds.refl (fs : FileSystem) (dir : Location) : Adds fs fs dir [] :=
  ⟨.nil, nofun, nofun, fun _ _ => rfl⟩

theorem Adds.trans (h : Adds first second dir entries) (h' : Adds second third dir entries') :
    Adds first third dir (entries ++ entries') := by
  refine ⟨?_, ?_, ?_, ?_⟩
  · -- a name that is there already is not added once more
    rw [List.map_append, List.nodup_append]
    refine ⟨h.nodup, h'.nodup, ?_⟩
    rintro name hname name' hname' rfl
    obtain ⟨entry, hentry, rfl⟩ := List.mem_map.mp hname
    obtain ⟨entry', hentry', hsame⟩ := List.mem_map.mp hname'
    have hfresh := h'.fresh entry' hentry'
    rw [hsame, h.here entry hentry] at hfresh
    cases hfresh
  · intro entry hentry
    rcases List.mem_append.mp hentry with hentry | hentry
    · exact h.fresh entry hentry
    · have hfresh := h'.fresh entry hentry
      rcases hnode : first.get? (dir ++ [entry.1]) with _ | node
      · rfl
      · rw [h.extends _ _ hnode] at hfresh
        cases hfresh
  · intro entry hentry
    rcases List.mem_append.mp hentry with hentry | hentry
    · exact h'.extends _ _ (h.here entry hentry)
    · exact h'.here entry hentry
  · intro place hplace
    rw [h'.elsewhere place fun entry hentry => hplace entry (List.mem_append_right _ hentry),
      h.elsewhere place fun entry hentry => hplace entry (List.mem_append_left _ hentry)]

theorem ChangedAt.adds {name : String} {node : Node}
    (h : ChangedAt first second (dir ++ [name]) node) (hfresh : first.get? (dir ++ [name]) = none) :
    Adds first second dir [(name, node)] where
  nodup := by simp
  fresh := by simpa using hfresh
  here := by simpa using h.here
  elsewhere place hplace := h.elsewhere place (hplace (name, node) (by simp))

end

/-- **A second place at a location**: a link is put there, or it cannot be had and nothing
happens. A copy is never made, because it would go where the link was refused. -/
theorem duplicateFile_entry {fs : FileSystem} {cwd spot : Location} {target : Path}
    (hentry : fs.entryOf cwd target = .ok (spot, false)) (source : Path) :
    (∃ cause, fs.duplicateFile cwd source target = (.error cause, fs) ∧
      (fs.occupied spot = true ∨ Path.absolute? cwd.path source = none)) ∨
    (∃ absolute, Path.absolute? cwd.path source = some absolute ∧ fs.get? spot = none ∧
      fs.duplicateFile cwd source target = (.ok (), fs.insert spot (.link absolute))) := by
  rcases habsolute : Path.absolute? cwd.path source with _ | absolute
  · exact .inl ⟨.emptyPath, by simp [duplicateFile, habsolute], .inr rfl⟩
  by_cases hoccupied : fs.occupied spot = true
  · left
    -- the link is refused, and then so is the copy, whether its source can be found or not
    rcases hresolve : fs.resolve cwd source with cause | found
    · refine ⟨cause, ?_, .inl hoccupied⟩
      simp [duplicateFile, habsolute, makeLink, newLinkEntry_eq hentry, hoccupied, copyFile,
        hresolve, bind, Except.bind]
    · refine ⟨.alreadyExists, ?_, .inl hoccupied⟩
      simp [duplicateFile, habsolute, makeLink, newLinkEntry_eq hentry, hoccupied, copyFile,
        hresolve, newEntry_eq hentry, bind, Except.bind]
  · right
    refine ⟨absolute, rfl, by simpa [occupied] using hoccupied, ?_⟩
    simp [duplicateFile, habsolute, makeLink, newLinkEntry_eq hentry, hoccupied, bind,
      Except.bind, pure, Except.pure]

end FileSystem

namespace Build

open Go Profiling

/-! ### One task -/

/-- The file that a path leads to stays as it is: its name is not that of a source file, or
the program in it has no entry point. -/
def StaysAsIs (files : FileSystem) (cwd : Location) (path : Path) : Prop :=
  isSource path = true → ∃ text file, files.readText cwd path = .ok text ∧ parse text = .ok file ∧
    file.hasEntryPoint = false

/-- **What a task does.** It gives a result, and it puts something at its destination, which
is the location `spot`, or nothing. -/
inductive Task.Outcome (files : FileSystem) (cwd spot : Location) (task : Task) :
    Except Failure Bool → Option Node → Prop
  /-- A source file cannot be read. -/
  | unreadable {cause : IoError} : isSource task.source = true →
      files.readText cwd task.source = .error cause →
      Outcome files cwd spot task (.error (.error (.read task.source cause))) none
  /-- A source file cannot be parsed. -/
  | malformed {text : String} {cause : SyntaxError} : isSource task.source = true →
      files.readText cwd task.source = .ok text → parse text = .error cause →
      Outcome files cwd spot task (.error (.error (.parse task.source cause))) none
  /-- Something stands at the destination, or the source has no path from the root. -/
  | refused {error : Error} :
      files.occupied spot = true ∨ Path.absolute? cwd.path task.source = none →
      Outcome files cwd spot task (.error (.error error)) none
  /-- An instrumented program cannot be printed. -/
  | crashed {file : SourceFile} : LeadsTo files cwd task.source file → files.get? spot = none →
      (instrument file task.profile).1.print = none →
      Outcome files cwd spot task (.error .crash) (some (.file .empty))
  /-- An instrumented program is written. -/
  | instrumented {file : SourceFile} {out : String} : LeadsTo files cwd task.source file →
      files.get? spot = none → (instrument file task.profile).1.print = some out →
      Outcome files cwd spot task (.ok true) (some (.ofText out))
  /-- A file that stays as it is gets a link. -/
  | linked {absolute : Path} : StaysAsIs files cwd task.source →
      files.get? spot = none → Path.absolute? cwd.path task.source = some absolute →
      Outcome files cwd spot task (.ok false) (some (.link absolute))

section

variable {cwd place : Location} {name : String} {world : World}

theorem perform_duplicate {spot : Location} {target : Path}
    (hentry : world.files.entryOf cwd target = .ok (spot, false)) (source : Path) :
    ∃ result after events,
      (duplicate cwd source target).perform world = (result, ⟨after, events⟩) ∧
      ((∃ cause, result = .error (.error (.duplicate source cause)) ∧ after = world.files ∧
        (world.files.occupied spot = true ∨ Path.absolute? cwd.path source = none)) ∨
      (∃ absolute, result = .ok () ∧ Path.absolute? cwd.path source = some absolute ∧
        world.files.get? spot = none ∧ after = world.files.insert spot (.link absolute))) := by
  simp only [duplicate, Action.perform_bind, Action.perform_note, Action.perform_files,
    Action.perform_setFiles, Action.perform_orFail]
  rcases FileSystem.duplicateFile_entry hentry source with
    ⟨cause, heq, hwhy⟩ | ⟨absolute, habsolute, hfree, heq⟩
  · exact ⟨_, _, _, by rw [heq], .inl ⟨cause, rfl, rfl, hwhy⟩⟩
  · exact ⟨_, _, _, by rw [heq], .inr ⟨absolute, rfl, habsolute, hfree, rfl⟩⟩

variable {task : Task}

/-- A file that stays as it is gets its second place. -/
theorem perform_process_of_staysAsIs
    (hentry : world.files.entryOf cwd task.destination = .ok (place ++ [name], false))
    (hstays : StaysAsIs world.files cwd task.source) :
    ∃ result node after events,
      (do duplicate cwd task.source task.destination; return false : Action Bool).perform world =
        (result, ⟨after, events⟩) ∧
      task.Outcome world.files cwd (place ++ [name]) result node ∧
      FileSystem.Adds world.files after place (node.toList.map (name, ·)) := by
  obtain ⟨result, after, events, hrun, hresult⟩ := perform_duplicate hentry task.source
  rw [Action.perform_bind, hrun]
  rcases hresult with ⟨cause, rfl, rfl, hwhy⟩ | ⟨absolute, rfl, habsolute, hfree, rfl⟩
  · exact ⟨_, none, _, _, rfl, .refused hwhy, .refl _ _⟩
  · refine ⟨_, some (.link absolute), _, _, rfl, .linked hstays hfree habsolute, ?_⟩
    exact (FileSystem.changedAt_insert _ _ (by simp)).adds hfree

/-- A program is instrumented and written to a new file. -/
theorem perform_process_of_leadsTo {file : SourceFile}
    (hentry : world.files.entryOf cwd task.destination = .ok (place ++ [name], false))
    (hleads : LeadsTo world.files cwd task.source file) :
    ∃ result node after events, (task.process cwd).perform world = (result, ⟨after, events⟩) ∧
      task.Outcome world.files cwd (place ++ [name]) result node ∧
      FileSystem.Adds world.files after place (node.toList.map (name, ·)) := by
  obtain ⟨text, htext, hparse⟩ := hleads.parse_eq
  obtain ⟨events, hinstrumented⟩ := perform_instrumented task.profile world file
  simp only [Task.process, hleads.isSource, if_true, Task.processSource, Action.perform_bind,
    perform_entryFile?, htext, hparse, hleads.hasEntryPoint, hinstrumented, Action.perform_files,
    Action.perform_orFail, FileSystem.newEntry_eq hentry]
  by_cases hoccupied : world.files.occupied (place ++ [name]) = true
  · simp only [hoccupied, if_true]
    exact ⟨_, none, _, _, rfl, .refused (.inl hoccupied), .refl _ _⟩
  have hfree : world.files.get? (place ++ [name]) = none := by
    simpa [FileSystem.occupied] using hoccupied
  simp only [hoccupied, if_false, perform_writeFile, Bool.false_eq_true]
  -- the new file is there before it is known whether the program can be printed
  rcases hprint : (instrument file task.profile).1.print with _ | out
  · refine ⟨_, some (.file .empty), _, _, rfl, .crashed hleads hfree hprint, ?_⟩
    exact (FileSystem.changedAt_insert _ _ (by simp)).adds hfree
  · refine ⟨_, some (.ofText out), _, _, rfl, .instrumented hleads hfree hprint, ?_⟩
    exact (FileSystem.changedAt_insert_insert _ _ _ (by simp)).adds hfree

/-- **What one task does**, if its destination is a name in a directory. -/
theorem perform_process
    (hentry : world.files.entryOf cwd task.destination = .ok (place ++ [name], false)) :
    ∃ result node after events, (task.process cwd).perform world = (result, ⟨after, events⟩) ∧
      task.Outcome world.files cwd (place ++ [name]) result node ∧
      FileSystem.Adds world.files after place (node.toList.map (name, ·)) := by
  by_cases hsource : isSource task.source = true
  · rcases htext : world.files.readText cwd task.source with cause | text
    · simp only [Task.process, hsource, if_true, Task.processSource, Action.perform_bind,
        perform_entryFile?, htext]
      exact ⟨_, none, _, _, rfl, .unreadable hsource htext, .refl _ _⟩
    rcases hparse : parse text with cause | file
    · simp only [Task.process, hsource, if_true, Task.processSource, Action.perform_bind,
        perform_entryFile?, htext, hparse]
      exact ⟨_, none, _, _, rfl, .malformed hsource htext hparse, .refl _ _⟩
    by_cases hprogram : file.hasEntryPoint = true
    · exact perform_process_of_leadsTo hentry ⟨hsource, ⟨text, htext, hparse⟩, hprogram⟩
    · rw [Bool.not_eq_true] at hprogram
      rw [Task.process, if_pos hsource, Task.processSource, Action.perform_bind,
        perform_entryFile?]
      simp only [htext, hparse, hprogram]
      exact perform_process_of_staysAsIs hentry fun _ => ⟨text, file, htext, hparse, hprogram⟩
  · rw [Task.process, if_neg hsource]
    exact perform_process_of_staysAsIs hentry fun h => absurd h hsource

/-! ### The tasks of a build -/

/-- **A run of tasks**: each one does what it does, up to the first one that fails. The
result counts the files that were instrumented. -/
inductive Runs (cwd place : Location) :
    FileSystem → List Task → Except Failure Nat → FileSystem → Prop
  /-- There are no tasks left. -/
  | done {files : FileSystem} : Runs cwd place files [] (.ok 0) files
  /-- A task fails. -/
  | failed {files after : FileSystem} {task : Task} {rest : List Task} {name : String}
      {failure : Failure} {node : Option Node} : task.source.fileName? = some name →
      task.Outcome files cwd (place ++ [name]) (.error failure) node →
      FileSystem.Adds files after place (node.toList.map (name, ·)) →
      Runs cwd place files (task :: rest) (.error failure) after
  /-- A task is done, and the others follow. -/
  | step {files mid after : FileSystem} {task : Task} {rest : List Task} {name : String}
      {found : Bool} {node : Option Node} {result : Except Failure Nat} :
      task.source.fileName? = some name →
      task.Outcome files cwd (place ++ [name]) (.ok found) node →
      FileSystem.Adds files mid place (node.toList.map (name, ·)) →
      Runs cwd place mid rest result after →
      Runs cwd place files (task :: rest) (result.map ((if found then 1 else 0) + ·)) after

/-- The destination of a task is the name of its source below a directory. -/
def Task.GoesInto (task : Task) (dir : Path) : Prop :=
  ∃ name, task.source.fileName? = some name ∧ task.destination = dir.join ⟨name⟩

theorem perform_run (task : Task) (world : World) :
    ∃ events, (task.run cwd false).perform world =
      (((task.process cwd).perform world).1,
        ⟨((task.process cwd).perform world).2.files, events⟩) := by
  simp only [Task.run, Bool.false_eq_true, if_false, Action.perform_bind]
  rcases (task.process cwd).perform world with ⟨failure | found, after⟩
  · exact ⟨after.events, rfl⟩
  · cases found
    · exact ⟨after.events, rfl⟩
    · exact ⟨_, rfl⟩

/-- The first task that stops ends the run. -/
theorem perform_runTasks_of_error {inPlace : Bool} {task : Task} {failure : Failure} {after : World}
    (h : (task.run cwd inPlace).perform world = (.error failure, after)) (rest : List Task) :
    (runTasks cwd inPlace (task :: rest)).perform world = (.error failure, after) := by
  rw [runTasks, Action.perform_bind, h]

/-- Behind a task that is done, the others run. -/
theorem perform_runTasks_of_ok {inPlace : Bool} {task : Task} {rest : List Task} {found : Bool}
    {mid after : World} {result : Except Failure Nat}
    (h : (task.run cwd inPlace).perform world = (.ok found, mid))
    (hrest : (runTasks cwd inPlace rest).perform mid = (result, after)) :
    (runTasks cwd inPlace (task :: rest)).perform world =
      (result.map ((if found then 1 else 0) + ·), after) := by
  rw [runTasks, Action.perform_bind, h]
  simp only [Action.perform_bind, hrest]
  rcases result with failure | count <;> rfl

theorem perform_runTasks {dir : Path} {tasks : List Task}
    (hdir : world.files.resolveDir cwd dir = .ok place)
    (htasks : ∀ task ∈ tasks, task.GoesInto dir) :
    ∃ result after events, (runTasks cwd false tasks).perform world = (result, ⟨after, events⟩) ∧
      Runs cwd place world.files tasks result after := by
  induction tasks generalizing world with
  | nil => exact ⟨_, _, _, rfl, .done⟩
  | cons task rest ih =>
    obtain ⟨name, hfile, hdest⟩ := htasks task List.mem_cons_self
    have hentry : world.files.entryOf cwd task.destination = .ok (place ++ [name], false) := by
      rw [hdest]
      exact FileSystem.entryOf_join hdir (Path.isName_of_fileName? hfile)
    obtain ⟨result, node, mid, _, hprocess, houtcome, hadds⟩ := perform_process hentry
    obtain ⟨events, hrun⟩ := perform_run task world
    rw [hprocess] at hrun
    rcases result with failure | found
    · exact ⟨_, _, _, perform_runTasks_of_error hrun rest, .failed hfile houtcome hadds⟩
    · -- the walk to the work directory is not disturbed by the new entry
      have hdir' : (World.mk mid events).files.resolveDir cwd dir = .ok place :=
        hadds.extends.resolveDir hdir
      obtain ⟨others, after, events', hrest, hruns⟩ :=
        ih hdir' fun task hmem => htasks task (List.mem_cons_of_mem _ hmem)
      exact ⟨_, after, events', perform_runTasks_of_ok hrun hrest,
        .step hfile houtcome hadds hruns⟩

end

section

variable {cwd place : Location} {here dir : Path} {profile : String} {tasks : List Task}

/-- **What a run adds**: one entry for each task at most. -/
theorem Runs.exists_adds {files after : FileSystem} {result : Except Failure Nat}
    (h : Runs cwd place files tasks result after) :
    ∃ entries, FileSystem.Adds files after place entries ∧
      (entries.map Prod.fst).Sublist (tasks.filterMap fun task => task.source.fileName?) := by
  have hone : ∀ (name : String) (node : Option Node),
      ((node.toList.map (name, ·)).map Prod.fst).Sublist [name] := by
    intro name node
    cases node <;> simp
  -- the names that are added are those of some of the sources, in the order of the tasks
  induction h with
  | done => exact ⟨[], .refl _ _, .slnil⟩
  | @failed _ _ _ _ name _ node hfile _ hadds =>
    refine ⟨_, hadds, ?_⟩
    simp only [List.filterMap_cons, hfile]
    exact (hone name node).trans (List.singleton_sublist.mpr List.mem_cons_self)
  | @step _ _ _ _ _ name _ node _ hfile _ hadds _ ih =>
    obtain ⟨entries, hadds', hsublist⟩ := ih
    refine ⟨_, hadds.trans hadds', ?_⟩
    simp only [List.filterMap_cons, hfile, List.map_append]
    exact (hone name node).append hsublist

/-- The tasks of a build with a work directory of its own. -/
def separateTasks (dir : Path) (profile : String) (sources : List Path) : List Task :=
  sources.filterMap fun source =>
    source.fileName?.map fun name => { source, destination := dir.join ⟨name⟩, profile }

/-- Planning orders the tasks. It does not fail. -/
theorem planTasks_separate (here dir : Path) (profile : String) (sources : List Path) :
    planTasks here (.separate dir) profile sources =
      .ok ((separateTasks dir profile sources).mergeSort
        fun task other => task.source.le other.source) := by
  have hmap : ∀ sources : List Path,
      sources.mapM ((WorkDir.separate dir).task? here profile) = .ok (sources.map fun source =>
        source.fileName?.map fun name => ⟨source, dir.join ⟨name⟩, profile⟩) := by
    intro sources
    induction sources with
    | nil => rfl
    | cons source sources ih =>
      rw [List.mapM_cons, ih]
      rfl
  rw [planTasks, hmap]
  simp only [bind, Except.bind, pure, Except.pure, List.filterMap_map, separateTasks]
  rfl

theorem mem_of_planTasks {sources : List Path} {task : Task}
    (hplan : planTasks here (.separate dir) profile sources = .ok tasks) (hmem : task ∈ tasks) :
    task.source ∈ sources ∧ task.GoesInto dir := by
  rw [planTasks_separate] at hplan
  cases hplan
  obtain ⟨source, hsource, htask⟩ := List.mem_filterMap.mp (List.mem_mergeSort.mp hmem)
  obtain ⟨name, hname, rfl⟩ := Option.map_eq_some_iff.mp htask
  exact ⟨hsource, name, hname, rfl⟩

/-- Whether a build fails for the want of an entry point, its files stay. -/
theorem perform_instrumentAll (inPlace : Bool) (tasks : List Task) (world : World) :
    (instrumentAll cwd inPlace tasks).perform world =
      ((((runTasks cwd inPlace tasks).perform world).1.bind fun count =>
        if count = 0 then .error (.error .noEntryPoint) else .ok count),
        ((runTasks cwd inPlace tasks).perform world).2) := by
  rw [instrumentAll, Action.perform_bind]
  rcases (runTasks cwd inPlace tasks).perform world with ⟨failure | count, after⟩
  · rfl
  · by_cases hcount : count = 0
    · subst hcount
      rfl
    · simp only [hcount, if_false, Except.bind]
      rfl

/-- **A build with a work directory of its own touches nothing that exists**, however it
ends. It adds entries to the work directory, each under the name of some source and at most
one for each task. -/
theorem instrumentAll_untouched {sources : List Path} {world : World}
    (hdir : world.files.resolveDir cwd dir = .ok place)
    (hplan : planTasks here (.separate dir) profile sources = .ok tasks) :
    world.files.Extends ((instrumentAll cwd false tasks).perform world).2.files ∧
      ∃ entries, FileSystem.Adds world.files
          ((instrumentAll cwd false tasks).perform world).2.files place entries ∧
        (entries.map Prod.fst).Sublist (tasks.filterMap fun task => task.source.fileName?) ∧
        ∀ task ∈ tasks, task.source ∈ sources := by
  obtain ⟨result, after, events, hrun, hruns⟩ :=
    perform_runTasks hdir fun task hmem => (mem_of_planTasks hplan hmem).2
  obtain ⟨entries, hadds, hsublist⟩ := hruns.exists_adds
  rw [perform_instrumentAll, hrun]
  exact ⟨hadds.extends, entries, hadds, hsublist, fun task hmem => (mem_of_planTasks hplan hmem).1⟩

/-- A program, a second file of the same name behind a link, and a work directory that is
reached by a link too. -/
def crowdedSources : World where
  files := ⟨[(["main.go"], .ofText "package main; func main() \x7b\x7d"),
    (["other"], .dir), (["other", "main.go"], .link ⟨"../main.go"⟩),
    (["place"], .dir), (["work"], .link ⟨"place"⟩)], by simp⟩
  events := []

theorem instrumentAll_untouched_crowded :
    ∃ tasks, planTasks ⟨"/"⟩ (.separate ⟨"work"⟩) "p" [⟨"main.go"⟩, ⟨"other/main.go"⟩] = .ok tasks ∧
      tasks.length = 2 ∧
      crowdedSources.files.Extends
        ((instrumentAll [] false tasks).perform crowdedSources).2.files ∧
      ∃ entries, FileSystem.Adds crowdedSources.files
          ((instrumentAll [] false tasks).perform crowdedSources).2.files ["place"] entries ∧
        (entries.map Prod.fst).Sublist (tasks.filterMap fun task => task.source.fileName?) ∧
        ∀ task ∈ tasks, task.source ∈ [⟨"main.go"⟩, (⟨"other/main.go"⟩ : Path)] := by
  have hplan := planTasks_separate ⟨"/"⟩ ⟨"work"⟩ "p" [⟨"main.go"⟩, ⟨"other/main.go"⟩]
  have hdir : crowdedSources.files.resolveDir [] ⟨"work"⟩ = .ok ["place"] :=
    eq_ok_of_any (by decide)
  refine ⟨_, hplan, ?_, instrumentAll_untouched hdir hplan⟩
  rw [List.length_mergeSort]
  decide

end

end Build

end EntryProbe
