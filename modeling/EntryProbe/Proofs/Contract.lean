import EntryProbe.Proofs.Stages

/-!
# The contract of a build

A build starts the compiler once at most, and it does so exactly if all of its stages succeed;
one of its files has an entry point then (`EntryProbe.Build.exists_program_of_runTasks`). The
compiler is started in the work directory, which is another directory than the one the build is
started in. So every path that the compiler is given has to mean the same in both: the path of
the program is one from the root, and the destinations of the tasks lead from the work directory
to what was made for them (`EntryProbe.Build.Delivered`).

However a build ends, it leaves nothing behind: in place it changes the contents of files only,
and a work directory of its own is taken away unless it is to be kept
(`EntryProbe.Build.LeavesNothing`).

* `EntryProbe.Build.Prepares.exists_resolveDir`, `EntryProbe.Build.Prepares.delivered` – the work
  directory is there when the compiler is started, and so are the results;
* `EntryProbe.Build.buildProject_contract` – the contract as a whole
  (`EntryProbe.Build.Contract`).
-/

namespace EntryProbe.Build

open Go Profiling

/-! ### Files with an entry point -/

section

variable {cwd : Location} {inPlace : Bool} {task : Task} {tasks : List Task} {world after : World}
  {count : Nat}

/-- A file that was instrumented has an entry point. -/
theorem exists_leadsTo_of_process (h : ((task.process cwd).perform world).1 = .ok true) :
    ∃ file, LeadsTo world.files cwd task.source file := by
  have hstays : ((do duplicate cwd task.source task.destination; return false : Action Bool).perform
      world).1 ≠ .ok true := by
    rw [Action.perform_bind]
    rcases (duplicate cwd task.source task.destination).perform world with ⟨failure | _, after⟩
    · simp
    · simp
  unfold Task.process at h
  split at h
  swap
  · exact absurd h hstays
  next hsource =>
  rw [Task.processSource, Action.perform_bind, perform_entryFile?] at h
  rcases htext : world.files.readText cwd task.source with cause | text <;> simp only [htext] at h
  · cases h
  rcases hparse : parse text with cause | file <;> simp only [hparse] at h
  · cases h
  rcases hentry : file.hasEntryPoint with _ | _
  · rw [hentry] at h
    exact absurd h hstays
  · exact ⟨file, hsource, ⟨text, htext, hparse⟩, hentry⟩

theorem exists_leadsTo_of_run (h : (task.run cwd inPlace).perform world = (.ok true, after)) :
    ∃ file, LeadsTo world.files cwd task.source file := by
  rcases inPlace with _ | _
  · obtain ⟨events, hrun⟩ := perform_run task world
    rw [hrun] at h
    exact exists_leadsTo_of_process (congrArg Prod.fst h)
  · obtain ⟨events, hrun⟩ := perform_run_inPlace cwd task world
    obtain ⟨result, places, files, _, hprocess, hwriting⟩ := perform_processInPlace cwd task world
    rw [hrun, hprocess] at h
    obtain rfl : result = .ok true := congrArg Prod.fst h
    obtain ⟨text, hfate, hsome⟩ := exists_of_map_eq_ok hwriting.result_eq.symm
    obtain ⟨out, rfl⟩ := Option.isSome_iff_exists.mp hsome.symm
    exact exists_leadsTo_of_fate hfate

/-- **If a file is counted, there is one with an entry point**, at the time when its turn
comes. -/
theorem exists_program_of_runTasks
    (h : (runTasks cwd inPlace tasks).perform world = (.ok count, after))
    (hcount : count ≠ 0) :
    ∃ front task back done now file, tasks = front ++ task :: back ∧
      (runTasks cwd inPlace front).perform world = (.ok done, now) ∧
      LeadsTo now.files cwd task.source file := by
  induction tasks generalizing world count after with
  | nil =>
    cases h
    exact absurd rfl hcount
  | cons task rest ih =>
    rcases hrun : (task.run cwd inPlace).perform world with ⟨failure | found, mid⟩
    · rw [perform_runTasks_of_error hrun] at h
      cases h
    rcases found with _ | _
    · rcases hrest : (runTasks cwd inPlace rest).perform mid with ⟨failure | others, last⟩ <;>
        rw [perform_runTasks_of_ok hrun hrest] at h
      · cases h
      cases h
      obtain ⟨front, program, back, done, now, file, rfl, hfront, hleads⟩ :=
        ih hrest (by simpa using hcount)
      refine ⟨task :: front, program, back, 0 + done, now, file, rfl, ?_, hleads⟩
      exact perform_runTasks_of_ok hrun hfront
    · obtain ⟨file, hleads⟩ := exists_leadsTo_of_run hrun
      exact ⟨[], task, rest, 0, world, file, rfl, rfl, hleads⟩

theorem perform_runTasks_of_instrumentAll
    (h : (instrumentAll cwd inPlace tasks).perform world = (.ok count, after)) :
    (runTasks cwd inPlace tasks).perform world = (.ok count, after) ∧ count ≠ 0 := by
  rw [perform_instrumentAll] at h
  rcases hrun : (runTasks cwd inPlace tasks).perform world with ⟨failure | counted, last⟩ <;>
    simp only [hrun, Except.bind] at h
  · cases h
  · split at h
    · cases h
    · next hcount =>
      cases h
      exact ⟨rfl, hcount⟩

end

/-! ### What instrumenting does to the files -/

section

variable {machine : Machine} {options : Options} {files before last : FileSystem} {sources : Path}
  {work : WorkDir} {tasks : List Task} {paths : List Path} {profile : String}

/-- **A build leaves nothing behind**: in place it changes the contents of files only, and
otherwise everything is as it was, unless the work directory is to be kept. -/
structure LeavesNothing (options : Options) (files last : FileSystem) : Prop where
  /-- The same things stand everywhere. -/
  inPlace : options.inPlace = true → files.SameShape last
  /-- Everything is as it was. -/
  separate : options.inPlace = false → options.keepWork = false →
    ∀ place, last.get? place = files.get? place

theorem LeavesNothing.refl (options : Options) (files : FileSystem) :
    LeavesNothing options files files :=
  ⟨fun _ => .refl files, fun _ _ _ => rfl⟩

/-- **What can change in an open work directory**: in place, the contents of files; otherwise
entries are added to the directory. -/
structure Changes (machine : Machine) (options : Options) (files last : FileSystem) : Prop where
  /-- The same things stand everywhere. -/
  inPlace : options.inPlace = true → files.SameShape last
  /-- The new directory has entries. -/
  separate : options.inPlace = false → ∃ entries,
    FileSystem.Adds (files.insert (workPlace files machine.temp) .dir) last
      (workPlace files machine.temp) entries

theorem Opened.changes_refl (h : Opened machine options files sources work before) :
    Changes machine options files before := by
  constructor
  · intro hinPlace
    rw [(h.eq_of_inPlace hinPlace).2]
    exact .refl files
  · intro hseparate
    rw [(h.eq_of_separate hseparate).2.1]
    exact ⟨[], .refl _ _⟩

/-- **Instrumenting stays in the work directory**, whether it fails or not. -/
theorem Opened.changes (htree : files.IsTree) (h : Opened machine options files sources work before)
    (hplan : planTasks machine.cwd.path work profile paths = .ok tasks) :
    Changes machine options files
      ((instrumentAll machine.cwd options.inPlace tasks).perform ⟨before, []⟩).2.files := by
  rw [perform_instrumentAll]
  constructor
  · intro hinPlace
    obtain ⟨-, rfl⟩ := h.eq_of_inPlace hinPlace
    obtain ⟨result, places, after, events, hrun, hruns⟩ :=
      perform_runTasks_inPlace machine.cwd tasks ⟨before, []⟩
    rw [hinPlace, hrun]
    exact hruns.rewrites.sameShape
  · intro hseparate
    obtain ⟨rfl, rfl, htemp⟩ := h.eq_of_separate hseparate
    obtain ⟨result, after, events, hrun, hruns⟩ := @perform_runTasks machine.cwd
      (workPlace files machine.temp) ⟨files.insert (workPlace files machine.temp) .dir, []⟩ _ _
      (resolveDir_workPlace htree htemp machine.cwd)
      fun task hmem => (mem_of_planTasks hplan hmem).2
    obtain ⟨entries, hadds, -⟩ := hruns.exists_adds
    rw [hseparate, hrun]
    exact ⟨entries, hadds⟩

/-- **What has changed in the work directory is gone at the end.** -/
theorem Changes.leavesNothing (htree : files.IsTree) (h : Changes machine options files last) :
    LeavesNothing options files (tidied machine options files last) := by
  constructor
  · intro hinPlace
    simpa [tidied, hinPlace] using h.inPlace hinPlace
  · intro hseparate hkeep place
    obtain ⟨entries, hadds⟩ := h.separate hseparate
    have htidied : tidied machine options files last =
        last.removeTree (workPlace files machine.temp) := by
      simp [tidied, hseparate, hkeep]
    rw [htidied]
    exact FileSystem.get?_removeTree_of_adds htree (get?_workPlace files machine.temp) hadds place

variable {failure : Failure} {given : Preparation}

/-- A build that stops at a stage leaves nothing behind. -/
theorem Stops.leavesNothing (htree : files.IsTree) (h : Stops machine options files failure last) :
    LeavesNothing options files last := by
  rcases h with - | - | - | ⟨-, hopened, hstops⟩
  · exact .refl options files
  · exact .refl options files
  · exact .refl options files
  · rcases hstops with - | ⟨hplan, hrun⟩
    · exact hopened.changes_refl.leavesNothing htree
    · have hchanges := hopened.changes htree hplan
      rw [hrun] at hchanges
      exact hchanges.leavesNothing htree

theorem Prepares.changes (htree : files.IsTree) (h : Prepares machine options files given) :
    Changes machine options files given.after := by
  obtain ⟨events, hrun⟩ := h.instrumented
  have hchanges := h.work.changes htree h.tasks
  rwa [hrun] at hchanges

/-! ### What the compiler finds -/

/-- A new work directory is there, wherever it is looked for. -/
theorem Prepares.resolveDir_eq (htree : files.IsTree) (h : Prepares machine options files given)
    (hseparate : options.inPlace = false) (origin : Location) :
    given.before.resolveDir origin given.work.path = .ok (workPlace files machine.temp) ∧
      given.after.resolveDir origin given.work.path = .ok (workPlace files machine.temp) := by
  obtain ⟨hwork, hbefore, htemp⟩ := h.work.eq_of_separate hseparate
  obtain ⟨entries, hadds⟩ := (h.changes htree).separate hseparate
  have hdir := resolveDir_workPlace htree htemp origin
  rw [hwork, hbefore]
  exact ⟨hdir, hadds.extends.resolveDir hdir⟩

/-- **The work directory is there** when the compiler is to be started. -/
theorem Prepares.exists_resolveDir (htree : files.IsTree)
    (hcwd : files.get? machine.cwd = some .dir)
    (h : Prepares machine options files given) :
    ∃ dir, given.after.resolveDir machine.cwd given.work.path = .ok dir := by
  rcases hinPlace : options.inPlace with _ | _
  · exact ⟨_, (h.resolveDir_eq htree hinPlace machine.cwd).2⟩
  · obtain ⟨dir, hdir⟩ := exists_resolveDir_dir htree hcwd h.set
    rw [(h.work.eq_of_inPlace hinPlace).1]
    exact ⟨dir, ((h.changes htree).inPlace hinPlace).resolveDir hdir⟩

/-- **The destination of a task leads to what was made for it**, from the directory where the
compiler runs. -/
inductive Delivered (cwd dir : Location) (before after : FileSystem) (task : Task) : Bool → Prop
  /-- In place that is the source itself. -/
  | inPlace {place : Location} : before.resolve cwd task.source = .ok place →
      after.resolve dir task.destination = .ok place →
      Delivered cwd dir before after task true
  /-- Otherwise it is the entry of the directory that the task has added. -/
  | separate {name : String} {now : FileSystem} {found : Bool} {node : Node} :
      task.source.fileName? = some name →
      after.entryOf dir task.destination = .ok (dir ++ [name], false) →
      before.Extends now → now.Extends after →
      task.Outcome now cwd (dir ++ [name]) (.ok found) (some node) →
      after.get? (dir ++ [name]) = some node →
      Delivered cwd dir before after task false

theorem exists_of_forall₂ {α β : Type} {R : α → β → Prop} {list : List α} {others : List β}
    (h : List.Forall₂ R list others) {a : α} (hmem : a ∈ list) : ∃ b, R a b := by
  induction h with
  | nil => cases hmem
  | cons hfirst _ ih =>
    rcases List.mem_cons.mp hmem with rfl | hmem
    · exact ⟨_, hfirst⟩
    · exact ih hmem

/-- **In place the destinations lead to the sources.** -/
theorem Prepares.delivered_inPlace (htree : files.IsTree)
    (hcwd : files.get? machine.cwd = some .dir) (h : Prepares machine options files given)
    (hinPlace : options.inPlace = true) (hlisted : given.set.listed = true) (dir : Location) :
    ∀ task ∈ given.tasks, Delivered machine.cwd dir given.before given.after task true := by
  intro task hmem
  obtain ⟨hwork, hbefore⟩ := h.work.eq_of_inPlace hinPlace
  obtain ⟨hsource, hreceives⟩ := (perm_of_planTasks h.tasks).2 task hmem
  rw [hwork] at hreceives
  obtain ⟨hpaths, hthere, -⟩ := eq_inputs_of_listed h.set hlisted
  obtain ⟨node, hstat⟩ := hthere task.source (hpaths ▸ hsource)
  obtain ⟨links, hle, place, hleads, -⟩ := FileSystem.stat_eq_ok.mp hstat
  -- the destination is the path of the source from the root, so it does not matter where it is
  -- looked for
  obtain ⟨absolute, habsolute, hleads'⟩ :=
    hleads.absolute (htree.dir_of_prefix hcwd) (htree.isName_of_mem hcwd)
  obtain rfl : absolute = task.destination := Option.some.inj (habsolute.symm.trans hreceives)
  have hhere : given.before.resolve machine.cwd task.source = .ok place := by
    rw [hbefore]
    exact FileSystem.resolve_eq_ok.mpr ⟨links, hle, hleads⟩
  have hthere : given.after.resolve dir task.destination = .ok place := by
    rw [((h.changes htree).inPlace hinPlace).resolve_eq]
    exact FileSystem.resolve_eq_ok.mpr ⟨links, hle, hleads' dir⟩
  exact .inPlace hhere hthere

/-- **In a directory of their own the destinations lead to its entries.** -/
theorem Prepares.delivered_separate (htree : files.IsTree)
    (h : Prepares machine options files given)
    (hseparate : options.inPlace = false) :
    ∀ task ∈ given.tasks, Delivered machine.cwd (workPlace files machine.temp) given.before
      given.after task false := by
  intro task hmem
  obtain ⟨hwork, -, -⟩ := h.work.eq_of_separate hseparate
  obtain ⟨events, hrun⟩ := h.instrumented
  rw [hseparate] at hrun
  have hinto : ∀ task ∈ given.tasks, task.GoesInto given.work.path := by
    have hplan := h.tasks
    rw [hwork] at hplan ⊢
    exact fun task hmem => (mem_of_planTasks hplan hmem).2
  obtain ⟨result, after, events', hrun', hruns⟩ := @perform_runTasks _ _ ⟨given.before, []⟩ _ _
    (h.resolveDir_eq htree hseparate machine.cwd).1 hinto
  rw [(perform_runTasks_of_instrumentAll hrun).1] at hrun'
  cases hrun'
  obtain ⟨entries, -, houtcomes⟩ := hruns.exists_outcomes rfl
  obtain ⟨⟨name, node⟩, hname, hnode, now, found, hbefore, hafter, houtcome⟩ :=
    exists_of_forall₂ houtcomes hmem
  obtain ⟨name', hname', hdestination⟩ := hinto task hmem
  rw [hname] at hname'
  cases hname'
  refine .separate hname ?_ hbefore hafter houtcome hnode
  rw [hdestination]
  exact FileSystem.entryOf_join (h.resolveDir_eq htree hseparate _).2
    (Path.isName_of_fileName? hname)

/-- **The compiler finds what it is given.** -/
theorem Prepares.delivered (htree : files.IsTree) (hcwd : files.get? machine.cwd = some .dir)
    (h : Prepares machine options files given) (hlisted : given.set.listed = true) {dir : Location}
    (hdir : given.after.resolveDir machine.cwd given.work.path = .ok dir) :
    ∀ task ∈ given.tasks,
      Delivered machine.cwd dir given.before given.after task options.inPlace := by
  rcases hinPlace : options.inPlace with _ | _
  · rw [(h.resolveDir_eq htree hinPlace machine.cwd).2] at hdir
    cases hdir
    exact h.delivered_separate htree hinPlace
  · exact h.delivered_inPlace htree hcwd hinPlace hlisted dir

/-! ### The contract -/

/-- The path of the program is one from the root. -/
theorem isAbsolute_outputPath (hnames : ∀ name ∈ machine.cwd, Path.IsName name) :
    (options.outputPath machine.cwd.path).isAbsolute = true := by
  obtain ⟨htext, habsolute, -⟩ := Path.path_place hnames
  unfold Options.outputPath Path.join
  split
  · assumption
  · have hhead : ∀ rest : String, (⟨machine.cwd.path.text ++ rest⟩ : Path).isAbsolute = true := by
      intro rest
      obtain ⟨c, text, hcons⟩ := List.exists_cons_of_ne_nil
        (show machine.cwd.path.text.toList ≠ [] by simpa using htext)
      simp only [Path.isAbsolute, hcons, List.head?_cons, String.toList_append,
        List.cons_append] at habsolute ⊢
      exact habsolute
    split
    · exact hhead _
    · rw [String.append_assoc]
      exact hhead _

/-- **The contract of a build** that starts with the files `files`, has the result `result` and
leaves the world `after`. -/
structure Contract (machine : Machine) (options : Options) (files : FileSystem)
    (result : Except Failure Path) (after : World) : Prop where
  /-- The compiler is started once at most. -/
  once : (starts after.events).length ≤ 1
  /-- It is started exactly if there is one and all stages succeed. -/
  started_iff : starts after.events ≠ [] ↔
    machine.compiler.isSome = true ∧ ∃ given, Prepares machine options files given
  /-- All stages succeed only if a file that was processed had an entry point when its turn
  came. -/
  program : ∀ given, Prepares machine options files given →
    ∃ front task back done now file, given.tasks = front ++ task :: back ∧
      (runTasks machine.cwd options.inPlace front).perform ⟨given.before, []⟩ = (.ok done, now) ∧
      LeadsTo now.files machine.cwd task.source file
  /-- The compiler is started in the work directory, with the flags, the path of the program and,
  if the files were named one by one, the destinations of the tasks. -/
  start_eq : ∀ given, Prepares machine options files given → ∀ start ∈ starts after.events,
    given.after.resolveDir machine.cwd given.work.path = .ok start.1 ∧
    start.2 = "build" :: given.flags ++ ["-o", (options.outputPath machine.cwd.path).text] ++
      (if given.set.listed then given.tasks.map fun task => task.destination.text else [])
  /-- The path of the program is one from the root. -/
  isAbsolute : (options.outputPath machine.cwd.path).isAbsolute = true
  /-- From where the compiler is started, the destinations lead to what was made of the tasks. -/
  delivered : ∀ given, Prepares machine options files given → given.set.listed = true →
    ∀ start ∈ starts after.events, ∀ task ∈ given.tasks,
      Delivered machine.cwd start.1 given.before given.after task options.inPlace
  /-- A build succeeds exactly if the compiler was started and ended well. -/
  result_eq_ok : ∀ output, result = .ok output ↔
    output = options.outputPath machine.cwd.path ∧ ∃ run start, machine.compiler = some run ∧
      start ∈ starts after.events ∧ (run start.1 start.2).success = true
  /-- If the flags cannot be parsed or the files are not found, nothing happens at all. -/
  early : shellWords? (options.buildFlags.getD "") = none ∨
      (∃ error, resolveFileSet files machine.cwd (gopathOf machine.gopath) options.inputs =
        .error error) →
    (∃ error, result = .error (.error error)) ∧ after = ⟨files, []⟩
  /-- Nothing is left behind, however the build ends. -/
  leavesNothing : LeavesNothing options files after.files

variable {result : Except Failure Path} {after : World}

/-- **A build starts the compiler, or it does not and fails**, which is so only if a stage fails
or there is no compiler. -/
theorem started_or (htree : files.IsTree) (hcwd : files.get? machine.cwd = some .dir)
    (h : (buildProject machine options).perform ⟨files, []⟩ = (result, after)) :
    (starts after.events = [] ∧ (∀ output, result ≠ .ok output) ∧
        ∀ given, Prepares machine options files given → machine.compiler = none) ∨
      ∃ given dir run, Prepares machine options files given ∧
        given.after.resolveDir machine.cwd given.work.path = .ok dir ∧
        machine.compiler = some run ∧
        starts after.events = [(dir, compilerArguments given.flags
          (options.outputPath machine.cwd.path) (if given.set.listed then given.tasks else []))] ∧
        ∀ output, result = .ok output ↔ output = options.outputPath machine.cwd.path ∧
          ∀ start ∈ starts after.events, (run start.1 start.2).success = true := by
  obtain ⟨_, _, hrun, hcases⟩ := perform_buildProject machine options files
  rw [h] at hrun
  cases hrun
  rcases hcases with ⟨failure, hstops, rfl, hnone⟩ | ⟨given, compiled, hgiven, rfl, -, hcompiles⟩
  · exact .inl ⟨hnone, by simp, fun given hgiven => absurd hgiven hstops.not_prepares⟩
  rcases hcompiles.started_or with ⟨hnone, ⟨failure, rfl⟩, hmissing⟩ |
    ⟨dir, run, hdir, hcompiler, hstarted, hresult⟩
  · refine .inl ⟨hnone, by simp [Except.map], fun other _ => ?_⟩
    obtain ⟨dir, hdir⟩ := hgiven.exists_resolveDir htree hcwd
    exact hmissing dir hdir
  · refine .inr ⟨given, dir, run, hgiven, hdir, hcompiler, hstarted, fun output => ?_⟩
    rw [hstarted, List.forall_mem_singleton, ← hresult]
    rcases compiled with failure | _
    · simp [Except.map]
    · simp [Except.map, eq_comm]

/-- **A build leaves nothing behind**, however it ends. -/
theorem leavesNothing_of_perform (htree : files.IsTree)
    (h : (buildProject machine options).perform ⟨files, []⟩ = (result, after)) :
    LeavesNothing options files after.files := by
  obtain ⟨_, _, hrun, hcases⟩ := perform_buildProject machine options files
  rw [h] at hrun
  cases hrun
  rcases hcases with ⟨failure, hstops, -⟩ | ⟨given, -, hgiven, -, hafter, -⟩
  · exact hstops.leavesNothing htree
  · rw [hafter]
    exact (hgiven.changes htree).leavesNothing htree

/-- All stages succeed only if a file that was processed had an entry point. -/
theorem Prepares.exists_program (h : Prepares machine options files given) :
    ∃ front task back done now file, given.tasks = front ++ task :: back ∧
      (runTasks machine.cwd options.inPlace front).perform ⟨given.before, []⟩ = (.ok done, now) ∧
      LeadsTo now.files machine.cwd task.source file := by
  obtain ⟨events, hrun⟩ := h.instrumented
  obtain ⟨hruns, hcount⟩ := perform_runTasks_of_instrumentAll hrun
  exact exists_program_of_runTasks hruns hcount

/-- A build that fails before it has its files does nothing at all. -/
theorem eq_of_early (h : (buildProject machine options).perform ⟨files, []⟩ = (result, after))
    (hfails : shellWords? (options.buildFlags.getD "") = none ∨
      ∃ error, resolveFileSet files machine.cwd (gopathOf machine.gopath) options.inputs =
        .error error) :
    (∃ error, result = .error (.error error)) ∧ after = ⟨files, []⟩ := by
  rcases hflags : shellWords? (options.buildFlags.getD "") with _ | flags
  · rw [perform_buildProject_of_flags _ hflags] at h
    cases h
    exact ⟨⟨_, rfl⟩, rfl⟩
  · rcases hfails with hnone | ⟨error, hset⟩
    · rw [hflags] at hnone
      cases hnone
    · rw [perform_buildProject_of_set hflags hset] at h
      cases h
      exact ⟨⟨_, rfl⟩, rfl⟩

/-- **A build keeps its contract.** -/
theorem buildProject_contract (machine : Machine) (options : Options) (files : FileSystem)
    (htree : files.IsTree) (hcwd : files.get? machine.cwd = some .dir) :
    ∃ result after, (buildProject machine options).perform ⟨files, []⟩ = (result, after) ∧
      Contract machine options files result after := by
  rcases hrun : (buildProject machine options).perform ⟨files, []⟩ with ⟨result, after⟩
  have habsolute : (options.outputPath machine.cwd.path).isAbsolute = true :=
    isAbsolute_outputPath (htree.isName_of_mem hcwd)
  have hprogram := fun given => @Prepares.exists_program machine options files given
  have hearly := eq_of_early hrun
  have hleaves := leavesNothing_of_perform htree hrun
  refine ⟨result, after, rfl, ?_⟩
  rcases started_or htree hcwd hrun with ⟨hnone, hfailed, hmissing⟩ |
    ⟨given, dir, run, hgiven, hdir, hcompiler, hstarts, hresult⟩
  · refine ⟨by simp [hnone], ?_, hprogram, by simp [hnone], habsolute, by simp [hnone], ?_, hearly,
      hleaves⟩
    · refine iff_of_false (by simp [hnone]) ?_
      rintro ⟨hsome, given, hgiven⟩
      simp [hmissing given hgiven] at hsome
    · refine fun output => iff_of_false (hfailed output) ?_
      rintro ⟨-, run, start, -, hstart, -⟩
      rw [hnone] at hstart
      cases hstart
  · refine ⟨by simp [hstarts], ?_, hprogram, fun other hother => ?_, habsolute,
      fun other hother hlisted => ?_, fun output => ?_, hearly, hleaves⟩
    · exact iff_of_true (by simp [hstarts]) ⟨by simp [hcompiler], given, hgiven⟩
    · obtain rfl := hgiven.unique hother
      rw [hstarts, List.forall_mem_singleton]
      refine ⟨hdir, ?_⟩
      rcases hlisted : given.set.listed with _ | _
      · simp [compilerArguments]
      · simp [compilerArguments]
    · obtain rfl := hgiven.unique hother
      rw [hstarts, List.forall_mem_singleton]
      exact hgiven.delivered htree hcwd hlisted hdir
    · rw [hresult output]
      simp [hcompiler, hstarts]

end

/-- A machine where everything happens below the root, and where the compiler ends well. -/
def quietMachine : Machine where
  cwd := []
  temp := []
  gopath := none
  log := none
  compiler := some fun _ _ => .code 0

/-- A build of one file. -/
def mainOptions : Options := { Options.initial with inputs := [⟨"main.go"⟩] }

theorem leadsTo_lonelyMain : ∃ file out, LeadsTo lonelyMain [] ⟨"main.go"⟩ file ∧
    (instrument file "main.pprof").1.print = some out := by
  obtain ⟨file, hleads, hearly⟩ : ∃ file, LeadsTo lonelyMain [] ⟨"main.go"⟩ file ∧
      ¬ file.HasEarlyDecl := exists_leadsTo_of_any (by decide) (by decide +kernel)
  obtain ⟨text, -, hparse⟩ := hleads.parse_eq
  obtain ⟨out, hout⟩ := exists_print_instrument hparse hearly "main.pprof"
  exact ⟨file, out, hleads, hout⟩

/-- A program that finds its destination free is instrumented. -/
theorem perform_instrumentAll_of_leadsTo {cwd place : Location} {dir : Path} {world : World}
    {task : Task} {name : String} {absolute : Path} {file : SourceFile} {out : String}
    (hdir : world.files.resolveDir cwd dir = .ok place) (hname : task.source.fileName? = some name)
    (hdestination : task.destination = dir.join ⟨name⟩)
    (hleads : LeadsTo world.files cwd task.source file)
    (hout : (instrument file task.profile).1.print = some out)
    (hfree : world.files.get? (place ++ [name]) = none)
    (habsolute : Path.absolute? cwd.path task.source = some absolute) :
    ∃ after events, (instrumentAll cwd false [task]).perform world = (.ok 1, ⟨after, events⟩) := by
  have hentry : world.files.entryOf cwd task.destination = .ok (place ++ [name], false) := by
    rw [hdestination]
    exact FileSystem.entryOf_join hdir (Path.isName_of_fileName? hname)
  obtain ⟨result, node, after, _, hprocess, houtcome, -⟩ := perform_process_of_leadsTo hentry hleads
  obtain ⟨events, hrun⟩ := perform_run task world
  have hresult : result = .ok true := by
    rw [(houtcome.result_eq hfree habsolute).1, hleads.fate_eq, hout]
    rfl
  rw [hprocess, hresult] at hrun
  refine ⟨after, events, ?_⟩
  rw [perform_instrumentAll, perform_runTasks_of_ok hrun rfl]
  rfl

theorem prepares_lonelyMain : ∃ given, Prepares quietMachine mainOptions lonelyMain given := by
  have htree : lonelyMain.IsTree := FileSystem.isTree_of_all (by decide)
  have hset : resolveFileSet lonelyMain [] none [⟨"main.go"⟩] = .ok ⟨[⟨"main.go"⟩], true⟩ :=
    eq_ok_of_any (by decide)
  have hname : (⟨"main.go"⟩ : Path).fileName? = some "main.go" := by decide
  obtain ⟨file, out, hleads, hout⟩ := leadsTo_lonelyMain
  obtain ⟨absolute, habsolute, -⟩ := @Path.exists_absolute? [] ⟨"main.go"⟩ (by simp) (by decide)
  have hopened : Opened quietMachine mainOptions lonelyMain ⟨"."⟩ _ _ := .separate rfl (by decide)
  have hfree := get?_workPlace lonelyMain []
  have hdir := @resolveDir_workPlace lonelyMain [] htree (by decide) []
  have hplan : planTasks (Location.path []) (.separate (workPlace lonelyMain []).path) "main.pprof"
      [⟨"main.go"⟩] =
        .ok [⟨⟨"main.go"⟩, (workPlace lonelyMain []).path.join ⟨"main.go"⟩, "main.pprof"⟩] := by
    simp [planTasks_separate, separateTasks, hname]
  have hspot : (lonelyMain.insert (workPlace lonelyMain []) .dir).get?
      (workPlace lonelyMain [] ++ ["main.go"]) = none := by
    rw [FileSystem.get?_insert_of_ne _ _ (by simp)]
    exact htree.get?_eq_none hfree (List.prefix_append _ _)
  have hleads' := hleads.mono (FileSystem.extends_insert hfree .dir)
  obtain ⟨after, events, hrun⟩ := @perform_instrumentAll_of_leadsTo _ _ _
    ⟨lonelyMain.insert (workPlace lonelyMain []) .dir, []⟩ ⟨_, _, _⟩ _ _ _ _ hdir hname rfl hleads'
      hout hspot habsolute
  have hflags : shellWords? (mainOptions.buildFlags.getD "") = some [] := by decide
  exact ⟨⟨[], _, _, _, _, 1, after⟩, hflags, hset, hopened, hplan, events, hrun⟩

theorem buildProject_contract_lonelyMain :
    lonelyMain.IsTree ∧ lonelyMain.get? quietMachine.cwd = some .dir ∧
    (∃ given, Prepares quietMachine mainOptions lonelyMain given) ∧
    ∃ result after, (buildProject quietMachine mainOptions).perform ⟨lonelyMain, []⟩ =
        (result, after) ∧
      starts after.events ≠ [] ∧ Contract quietMachine mainOptions lonelyMain result after := by
  have htree : lonelyMain.IsTree := FileSystem.isTree_of_all (by decide)
  have hcwd : lonelyMain.get? quietMachine.cwd = some .dir := by decide
  obtain ⟨result, after, hrun, hcontract⟩ :=
    buildProject_contract quietMachine mainOptions lonelyMain htree hcwd
  refine ⟨htree, hcwd, prepares_lonelyMain, result, after, hrun, ?_, hcontract⟩
  exact hcontract.started_iff.mpr ⟨rfl, prepares_lonelyMain⟩

end EntryProbe.Build
