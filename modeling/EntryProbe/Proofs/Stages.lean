import EntryProbe.Proofs.Quiet
import EntryProbe.Proofs.WorkDirs

/-!
# The stages of a build

A build parses the flags for the compiler, finds its files, opens its work directory, plans its
tasks and instruments the files. If all of that succeeds it has something to compile
(`EntryProbe.Build.Prepares`); otherwise it stops at the first stage that fails
(`EntryProbe.Build.Stops`). The stages are quiet, so that the compiler is not started before all
of them are over; then it is started, unless it is not there or its directory cannot be entered
(`EntryProbe.Build.Compiles`).

Whatever the stage at which a build ends, a work directory of its own is taken away at the end,
unless it is to be kept (`EntryProbe.Build.tidied`).

* `EntryProbe.Build.perform_buildProject` – a build stops at a stage, or starts the compiler;
* `EntryProbe.Build.Prepares.unique`, `EntryProbe.Build.Stops.not_prepares` – it does only one
  of these, and with one outcome.
-/

namespace EntryProbe.Build

/-! ### What the stages give -/

/-- **A work directory is opened**: the directory of the sources, or a new one. -/
inductive Opened (machine : Machine) (options : Options) (files : FileSystem) (sources : Path) :
    WorkDir → FileSystem → Prop
  /-- The sources are changed in place. -/
  | inPlace : options.inPlace = true → Opened machine options files sources (.inPlace sources) files
  /-- A directory is made. -/
  | separate : options.inPlace = false → files.get? machine.temp = some .dir →
      Opened machine options files sources (.separate (workPlace files machine.temp).path)
        (files.insert (workPlace files machine.temp) .dir)

/-- What the stages of a build give. -/
structure Preparation where
  /-- The flags for the compiler. -/
  flags : List String
  /-- The files. -/
  set : FileSet
  /-- The work directory. -/
  work : WorkDir
  /-- The file system when the work directory is open. -/
  before : FileSystem
  /-- The tasks, in the order in which they are planned. -/
  tasks : List Task
  /-- The number of files that are instrumented. -/
  count : Nat
  /-- The file system when they are instrumented. -/
  after : FileSystem

/-- **All stages of a build succeed**, and this is what they give. -/
structure Prepares (machine : Machine) (options : Options) (files : FileSystem)
    (given : Preparation) : Prop where
  /-- The flags are parsed. -/
  flags : shellWords? (options.buildFlags.getD "") = some given.flags
  /-- The files are found. -/
  set : resolveFileSet files machine.cwd (gopathOf machine.gopath) options.inputs = .ok given.set
  /-- The work directory is opened. -/
  work : Opened machine options files given.set.dir given.work given.before
  /-- The tasks are planned. -/
  tasks : planTasks machine.cwd.path given.work (options.profilePath machine.cwd.path)
    given.set.paths = .ok given.tasks
  /-- The files are instrumented. -/
  instrumented : ∃ events, (instrumentAll machine.cwd options.inPlace given.tasks).perform
    ⟨given.before, []⟩ = (.ok given.count, ⟨given.after, events⟩)

/-- The files at the end of a build. -/
def tidied (machine : Machine) (options : Options) (files last : FileSystem) : FileSystem :=
  if options.inPlace || options.keepWork then last
  else last.removeTree (workPlace files machine.temp)

/-- **A build stops in its work directory**, with a failure and with these files. -/
inductive StopsIn (machine : Machine) (options : Options) (set : FileSet) (work : WorkDir)
    (before : FileSystem) : Failure → FileSystem → Prop
  /-- The tasks cannot be planned. -/
  | tasks {error : Error} :
      planTasks machine.cwd.path work (options.profilePath machine.cwd.path) set.paths =
        .error error →
      StopsIn machine options set work before (.error error) before
  /-- The files cannot be instrumented. -/
  | instrumented {tasks : List Task} {failure : Failure} {after : World} :
      planTasks machine.cwd.path work (options.profilePath machine.cwd.path) set.paths = .ok tasks →
      (instrumentAll machine.cwd options.inPlace tasks).perform ⟨before, []⟩ =
        (.error failure, after) →
      StopsIn machine options set work before failure after.files

/-- **A build stops at a stage**, with a failure and with these files at the end. -/
inductive Stops (machine : Machine) (options : Options) (files : FileSystem) :
    Failure → FileSystem → Prop
  /-- The flags cannot be parsed. -/
  | flags : shellWords? (options.buildFlags.getD "") = none →
      Stops machine options files (.error .invalidBuildFlags) files
  /-- The files are not found. -/
  | set {error : Error} :
      resolveFileSet files machine.cwd (gopathOf machine.gopath) options.inputs = .error error →
      Stops machine options files (.error error) files
  /-- The work directory cannot be made. -/
  | work : options.inPlace = false → files.get? machine.temp ≠ some .dir →
      Stops machine options files (.error (.io .notFound)) files
  /-- A stage in the work directory fails. -/
  | inside {set : FileSet} {work : WorkDir} {before last : FileSystem} {failure : Failure} :
      resolveFileSet files machine.cwd (gopathOf machine.gopath) options.inputs = .ok set →
      Opened machine options files set.dir work before →
      StopsIn machine options set work before failure last →
      Stops machine options files failure (tidied machine options files last)

/-- **What compiling does**: how it ends, and with which starts of the compiler. -/
inductive Compiles (cwd : Location) (compiler : Compiler) (files : FileSystem) (dir : Path)
    (arguments : List String) : Except Failure Unit → List (Location × List String) → Prop
  /-- The directory cannot be entered. -/
  | unreachable {cause : IoError} : files.resolveDir cwd dir = .error cause →
      Compiles cwd compiler files dir arguments (.error (.error (.spawnBuild cause))) []
  /-- There is no compiler. -/
  | missing : compiler = none →
      Compiles cwd compiler files dir arguments (.error (.error (.spawnBuild .notFound))) []
  /-- The compiler is started, and it ends well. -/
  | succeeded {place : Location} {run : Location → List String → ExitStatus} :
      files.resolveDir cwd dir = .ok place → compiler = some run →
      (run place arguments).success = true →
      Compiles cwd compiler files dir arguments (.ok ()) [(place, arguments)]
  /-- The compiler is started, and it fails. -/
  | failed {place : Location} {run : Location → List String → ExitStatus} :
      files.resolveDir cwd dir = .ok place → compiler = some run →
      (run place arguments).success = false →
      Compiles cwd compiler files dir arguments
        (.error (.error (.buildFailed (run place arguments)))) [(place, arguments)]

/-! ### One outcome -/

section

variable {machine : Machine} {options : Options} {files before before' last : FileSystem}
  {sources : Path} {work work' : WorkDir} {given given' : Preparation} {failure : Failure}

theorem Opened.eq_of_inPlace (h : Opened machine options files sources work before)
    (hinPlace : options.inPlace = true) : work = .inPlace sources ∧ before = files := by
  rcases h with - | ⟨hseparate, -⟩
  · exact ⟨rfl, rfl⟩
  · rw [hinPlace] at hseparate
    cases hseparate

theorem Opened.eq_of_separate (h : Opened machine options files sources work before)
    (hseparate : options.inPlace = false) :
    work = .separate (workPlace files machine.temp).path ∧
      before = files.insert (workPlace files machine.temp) .dir ∧
      files.get? machine.temp = some .dir := by
  rcases h with hinPlace | ⟨-, htemp⟩
  · rw [hinPlace] at hseparate
    cases hseparate
  · exact ⟨rfl, rfl, htemp⟩

theorem Opened.isInPlace_eq (h : Opened machine options files sources work before) :
    work.isInPlace = options.inPlace := by
  rcases h with hinPlace | ⟨hseparate, -⟩
  · exact hinPlace.symm
  · exact hseparate.symm

theorem Opened.unique (h : Opened machine options files sources work before)
    (h' : Opened machine options files sources work' before') :
    work = work' ∧ before = before' := by
  rcases h with hinPlace | ⟨hseparate, -⟩
  · obtain ⟨rfl, rfl⟩ := h'.eq_of_inPlace hinPlace
    exact ⟨rfl, rfl⟩
  · obtain ⟨rfl, rfl, -⟩ := h'.eq_of_separate hseparate
    exact ⟨rfl, rfl⟩

/-- **The stages give one thing.** -/
theorem Prepares.unique (h : Prepares machine options files given)
    (h' : Prepares machine options files given') : given = given' := by
  obtain ⟨flags, set, work, before, tasks, count, after⟩ := given
  obtain ⟨flags', set', work', before', tasks', count', after'⟩ := given'
  obtain ⟨hflags, hset, hwork, htasks, events, hinstrumented⟩ := h
  obtain ⟨hflags', hset', hwork', htasks', events', hinstrumented'⟩ := h'
  obtain rfl := Option.some.inj (hflags.symm.trans hflags')
  obtain rfl := Except.ok.inj (hset.symm.trans hset')
  obtain ⟨rfl, rfl⟩ := hwork.unique hwork'
  obtain rfl := Except.ok.inj (htasks.symm.trans htasks')
  cases hinstrumented.symm.trans hinstrumented'
  rfl

/-- **A build that stops at a stage has not all of them behind it.** -/
theorem Stops.not_prepares (h : Stops machine options files failure last) :
    ¬ Prepares machine options files given := by
  rintro ⟨hflags, hset, hwork, htasks, events, hinstrumented⟩
  rcases h with hnone | hnone | ⟨hinPlace, hnone⟩ | ⟨hset', hwork', hstops⟩
  · rw [hnone] at hflags
    cases hflags
  · rw [hnone] at hset
    cases hset
  · exact hnone (hwork.eq_of_separate hinPlace).2.2
  · obtain rfl := Except.ok.inj (hset.symm.trans hset')
    obtain ⟨rfl, rfl⟩ := hwork.unique hwork'
    rcases hstops with hnone | ⟨htasks', hnone⟩
    · rw [hnone] at htasks
      cases htasks
    · obtain rfl := Except.ok.inj (htasks.symm.trans htasks')
      rw [hnone] at hinstrumented
      cases hinstrumented

/-- Compiling fails without a start of the compiler, or starts it once. -/
theorem Compiles.started_or {cwd : Location} {compiler : Compiler} {dir : Path}
    {arguments : List String} {result : Except Failure Unit}
    {started : List (Location × List String)}
    (h : Compiles cwd compiler files dir arguments result started) :
    (started = [] ∧ (∃ failure, result = .error failure) ∧
        ∀ place, files.resolveDir cwd dir = .ok place → compiler = none) ∨
      ∃ place run, files.resolveDir cwd dir = .ok place ∧ compiler = some run ∧
        started = [(place, arguments)] ∧
          (result = .ok () ↔ (run place arguments).success = true) := by
  rcases h with hnone | hnone | ⟨hdir, hrun, hstatus⟩ | ⟨hdir, hrun, hstatus⟩
  · refine .inl ⟨rfl, ⟨_, rfl⟩, fun place hplace => ?_⟩
    rw [hnone] at hplace
    cases hplace
  · exact .inl ⟨rfl, ⟨_, rfl⟩, fun _ _ => hnone⟩
  · exact .inr ⟨_, _, hdir, hrun, rfl, by simp [hstatus]⟩
  · exact .inr ⟨_, _, hdir, hrun, rfl, by simp [hstatus]⟩

/-! ### Performing the stages -/

theorem perform_compile (cwd : Location) (compiler : Compiler) (dir : Path)
    (arguments : List String) (events : List Event) :
    ∃ result added, (compile cwd compiler dir arguments).perform ⟨files, events⟩ =
        (result, ⟨files, events ++ added⟩) ∧
      Compiles cwd compiler files dir arguments result (starts added) := by
  simp only [compile, Action.perform_bind, Action.perform_note, Action.perform_files,
    Action.perform_orFail]
  rcases hdir : files.resolveDir cwd dir with cause | place
  · exact ⟨_, _, rfl, .unreachable hdir⟩
  rcases hrun : compiler with _ | run
  · exact ⟨_, _, rfl, .missing rfl⟩
  simp only [Action.perform_bind, Action.perform_emit, List.append_assoc, List.singleton_append]
  rcases hstatus : (run place arguments).success with _ | _
  · exact ⟨_, _, rfl, .failed hdir rfl hstatus⟩
  · exact ⟨_, _, rfl, .succeeded hdir rfl hstatus⟩

theorem perform_withWorkDir {α : Type} (action : WorkDir → Action α) (events : List Event)
    (h : Opened machine options files sources work before) :
    (withWorkDir machine.temp options.inPlace options.keepWork sources action).perform
        ⟨files, events⟩ =
      (((action work).perform ⟨before, events⟩).1,
        ⟨tidied machine options files ((action work).perform ⟨before, events⟩).2.files,
          ((action work).perform ⟨before, events⟩).2.events⟩) := by
  rcases h with hinPlace | ⟨hinPlace, htemp⟩
  · simp [withWorkDir, tidied, hinPlace]
  · have hmake : (makeWorkDir machine.temp).perform ⟨files, events⟩ =
        (.ok (workPlace files machine.temp),
          ⟨files.insert (workPlace files machine.temp) .dir, events⟩) := by
      have hdir : files.isDir machine.temp = true := by simpa [FileSystem.isDir] using htemp
      simp only [makeWorkDir, Action.perform_bind, Action.perform_files, hdir, if_true]
      rfl
    simp only [withWorkDir, hinPlace, Bool.false_eq_true, if_false, Action.perform_bind, hmake,
      tidied, Bool.false_or]
    by_cases hkeep : options.keepWork = true
    · simp only [hkeep, if_true]
    · simp only [hkeep]
      rfl

/-- A work directory is opened, or the step is not taken. -/
theorem opened_or (machine : Machine) (options : Options) (files : FileSystem) (sources : Path) :
    (∃ work before, Opened machine options files sources work before) ∨
      options.inPlace = false ∧ files.get? machine.temp ≠ some .dir := by
  rcases hinPlace : options.inPlace with _ | _
  · by_cases htemp : files.get? machine.temp = some .dir
    · exact .inl ⟨_, _, .separate hinPlace htemp⟩
    · exact .inr ⟨rfl, htemp⟩
  · exact .inl ⟨_, _, .inPlace hinPlace⟩

theorem perform_withWorkDir_of_not_dir {α : Type} (action : WorkDir → Action α)
    (events : List Event) (hinPlace : options.inPlace = false)
    (htemp : files.get? machine.temp ≠ some .dir) :
    (withWorkDir machine.temp options.inPlace options.keepWork sources action).perform
        ⟨files, events⟩ = (.error (.error (.io .notFound)), ⟨files, events⟩) := by
  have hmake : (makeWorkDir machine.temp).perform ⟨files, events⟩ =
      (.error (.error (.io .notFound)), ⟨files, events⟩) := by
    have hdir : files.isDir machine.temp = false := by simpa [FileSystem.isDir] using htemp
    simp only [makeWorkDir, Action.perform_bind, Action.perform_files, hdir]
    rfl
  simp only [withWorkDir, hinPlace, Bool.false_eq_true, if_false, Action.perform_bind, hmake]

theorem perform_noteListed (tasks : List Task) (events : List Event) :
    ∃ added, starts added = [] ∧
      (noteListed tasks).perform ⟨files, events⟩ = (.ok (), ⟨files, events ++ added⟩) := by
  induction tasks generalizing events with
  | nil => exact ⟨[], rfl, by rw [List.append_nil]; rfl⟩
  | cons task rest ih =>
    simp only [noteListed, Action.perform_bind, Action.perform_note]
    obtain ⟨added, hquiet, hrest⟩ := ih (events ++ [.noted _])
    exact ⟨.noted _ :: added, hquiet, by rw [hrest, List.append_assoc]; rfl⟩

/-- **A build in an open work directory** stops there, or compiles what is in it. -/
theorem perform_buildIn (flags : List String) (set : FileSet) (events : List Event)
    (hinPlace : work.isInPlace = options.inPlace) :
    ∃ result after added, (buildIn machine options flags set work).perform ⟨before, events⟩ =
        (result, ⟨after, events ++ added⟩) ∧
      ((∃ failure, StopsIn machine options set work before failure after ∧
          result = .error failure ∧ starts added = []) ∨
        ∃ tasks count events',
          planTasks machine.cwd.path work (options.profilePath machine.cwd.path) set.paths =
            .ok tasks ∧
          (instrumentAll machine.cwd options.inPlace tasks).perform ⟨before, []⟩ =
            (.ok count, ⟨after, events'⟩) ∧
          Compiles machine.cwd machine.compiler after work.path
            (compilerArguments flags (options.outputPath machine.cwd.path)
              (if set.listed then tasks else [])) result (starts added)) := by
  have hannounce : ∃ announced, starts announced = [] ∧
      (buildIn machine options flags set work).perform ⟨before, events⟩ =
        (do
          let tasks ← Action.orFail id
            (planTasks machine.cwd.path work (options.profilePath machine.cwd.path) set.paths)
          let _ ← instrumentAll machine.cwd work.isInPlace tasks
          noteListed (if set.listed then tasks else [])
          compile machine.cwd machine.compiler work.path
            (compilerArguments flags (options.outputPath machine.cwd.path)
              (if set.listed then tasks else [])) : Action Unit).perform
          ⟨before, events ++ announced⟩ := by
    rcases hkeep : options.keepWork with _ | _
    · refine ⟨[], rfl, ?_⟩
      simp only [buildIn, hkeep, List.append_nil]
      rfl
    · refine ⟨[.announced work.path], rfl, ?_⟩
      simp only [buildIn, hkeep, if_true]
      rfl
  obtain ⟨announced, hquiet, hannounce⟩ := hannounce
  simp only [hannounce, Action.perform_bind, Action.perform_orFail, hinPlace, id_eq]
  rcases hplan : planTasks machine.cwd.path work (options.profilePath machine.cwd.path) set.paths
    with error | tasks
  · exact ⟨_, _, announced, rfl, .inl ⟨_, .tasks hplan, rfl, hquiet⟩⟩
  obtain ⟨instrumented, after, added, hadded, hrun⟩ :=
    quiet_instrumentAll machine.cwd options.inPlace tasks before
  rcases instrumented with failure | count
  · refine ⟨.error failure, after, announced ++ added, by simp only [hrun, List.append_assoc],
      .inl ⟨failure, .instrumented hplan (hrun []), rfl, ?_⟩⟩
    rw [starts_append, hquiet, hadded]
    rfl
  · simp only [hrun]
    obtain ⟨noted, hnoted, hlisted⟩ := @perform_noteListed after
      (if set.listed then tasks else []) (events ++ announced ++ added)
    obtain ⟨result, compiled, hcompile, hcompiles⟩ := @perform_compile after machine.cwd
      machine.compiler work.path (compilerArguments flags (options.outputPath machine.cwd.path)
        (if set.listed then tasks else [])) (events ++ announced ++ added ++ noted)
    refine ⟨result, after, announced ++ added ++ noted ++ compiled, ?_,
      .inr ⟨tasks, count, _, rfl, hrun [], ?_⟩⟩
    · simp only [hlisted, hcompile]
      simp only [List.append_assoc]
    · simpa only [starts_append, hquiet, hadded, hnoted, List.nil_append] using hcompiles

/-- A build whose flags cannot be parsed does nothing at all. -/
theorem perform_buildProject_of_flags (world : World)
    (hflags : shellWords? (options.buildFlags.getD "") = none) :
    (buildProject machine options).perform world =
      (.error (.error .invalidBuildFlags), world) := by
  simp only [buildProject, hflags]
  rfl

/-- Neither does a build whose files are not found. -/
theorem perform_buildProject_of_set {world : World} {flags : List String} {error : Error}
    (hflags : shellWords? (options.buildFlags.getD "") = some flags)
    (hset : resolveFileSet world.files machine.cwd (gopathOf machine.gopath) options.inputs =
      .error error) :
    (buildProject machine options).perform world = (.error (.error error), world) := by
  simp only [buildProject, hflags, Action.perform_bind, Action.perform_pure, Action.perform_files,
    Action.perform_orFail, hset, id_eq]

/-- A build whose files are found leaves notes and goes on in its work directory. -/
theorem perform_buildProject_of_found {flags : List String} {set : FileSet}
    (hflags : shellWords? (options.buildFlags.getD "") = some flags)
    (hset : resolveFileSet files machine.cwd (gopathOf machine.gopath) options.inputs = .ok set) :
    ∃ noted, starts noted = [] ∧ (buildProject machine options).perform ⟨files, []⟩ =
      (((withWorkDir machine.temp options.inPlace options.keepWork set.dir
          (buildIn machine options flags set)).perform ⟨files, noted⟩).1.map
            fun _ => options.outputPath machine.cwd.path,
        ((withWorkDir machine.temp options.inPlace options.keepWork set.dir
          (buildIn machine options flags set)).perform ⟨files, noted⟩).2) := by
  refine ⟨[.noted
      ⟨.info, .command, "will compile to " ++ (options.outputPath machine.cwd.path).text⟩,
    .noted ⟨.info, .command, "instrumented executable will save cpu profile as " ++
      options.profilePath machine.cwd.path⟩], rfl, ?_⟩
  simp only [buildProject, hflags, Action.perform_bind, Action.perform_pure, Action.perform_files,
    Action.perform_orFail, hset, Action.perform_note, List.nil_append, List.singleton_append]
  rcases (withWorkDir machine.temp options.inPlace options.keepWork set.dir
    (buildIn machine options flags set)).perform _ with ⟨failure | _, after⟩
  · rfl
  · rfl

/-- **What a build does**: it stops at a stage, and the compiler is not started; or it has all
stages behind it and compiles what they give. -/
theorem perform_buildProject (machine : Machine) (options : Options) (files : FileSystem) :
    ∃ result after, (buildProject machine options).perform ⟨files, []⟩ = (result, after) ∧
      ((∃ failure, Stops machine options files failure after.files ∧ result = .error failure ∧
          starts after.events = []) ∨
        ∃ given compiled, Prepares machine options files given ∧
          result = compiled.map (fun _ => options.outputPath machine.cwd.path) ∧
          after.files = tidied machine options files given.after ∧
          Compiles machine.cwd machine.compiler given.after given.work.path
            (compilerArguments given.flags (options.outputPath machine.cwd.path)
              (if given.set.listed then given.tasks else [])) compiled (starts after.events)) := by
  rcases hflags : shellWords? (options.buildFlags.getD "") with _ | flags
  · exact ⟨_, _, perform_buildProject_of_flags _ hflags, .inl ⟨_, .flags hflags, rfl, rfl⟩⟩
  rcases hset : resolveFileSet files machine.cwd (gopathOf machine.gopath) options.inputs
    with error | set
  · exact ⟨_, _, perform_buildProject_of_set hflags hset, .inl ⟨_, .set hset, rfl, rfl⟩⟩
  obtain ⟨noted, hquiet, hrun⟩ := perform_buildProject_of_found hflags hset
  refine ⟨_, _, hrun, ?_⟩
  rcases opened_or machine options files set.dir with ⟨work, before, hopened⟩ | ⟨hinPlace, htemp⟩
  · obtain ⟨result, after, added, hbuild, hcases⟩ :=
      @perform_buildIn machine options before work flags set noted hopened.isInPlace_eq
    rw [perform_withWorkDir _ _ hopened, hbuild]
    rcases hcases with ⟨failure, hstops, rfl, hadded⟩ |
      ⟨tasks, count, events, hplan, hdone, hcompiles⟩
    · refine .inl ⟨failure, .inside hset hopened hstops, rfl, ?_⟩
      rw [starts_append, hquiet, hadded]
      rfl
    · refine .inr ⟨⟨flags, set, work, before, tasks, count, after⟩, result,
        ⟨hflags, hset, hopened, hplan, events, hdone⟩, rfl, rfl, ?_⟩
      rwa [starts_append, hquiet, List.nil_append]
  · rw [perform_withWorkDir_of_not_dir _ _ hinPlace htemp]
    exact .inl ⟨_, .work hinPlace htemp, rfl, hquiet⟩

end

end EntryProbe.Build
