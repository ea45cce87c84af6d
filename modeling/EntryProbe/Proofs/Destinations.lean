import EntryProbe.Proofs.NamedFiles
import EntryProbe.Proofs.TwoWays

/-!
# The destinations of a build

The files of a build are in one directory (`EntryProbe.Path.Together`), so that they can be
told apart by their names. Hence no two tasks have the same destination, if the files are
those of a package. Files that are named one by one are taken as they are named, though: a
file that is named twice, in the same way or in another one, has two tasks, and they have
the same destination.

* `EntryProbe.Build.nodup_destinations` – the destinations are distinct if the files that
  have a task are;
* `EntryProbe.Build.planTasks_distinct` – the destinations are distinct exactly if no file
  with a task is named twice. Then no file is instrumented twice in place, unless there are
  links among the sources, and no two tasks meet in a work directory.
-/

namespace EntryProbe

/-! ### Files in one directory -/

namespace Path

/-- **Paths in one directory**: those that have a name have the same moves before it. -/
def Together (paths : List Path) : Prop :=
  ∃ absolute front, ∀ path ∈ paths, path.text.isEmpty = false ∧
    ∀ name, path.fileName? = some name →
      path.isAbsolute = absolute ∧ path.moves = front ++ [.name name]

section

variable {cwd : Location} {paths : List Path} {path other dir : Path} {name name' : String}

theorem Together.isEmpty_eq (h : Together paths) (hpath : path ∈ paths) :
    path.text.isEmpty = false := by
  obtain ⟨_, _, hall⟩ := h
  exact (hall path hpath).1

/-- **Files in one directory are told apart by their names.** -/
theorem Together.rooted?_inj (h : Together paths) (hcwd : ∀ name ∈ cwd, IsName name)
    (hpath : path ∈ paths) (hother : other ∈ paths) (hname : path.fileName? = some name)
    (hname' : other.fileName? = some name') :
    path.rooted? cwd = other.rooted? cwd ↔ name = name' := by
  obtain ⟨absolute, front, hall⟩ := h
  obtain ⟨htext, hmoves⟩ := hall path hpath
  obtain ⟨htext', hmoves'⟩ := hall other hother
  obtain ⟨habsolute, hmoves⟩ := hmoves name hname
  obtain ⟨habsolute', hmoves'⟩ := hmoves' name' hname'
  rw [rooted?_eq hcwd htext, rooted?_eq hcwd htext', fromRoot, fromRoot, hmoves, hmoves', habsolute,
    habsolute']
  simp

/-- A name below a directory, which can be the empty path. -/
theorem join_isName (dir : Path) (h : IsName name) :
    (dir.join ⟨name⟩).isAbsolute = dir.isAbsolute ∧
      (dir.join ⟨name⟩).moves = dir.moves ++ [.name name] ∧
      (dir.join ⟨name⟩).fileName? = some name := by
  by_cases hdir : dir.text.isEmpty = true
  · obtain rfl : dir = ⟨""⟩ := congrArg Path.mk (String.isEmpty_iff.mp hdir)
    have hmove : Component.IsMove (.name name) := .name h
    have hcomponents : (⟨name⟩ : Path).components = [.name name] := hmove.components_eq
    have hjoin : (⟨""⟩ : Path).join ⟨name⟩ = ⟨name⟩ := by
      rw [join, if_neg (by simp [h.not_isAbsolute])]
      simp
    have hfilter := (⟨name⟩ : Path).components_filter
    rw [hcomponents, h.not_isAbsolute] at hfilter
    rw [hjoin]
    exact ⟨h.not_isAbsolute, hfilter.symm, by simp [fileName?, hcomponents]⟩
  · rw [Bool.not_eq_true] at hdir
    exact ⟨isAbsolute_join hdir h.toIsPiece, moves_join hdir h, fileName?_join hdir h⟩

/-- Names below a directory are in one directory. -/
theorem together_join (dir : Path) {names : List String} (h : ∀ name ∈ names, IsName name) :
    Together (names.map fun name => dir.join ⟨name⟩) := by
  refine ⟨dir.isAbsolute, dir.moves, fun path hmem => ?_⟩
  obtain ⟨name, hname, rfl⟩ := List.mem_map.mp hmem
  obtain ⟨habsolute, hmoves, hfile⟩ := join_isName dir (h name hname)
  refine ⟨text_join_isEmpty (h name hname).toIsPiece, fun name' hname' => ?_⟩
  rw [hfile] at hname'
  cases hname'
  exact ⟨habsolute, hmoves⟩

theorem rooted?_join_inj (dir : Path) (hcwd : ∀ name ∈ cwd, IsName name) (h : IsName name)
    (h' : IsName name') :
    (dir.join ⟨name⟩).rooted? cwd = (dir.join ⟨name'⟩).rooted? cwd ↔ name = name' := by
  have hnames : ∀ text ∈ [name, name'], IsName text := by simpa using ⟨h, h'⟩
  exact (together_join dir hnames).rooted?_inj hcwd (by simp) (by simp) (join_isName dir h).2.2
    (join_isName dir h').2.2

end

end Path

/-! ### Sources that lead to files -/

namespace FileSystem

/-- The path of a symbolic link. -/
def IsLink (fs : FileSystem) (cwd : Location) (path : Path) : Prop :=
  ∃ place target, fs.entryOf cwd path = .ok (place, false) ∧ fs.get? place = some (.link target)

/-- The name of a file is no link. -/
theorem not_isLink_of_file {fs : FileSystem} {cwd place : Location} {path : Path}
    {content : ByteArray} (hentry : fs.entryOf cwd path = .ok (place, false))
    (hfile : fs.get? place = some (.file content)) : ¬ fs.IsLink cwd path := by
  rintro ⟨place', target, hentry', hlink⟩
  cases hentry.symm.trans hentry'
  cases hfile.symm.trans hlink

/-- **A path that leads to a file stands for an entry**, which is the file or a link. -/
theorem Leads.exists_namesEntry {fs : FileSystem} {cwd place : Location} {path : Path}
    {links : Nat} {content : ByteArray} (htree : fs.IsTree) (h : fs.Leads cwd path links place)
    (hfile : fs.get? place = some (.file content)) :
    ∃ links' ≤ links, ∃ links'' parent name, fs.NamesEntry cwd path links' parent name ∧
      fs.Walks links'' parent [.name name] place := by
  obtain ⟨htext, hwalk⟩ := h
  rcases path.steps_cases with ⟨before, name, hending, hsteps⟩ | ⟨before, step, hsteps, hstep⟩
  · rw [hsteps] at hwalk
    obtain ⟨links', links'', parent, rfl, hbefore, hname⟩ := hwalk.exists_mid
    refine ⟨links', Nat.le_add_right .., links'', parent, name,
      ⟨htext, before, hending, hbefore, ?_⟩, hname⟩
    rcases hname with _ | _ | _ | ⟨hdir, -, -, -⟩ | ⟨hdir, -, -, -⟩
    · exact hdir
    · exact hdir
  · -- the last step leads to a directory
    rw [hsteps] at hwalk
    obtain ⟨_, _, parent, -, -, hlast⟩ := hwalk.exists_mid
    rcases hstep with rfl | rfl
    · rcases hlast with _ | ⟨hdir, hdone⟩
      cases hdone
      rw [hdir] at hfile
      cases hfile
    · rcases hlast with _ | _ | ⟨hdir, hdone⟩
      cases hdone
      rw [htree.occupied_dropLast hdir] at hfile
      cases hfile

/-- A path that is not that of a link leads to the file that it stands for. -/
theorem exists_place_of_not_isLink {fs : FileSystem} {cwd place : Location} {path : Path}
    {content : ByteArray} (htree : fs.IsTree) (hlink : ¬ fs.IsLink cwd path)
    (h : fs.resolve cwd path = .ok place) (hfile : fs.get? place = some (.file content)) :
    ∃ parent name, path.fileName? = some name ∧ place = parent ++ [name] := by
  obtain ⟨links, hle, hleads⟩ := resolve_eq_ok.mp h
  obtain ⟨links', hle', links'', parent, name, hnames, hlast⟩ :=
    hleads.exists_namesEntry htree hfile
  obtain ⟨-, before, hending, -, -⟩ := id hnames
  refine ⟨parent, name, Path.fileName?_of_ending hending, ?_⟩
  rcases hlast with _ | _ | _ | ⟨-, -, -, hdone⟩ | ⟨-, hnode, -, -⟩
  · cases hdone
    rfl
  · exact absurd
      ⟨_, _, entryOf_eq_ok.mpr ⟨links', hle'.trans hle, parent, name, rfl, hnames⟩, hnode⟩
      hlink

end FileSystem

namespace Build

/-! ### The files of a build -/

section

variable {files : FileSystem} {cwd : Location} {dir : Path} {set : FileSet} {inputs : List Path}

/-- The files of a package are names below its directory, each of them once. -/
theorem exists_names_of_package (htree : files.IsTree) (h : package files cwd dir = .ok set) :
    ∃ names : List String, set.paths = (names.map fun name => dir.join ⟨name⟩) ∧
      (∀ name ∈ names, Path.IsName name) ∧ names.Nodup := by
  rcases paths_of_package h with hnil | ⟨place, -, hpaths⟩
  · exact ⟨[], hnil, nofun, .nil⟩
  · exact ⟨_, hpaths, isName_of_mem_packageNames htree, (files.names_nodup place).filter _⟩

theorem isEmpty_of_stat {path : Path} {node : Node} (h : files.stat cwd path = .ok node) :
    path.text.isEmpty = false := by
  obtain ⟨_, -, _, hleads, -⟩ := FileSystem.stat_eq_ok.mp h
  exact hleads.1

/-- **Files that were named one by one** are the inputs, which are all there, and whose cleaned
directories are one. -/
theorem eq_inputs_of_listed {gopath : Option Path}
    (h : resolveFileSet files cwd gopath inputs = .ok set) (hlisted : set.listed = true) :
    set.paths = inputs ∧ (∀ input ∈ inputs, ∃ node, files.stat cwd input = .ok node) ∧
      ∃ components, ∀ input ∈ inputs, (dirOf input).components = components := by
  have hpackage : ∀ dir, package files cwd dir ≠ .ok set := by
    intro dir hset
    rw [package] at hset
    split at hset <;> cases hset
    cases hlisted
  unfold resolveFileSet at h
  split at h
  · exact absurd h (hpackage _)
  · next input =>
    rcases hstat : files.stat cwd input with cause | node
    · rcases gopath with _ | gopath <;> simp only [hstat] at h
      · cases h
      · exact absurd h (hpackage _)
    · have hthere : ∀ other ∈ [input], ∃ node, files.stat cwd other = .ok node := by
        simpa using ⟨node, hstat⟩
      rcases node with content | _ | target <;> simp only [hstat] at h
      · cases h
        exact ⟨rfl, hthere, _, by simp; rfl⟩
      · exact absurd h (hpackage _)
      · cases h
        exact ⟨rfl, hthere, _, by simp; rfl⟩
  · split at h
    · next hcheck =>
      cases h
      obtain ⟨first, hfits⟩ := exists_fits_of_checkListed hcheck
      exact ⟨rfl, fun input hmem => (hfits input hmem).1, (dirOf first).components,
        fun input hmem => congrArg Path.components (hfits input hmem).2⟩
    · cases h

/-- **The files of a build are in one directory.** If they were not named one by one, they are
names below it, each of them once. -/
theorem together_of_resolveFileSet {gopath : Option Path} (htree : files.IsTree)
    (h : resolveFileSet files cwd gopath inputs = .ok set) :
    Path.Together set.paths ∧ (set.listed = true → set.paths = inputs) ∧
      (set.listed = false → ∃ (dir : Path) (names : List String),
        set.paths = (names.map fun name => dir.join ⟨name⟩) ∧
        (∀ name ∈ names, Path.IsName name) ∧ names.Nodup) := by
  by_cases hlisted : set.listed = true
  · obtain ⟨hpaths, hthere, components, hdirs⟩ := eq_inputs_of_listed h hlisted
    refine ⟨?_, fun _ => hpaths, fun hnot => absurd hlisted (by simp [hnot])⟩
    rw [hpaths]
    -- one input with a name tells what comes before the name in all of them
    by_cases hname : ∃ input ∈ inputs, ∃ name, input.fileName? = some name
    · obtain ⟨first, hfirst, name, hname⟩ := hname
      obtain ⟨parent, -, -, hmoves⟩ := Path.exists_parent? hname
      refine ⟨first.isAbsolute, parent.moves, fun path hpath => ⟨?_, fun name' hname' => ?_⟩⟩
      · obtain ⟨node, hstat⟩ := hthere path hpath
        exact isEmpty_of_stat hstat
      · obtain ⟨front, habsolute, hfront, hpathMoves⟩ := exists_moves_of_dirOf hname hname'
          ((hdirs first hfirst).trans (hdirs path hpath).symm)
        rw [hmoves] at hfront
        rw [habsolute, hpathMoves, (List.append_inj' hfront rfl).1]
        exact ⟨rfl, rfl⟩
    · refine ⟨false, [],
        fun path hpath => ⟨?_, fun name hname' => absurd ⟨path, hpath, name, hname'⟩ hname⟩⟩
      obtain ⟨node, hstat⟩ := hthere path hpath
      exact isEmpty_of_stat hstat
  · rw [Bool.not_eq_true] at hlisted
    obtain ⟨dir, hpackage⟩ := exists_package h hlisted
    obtain ⟨names, hpaths, hnames, hnodup⟩ := exists_names_of_package htree hpackage
    refine ⟨hpaths ▸ Path.together_join dir hnames, fun hnot => ?_,
      fun _ => ⟨dir, names, hpaths, hnames, hnodup⟩⟩
    rw [hlisted] at hnot
    cases hnot

end

/-! ### The tasks -/

/-- A file has a task. Into a directory of their own go only files that have a name. -/
def WorkDir.takes (work : WorkDir) (path : Path) : Bool :=
  work.isInPlace || path.fileName?.isSome

/-- A path is the destination for a source. -/
def WorkDir.Receives (work : WorkDir) (here source destination : Path) : Prop :=
  match work with
  | .inPlace _ => Path.absolute? here source = some destination
  | .separate dir => ∃ name, source.fileName? = some name ∧ destination = dir.join ⟨name⟩

section

variable {here : Path} {work : WorkDir} {profile : String} {sources : List Path} {tasks : List Task}

/-- The task for a source, if it has one. -/
theorem task?_eq_ok {source : Path} {task? : Option Task}
    (h : work.task? here profile source = .ok task?) :
    (task?.map Task.source).toList = [source].filter work.takes ∧
      ∀ task, task? = some task → task.source = source ∧ task.profile = profile ∧
        work.Receives here source task.destination := by
  rcases work with dir | dir
  · simp only [WorkDir.task?] at h
    split at h <;> cases h
    next destination habsolute =>
    refine ⟨rfl, ?_⟩
    rintro _ ⟨⟩
    exact ⟨rfl, rfl, habsolute⟩
  · simp only [WorkDir.task?, Except.ok.injEq] at h
    subst h
    rcases hname : source.fileName? with _ | name
    · exact ⟨by simp [WorkDir.takes, WorkDir.isInPlace, hname], nofun⟩
    · refine ⟨by simp [WorkDir.takes, WorkDir.isInPlace, hname], ?_⟩
      rintro _ ⟨⟩
      exact ⟨rfl, rfl, name, hname, rfl⟩

/-- The task that a source gets, if it gets one. -/
def WorkDir.taskOf? (work : WorkDir) (here : Path) (profile : String) (source : Path) :
    Option Task :=
  match work.task? here profile source with
  | .ok task? => task?
  | .error _ => none

theorem taskOf?_eq {source : Path} {task? : Option Task}
    (h : work.task? here profile source = .ok task?) :
    work.taskOf? here profile source = task? := by
  rw [WorkDir.taskOf?, h]

/-- The task of a source is for this source and the given profile. -/
theorem taskOf?_eq_some {source : Path} {task : Task}
    (h : work.taskOf? here profile source = some task) :
    task.source = source ∧ task.profile = profile ∧ work.Receives here source task.destination := by
  unfold WorkDir.taskOf? at h
  split at h
  · next htask => exact (task?_eq_ok htask).2 task h
  · cases h

/-- **A plan has the tasks of the sources**, in the order of their sources. There is a plan if no
source stands in the way of it. -/
theorem planTasks_eq_ok :
    planTasks here work profile sources = .ok tasks ↔
      (∀ source ∈ sources, ∃ task?, work.task? here profile source = .ok task?) ∧
        tasks = (sources.filterMap (work.taskOf? here profile)).mergeSort
          fun task other => task.source.le other.source := by
  have hmap : ∀ planned, sources.mapM (work.task? here profile) = .ok planned ↔
      (∀ source ∈ sources, ∃ task?, work.task? here profile source = .ok task?) ∧
        planned = sources.map (work.taskOf? here profile) := by
    induction sources with
    | nil =>
      intro planned
      simp [pure, Except.pure, eq_comm]
    | cons source rest ih =>
      intro planned
      rw [List.mapM_cons, Go.bind_eq_ok, List.forall_mem_cons, List.map_cons]
      constructor
      · rintro ⟨task?, htask, hrest⟩
        obtain ⟨others, hothers, hplanned⟩ := Go.bind_eq_ok.mp hrest
        cases hplanned
        obtain ⟨hall, rfl⟩ := (ih others).mp hothers
        exact ⟨⟨⟨task?, htask⟩, hall⟩, by rw [taskOf?_eq htask]⟩
      · rintro ⟨⟨⟨task?, htask⟩, hall⟩, rfl⟩
        refine ⟨task?, htask, Go.bind_eq_ok.mpr ⟨_, (ih _).mpr ⟨hall, rfl⟩, ?_⟩⟩
        rw [taskOf?_eq htask]
        rfl
  rw [planTasks, Go.bind_eq_ok]
  constructor
  · rintro ⟨planned, hplanned, hsorted⟩
    obtain ⟨hall, rfl⟩ := (hmap planned).mp hplanned
    cases hsorted
    exact ⟨hall, by rw [List.filterMap_map]; rfl⟩
  · rintro ⟨hall, rfl⟩
    exact ⟨_, (hmap _).mpr ⟨hall, rfl⟩, by rw [List.filterMap_map]; rfl⟩

/-- The sources of the tasks are those that have one. -/
theorem map_source_taskOf?
    (h : ∀ source ∈ sources, ∃ task?, work.task? here profile source = .ok task?) :
    (sources.filterMap (work.taskOf? here profile)).map Task.source =
      sources.filter work.takes := by
  rw [List.map_filterMap, ← List.filterMap_eq_filter]
  refine List.filterMap_congr fun source hmem => ?_
  obtain ⟨task?, htask⟩ := h source hmem
  obtain ⟨hsource, -⟩ := task?_eq_ok htask
  rw [taskOf?_eq htask]
  rcases htakes : work.takes source with _ | _ <;> cases task? <;>
    simp_all [Option.guard]

/-- **Each file that has a task has one**, and nothing else has. -/
theorem perm_of_planTasks (h : planTasks here work profile sources = .ok tasks) :
    (tasks.map Task.source).Perm (sources.filter work.takes) ∧
      ∀ task ∈ tasks, task.source ∈ sources ∧ work.Receives here task.source task.destination := by
  obtain ⟨hall, rfl⟩ := planTasks_eq_ok.mp h
  refine ⟨map_source_taskOf? hall ▸ (List.mergeSort_perm _ _).map _, fun task hmem => ?_⟩
  obtain ⟨source, hsource, htask⟩ := List.mem_filterMap.mp (List.mem_mergeSort.mp hmem)
  obtain ⟨hsame, -, hreceives⟩ := taskOf?_eq_some htask
  rw [hsame]
  exact ⟨hsource, hreceives⟩

theorem nodup_map_iff {α β γ : Type} {list : List α} {f : α → β} {g : α → γ}
    (h : ∀ a ∈ list, ∀ b ∈ list, f a = f b ↔ g a = g b) :
    (list.map f).Nodup ↔ (list.map g).Nodup := by
  rw [List.Nodup, List.pairwise_map, List.Nodup, List.pairwise_map]
  constructor
  · exact fun hpairs => hpairs.imp_of_mem fun ha hb hne hsame => hne ((h _ ha _ hb).mpr hsame)
  · exact fun hpairs => hpairs.imp_of_mem fun ha hb hne hsame => hne ((h _ ha _ hb).mp hsame)

variable {cwd : Location}

/-- Two tasks have the same destination exactly if they have the same source. -/
theorem nodup_destinations_iff (hcwd : ∀ name ∈ cwd, Path.IsName name)
    (htogether : Path.Together sources)
    (hplan : planTasks cwd.path work profile sources = .ok tasks) :
    (tasks.map fun task => task.destination.rooted? cwd).Nodup ↔
      (tasks.map fun task => task.source.rooted? cwd).Nodup := by
  obtain ⟨-, hall⟩ := perm_of_planTasks hplan
  refine nodup_map_iff fun task hmem other hother => ?_
  obtain ⟨hsource, hreceives⟩ := hall task hmem
  obtain ⟨hsource', hreceives'⟩ := hall other hother
  rcases work with dir | dir
  · rw [Path.rooted?_absolute hcwd hreceives, Path.rooted?_absolute hcwd hreceives']
  · obtain ⟨name, hname, hdestination⟩ := hreceives
    obtain ⟨name', hname', hdestination'⟩ := hreceives'
    rw [htogether.rooted?_inj hcwd hsource hsource' hname hname', hdestination, hdestination']
    exact Path.rooted?_join_inj dir hcwd (Path.isName_of_fileName? hname)
      (Path.isName_of_fileName? hname')

/-- **The destinations are distinct if the files that have a task are**, and only then. -/
theorem nodup_destinations (hcwd : ∀ name ∈ cwd, Path.IsName name)
    (htogether : Path.Together sources)
    (hplan : planTasks cwd.path work profile sources = .ok tasks) :
    (tasks.map fun task => task.destination.rooted? cwd).Nodup ↔
      ((sources.filter work.takes).map (Path.rooted? cwd)).Nodup := by
  rw [nodup_destinations_iff hcwd htogether hplan,
    ← ((perm_of_planTasks hplan).1.map (Path.rooted? cwd)).nodup_iff, List.map_map]
  rfl

/-- The files of a package are distinct. -/
theorem nodup_package {dir : Path} {names : List String} (hcwd : ∀ name ∈ cwd, Path.IsName name)
    (hnames : ∀ name ∈ names, Path.IsName name) (hnodup : names.Nodup) :
    ((names.map fun name => dir.join ⟨name⟩).map (Path.rooted? cwd)).Nodup := by
  rw [List.map_map, nodup_map_iff (g := id), List.map_id]
  · exact hnodup
  · intro name hname name' hname'
    exact Path.rooted?_join_inj dir hcwd (hnames name hname) (hnames name' hname')

/-- **Distinct sources that are not links are not one file.** -/
theorem pairwise_not_sharesFile {fs : FileSystem} (htree : fs.IsTree)
    (hcwd : ∀ name ∈ cwd, Path.IsName name) (htogether : Path.Together sources)
    (hsources : ∀ task ∈ tasks, task.source ∈ sources)
    (hlinks : ∀ task ∈ tasks, ¬ fs.IsLink cwd task.source)
    (hnodup : (tasks.map fun task => task.source.rooted? cwd).Nodup) :
    tasks.Pairwise fun task other => ¬ SharesFile fs cwd task.source other.source := by
  rw [List.Nodup, List.pairwise_map] at hnodup
  refine hnodup.imp_of_mem fun htask hother hne => ?_
  rintro ⟨place, content, hplace, hplace', hfile⟩
  obtain ⟨parent, name, hname, rfl⟩ :=
    FileSystem.exists_place_of_not_isLink htree (hlinks _ htask) hplace hfile
  obtain ⟨parent', name', hname', hsame⟩ :=
    FileSystem.exists_place_of_not_isLink htree (hlinks _ hother) hplace' hfile
  refine hne
    ((htogether.rooted?_inj hcwd (hsources _ htask) (hsources _ hother) hname hname').mpr ?_)
  simpa using (List.append_inj' hsame rfl).2

/-- **The destinations of the tasks are distinct exactly if no file that has a task is named
twice**; for a package they always are. If they are distinct, and no source is a link, then no
file is written to twice in place; and in an empty work directory no task meets what another
one has put there, so that a build fails only because of the sources. -/
theorem planTasks_distinct {files : FileSystem} {gopath : Option Path} {inputs : List Path}
    {set : FileSet} (htree : files.IsTree) (hcwd : files.get? cwd = some .dir)
    (hset : resolveFileSet files cwd gopath inputs = .ok set)
    (hplan : planTasks cwd.path work profile set.paths = .ok tasks) :
    ((tasks.map fun task => task.destination.rooted? cwd).Nodup ↔
      (set.listed = true → ((inputs.filter work.takes).map (Path.rooted? cwd)).Nodup)) ∧
    ((tasks.map fun task => task.destination.rooted? cwd).Nodup →
      (∀ world : World, world.files.IsTree →
        (∀ task ∈ tasks, ¬ world.files.IsLink cwd task.source) →
        ∃ result places after, (runTasks cwd true tasks).perform world = (result, after) ∧
          RunsInPlace cwd world.files tasks result places after.files ∧ places.Nodup) ∧
      ∀ dir, work = .separate dir → ∀ (world : World) (place : Location),
        world.files.resolveDir cwd dir = .ok place → world.files.names place = [] →
        ∀ failure after, (instrumentAll cwd false tasks).perform world = (.error failure, after) →
          failure.OfSource) := by
  have hnames := htree.isName_of_mem hcwd
  obtain ⟨htogether, hinputs, hpackage⟩ := together_of_resolveFileSet htree hset
  obtain ⟨-, hall⟩ := perm_of_planTasks hplan
  refine ⟨?_, fun hnodup => ⟨fun world hworld hlinks => ?_, ?_⟩⟩
  · rw [nodup_destinations hnames htogether hplan]
    rcases hlisted : set.listed with _ | _
    · obtain ⟨dir, names, hpaths, hisName, hdistinct⟩ := hpackage hlisted
      refine iff_of_true ?_ nofun
      rw [hpaths]
      exact (nodup_package hnames hisName hdistinct).sublist (List.filter_sublist.map _)
    · rw [hinputs hlisted]
      exact ⟨fun h _ => h, fun h => h rfl⟩
  · obtain ⟨result, places, after, events, hrun, hruns⟩ := perform_runTasks_inPlace cwd tasks world
    refine ⟨result, places, _, hrun, hruns, hruns.nodup ?_⟩
    exact pairwise_not_sharesFile hworld hnames htogether
      (fun task hmem => (hall task hmem).1) hlinks
      ((nodup_destinations_iff hnames htogether hplan).mp hnodup)
  · rintro dir rfl world place hdir hempty failure after hrun
    refine ofSource_of_instrumentAll hdir (fun task hmem => (hall task hmem).2) hempty ?_ ?_ hrun
    · -- tasks of one name would have one destination
      have hfiles : tasks.filterMap (fun task => task.source.fileName?) =
          tasks.map fun task => task.source.fileName?.getD "" := by
        rw [← List.filterMap_eq_map]
        refine List.filterMap_congr fun task hmem => ?_
        obtain ⟨name, hname, -⟩ := (hall task hmem).2
        simp [hname]
      rw [hfiles, ← nodup_map_iff (f := fun task => task.destination.rooted? cwd)]
      · exact hnodup
      · intro task hmem other hother
        obtain ⟨name, hname, hdestination⟩ := (hall task hmem).2
        obtain ⟨name', hname', hdestination'⟩ := (hall other hother).2
        rw [hdestination, hdestination', hname, hname']
        exact Path.rooted?_join_inj dir hnames (Path.isName_of_fileName? hname)
          (Path.isName_of_fileName? hname')
    · intro task hmem
      obtain ⟨absolute, heq, -⟩ :=
        Path.exists_absolute? hnames (htogether.isEmpty_eq (hall task hmem).1)
      exact Option.isSome_of_eq_some heq

end

/-- One file with a program. -/
def lonelyMain : FileSystem :=
  ⟨[(["main.go"], .ofText "package main; func main() \x7b\x7d")], by simp⟩

/-- Two programs, a directory that is named like a file, and an empty directory. -/
def twoMains : FileSystem :=
  ⟨[(["a.go"], .dir), (["main.go"], .ofText "package main; func main() \x7b\x7d"),
    (["tool.go"], .ofText "package main; func main() \x7b\x7d"), (["w"], .dir)], by simp⟩

theorem planTasks_distinct_repeated :
    (lonelyMain.IsTree ∧
      resolveFileSet lonelyMain [] none [⟨"main.go"⟩, ⟨"./main.go"⟩] =
        .ok ⟨[⟨"main.go"⟩, ⟨"./main.go"⟩], true⟩ ∧
      ∃ tasks, planTasks (Location.path []) (.inPlace ⟨"."⟩) "p" [⟨"main.go"⟩, ⟨"./main.go"⟩] =
          .ok tasks ∧
        ¬ (tasks.map fun task => task.destination.rooted? []).Nodup) ∧
    twoMains.IsTree ∧ twoMains.names ["w"] = [] ∧
    (∃ tasks, planTasks (Location.path []) (.inPlace ⟨"."⟩) "p" [⟨"main.go"⟩, ⟨"tool.go"⟩] =
        .ok tasks ∧
      (tasks.map fun task => task.destination.rooted? []).Nodup ∧
      ∃ result places after, (runTasks [] true tasks).perform ⟨twoMains, []⟩ = (result, after) ∧
        RunsInPlace [] twoMains tasks result places after.files ∧ places.Nodup) ∧
    ∃ tasks, planTasks (Location.path []) (.separate ⟨"w"⟩) "p" [⟨"a.go"⟩, ⟨"main.go"⟩] =
        .ok tasks ∧
      (tasks.map fun task => task.destination.rooted? []).Nodup ∧
      ∃ failure after, (instrumentAll [] false tasks).perform ⟨twoMains, []⟩ =
          (.error failure, after) ∧
        failure.OfSource := by
  have htree : twoMains.IsTree := FileSystem.isTree_of_all (by decide)
  have hempty : twoMains.names ["w"] = [] :=
    FileSystem.names_of_filterMap (by decide) (by decide)
  refine ⟨?_, htree, hempty, ?_, ?_⟩
  · have hlonely : lonelyMain.IsTree := FileSystem.isTree_of_all (by decide)
    have hset : resolveFileSet lonelyMain [] none [⟨"main.go"⟩, ⟨"./main.go"⟩] =
        .ok ⟨[⟨"main.go"⟩, ⟨"./main.go"⟩], true⟩ := Go.eq_ok_of_any (by decide)
    have hplan : planTasks (Location.path []) (.inPlace ⟨"."⟩) "p" [⟨"main.go"⟩, ⟨"./main.go"⟩] =
        .ok (List.mergeSort
          [⟨⟨"main.go"⟩, ⟨"/main.go"⟩, "p"⟩, ⟨⟨"./main.go"⟩, ⟨"/main.go"⟩, "p"⟩]
          fun task other => task.source.le other.source) := rfl
    refine ⟨hlonely, hset, _, hplan, ?_⟩
    rw [(planTasks_distinct hlonely (by decide) hset hplan).1]
    decide
  · -- each program is written to at most once
    have hset : resolveFileSet twoMains [] none [⟨"main.go"⟩, ⟨"tool.go"⟩] =
        .ok ⟨[⟨"main.go"⟩, ⟨"tool.go"⟩], true⟩ := Go.eq_ok_of_any (by decide)
    have hsorted : [(⟨⟨"main.go"⟩, ⟨"/main.go"⟩, "p"⟩ : Task),
        ⟨⟨"tool.go"⟩, ⟨"/tool.go"⟩, "p"⟩].Pairwise
          fun task other => task.source.le other.source = true := by decide
    have hplan : planTasks (Location.path []) (.inPlace ⟨"."⟩) "p" [⟨"main.go"⟩, ⟨"tool.go"⟩] =
        .ok [⟨⟨"main.go"⟩, ⟨"/main.go"⟩, "p"⟩, ⟨⟨"tool.go"⟩, ⟨"/tool.go"⟩, "p"⟩] :=
      congrArg Except.ok (List.mergeSort_of_pairwise hsorted)
    have hdistinct := planTasks_distinct htree (by decide) hset hplan
    have hnodup := hdistinct.1.mpr fun _ => by decide
    have hlinks : ∀ task ∈ [(⟨⟨"main.go"⟩, ⟨"/main.go"⟩, "p"⟩ : Task),
        ⟨⟨"tool.go"⟩, ⟨"/tool.go"⟩, "p"⟩], ¬ twoMains.IsLink [] task.source := by
      have hmain : twoMains.entryOf [] ⟨"main.go"⟩ = .ok (["main.go"], false) :=
        Go.eq_ok_of_any (by decide)
      have htool : twoMains.entryOf [] ⟨"tool.go"⟩ = .ok (["tool.go"], false) :=
        Go.eq_ok_of_any (by decide)
      rw [List.forall_mem_cons, List.forall_mem_singleton]
      exact ⟨FileSystem.not_isLink_of_file hmain rfl, FileSystem.not_isLink_of_file htool rfl⟩
    exact ⟨_, hplan, hnodup, (hdistinct.2 hnodup).1 ⟨twoMains, []⟩ htree hlinks⟩
  · -- the directory among the sources cannot be read
    have hset : resolveFileSet twoMains [] none [⟨"a.go"⟩, ⟨"main.go"⟩] =
        .ok ⟨[⟨"a.go"⟩, ⟨"main.go"⟩], true⟩ := Go.eq_ok_of_any (by decide)
    have hsorted : [(⟨⟨"a.go"⟩, ⟨"w/a.go"⟩, "p"⟩ : Task),
        ⟨⟨"main.go"⟩, ⟨"w/main.go"⟩, "p"⟩].Pairwise
          fun task other => task.source.le other.source = true := by decide
    have hplan : planTasks (Location.path []) (.separate ⟨"w"⟩) "p" [⟨"a.go"⟩, ⟨"main.go"⟩] =
        .ok [⟨⟨"a.go"⟩, ⟨"w/a.go"⟩, "p"⟩, ⟨⟨"main.go"⟩, ⟨"w/main.go"⟩, "p"⟩] :=
      congrArg Except.ok (List.mergeSort_of_pairwise hsorted)
    have hdistinct := planTasks_distinct htree (by decide) hset hplan
    have hnodup := hdistinct.1.mpr fun _ => by decide
    refine ⟨_, hplan, hnodup, ?_⟩
    have hdir : twoMains.resolveDir [] ⟨"w"⟩ = .ok ["w"] := Go.eq_ok_of_any (by decide)
    have hfails : ((instrumentAll [] false [⟨⟨"a.go"⟩, ⟨"w/a.go"⟩, "p"⟩,
        ⟨⟨"main.go"⟩, ⟨"w/main.go"⟩, "p"⟩]).perform ⟨twoMains, []⟩).1.toOption = none := by decide
    rcases hrun : (instrumentAll [] false [⟨⟨"a.go"⟩, ⟨"w/a.go"⟩, "p"⟩,
        ⟨⟨"main.go"⟩, ⟨"w/main.go"⟩, "p"⟩]).perform ⟨twoMains, []⟩ with ⟨failure | count, after⟩
    · exact ⟨failure, after, rfl,
        (hdistinct.2 hnodup).2 ⟨"w"⟩ rfl ⟨twoMains, []⟩ ["w"] hdir hempty failure after hrun⟩
    · rw [hrun] at hfails
      cases hfails

end Build

end EntryProbe
