import EntryProbe.Proofs.Listing
import EntryProbe.Proofs.Untouched
import Mathlib.Data.List.Induction

/-!
# Building a package

All files of a package go into an empty work directory, under the names they have. So no
two of them meet there, and a build fails only for a reason that lies in the sources
(`EntryProbe.Build.Failure.OfSource`): a file cannot be read, parsed or printed, or there
is no entry point. If it does not fail, the names in the work directory are those of the
package, and each of them leads to the instrumented program or to the bytes of the source
(`EntryProbe.Build.Carried`).

A file that stays as it is becomes a link. Reading it through the work directory follows
one link more than reading it where it is, besides those on the way to the work directory,
and the number of links on one walk is limited. That is the only reason for which a file
that can be read where it is cannot be read in the work directory.

* `EntryProbe.Build.planTasks_package` – the tasks are planned in the order of the names;
* `EntryProbe.Build.Runs.exists_outcomes`, `EntryProbe.Build.Runs.ofSource` – what the tasks
  have done if the run succeeds, and why it fails;
* `EntryProbe.Build.instrumentAll_package` – a build of a package.
-/

namespace EntryProbe

namespace FileSystem

/-! ### Trees -/

/-- **A file system is a tree**: an entry is in a directory and has a name. -/
structure IsTree (fs : FileSystem) : Prop where
  /-- What is above an entry is a directory. -/
  parent : ∀ place name, fs.occupied (place ++ [name]) = true → fs.get? place = some .dir
  /-- What an entry is called is a name. -/
  isName : ∀ place name, fs.occupied (place ++ [name]) = true → Path.IsName name

section

variable {fs after : FileSystem} {cwd place : Location} {path : Path} {bytes : ByteArray}

theorem IsTree.dir_of_prefix (h : fs.IsTree) (hdir : fs.get? place = some .dir) :
    ∀ front, front <+: place → fs.get? front = some .dir := by
  induction place using List.reverseRecOn with
  | nil =>
    intro front hfront
    rw [List.prefix_nil.mp hfront]
    exact hdir
  | append_singleton place name ih =>
    intro front hfront
    rcases List.prefix_concat_iff.mp hfront with rfl | hfront
    · exact hdir
    · exact ih (h.parent place name (by simp [occupied, hdir])) front hfront

theorem IsTree.isName_of_mem (h : fs.IsTree) (hdir : fs.get? place = some .dir) :
    ∀ name ∈ place, Path.IsName name := by
  intro name hmem
  obtain ⟨front, back, rfl⟩ := List.append_of_mem hmem
  refine h.isName front name ?_
  simp [occupied, h.dir_of_prefix hdir (front ++ [name]) (by simp)]

/-- A tree can be told from its entries. -/
theorem isTree_of_all
    (h : fs.entries.all (fun entry => fs.isDir entry.1.dropLast && entry.1.getLast?.all fun name =>
      Path.stepOf? name.toList == some (.name name) && !name.toList.contains '/') = true) :
    fs.IsTree := by
  have hentry : ∀ place name, fs.occupied (place ++ [name]) = true →
      fs.get? place = some .dir ∧ Path.IsName name := by
    intro place name hoccupied
    rw [occupied, get?, if_neg (by simp), lookup_isSome] at hoccupied
    obtain ⟨entry, hmem, hkey⟩ := List.mem_map.mp hoccupied
    have hcheck := List.all_eq_true.mp h entry hmem
    simp only [hkey, List.dropLast_concat, List.getLast?_concat, Option.all_some,
      Bool.and_eq_true, beq_iff_eq, Bool.not_eq_true', List.contains_eq_mem,
      decide_eq_false_iff_not, isDir, decide_eq_true_eq] at hcheck
    obtain ⟨hdir, hstep, hslash⟩ := hcheck
    refine ⟨hdir, ⟨hslash, ?_⟩, hstep⟩
    intro hnil
    simp [hnil, Path.stepOf?] at hstep
  exact ⟨fun place name h => (hentry place name h).1, fun place name h => (hentry place name h).2⟩

/-! ### Reading -/

/-- A file is read by way of a path, and `links` links are followed. -/
def Reads (fs : FileSystem) (cwd : Location) (path : Path) (links : Nat) (bytes : ByteArray) :
    Prop :=
  ∃ place, fs.Leads cwd path links place ∧ fs.get? place = some (.file bytes)

theorem stat_eq_ok {node : Node} :
    fs.stat cwd path = .ok node ↔
      ∃ links ≤ linkLimit, ∃ place, fs.Leads cwd path links place ∧ fs.get? place = some node := by
  rw [stat, Go.bind_eq_ok]
  constructor
  · rintro ⟨place, hresolve, h⟩
    obtain ⟨links, hle, hleads⟩ := resolve_eq_ok.mp hresolve
    refine ⟨links, hle, place, hleads, ?_⟩
    rcases hnode : fs.get? place with _ | found
    · rw [hnode] at h
      cases h
    · rw [hnode] at h
      cases h
      rfl
  · rintro ⟨links, hle, place, hleads, hnode⟩
    refine ⟨place, resolve_eq_ok.mpr ⟨links, hle, hleads⟩, ?_⟩
    rw [hnode]
    rfl

theorem readBytes_eq_ok :
    fs.readBytes cwd path = .ok bytes ↔ ∃ links ≤ linkLimit, fs.Reads cwd path links bytes := by
  have hread : fs.readBytes cwd path = .ok bytes ↔ fs.stat cwd path = .ok (.file bytes) := by
    rw [readBytes, Go.bind_eq_ok]
    constructor
    · rintro ⟨node, hstat, h⟩
      cases node with
      | file content =>
        cases h
        exact hstat
      | dir => cases h
      | link target => cases h
    · intro hstat
      exact ⟨.file bytes, hstat, rfl⟩
  rw [hread, stat_eq_ok]
  rfl

theorem readText_eq_ok {text : String} :
    fs.readText cwd path = .ok text ↔
      ∃ bytes, fs.readBytes cwd path = .ok bytes ∧ String.fromUTF8? bytes = some text := by
  rw [readText, Go.bind_eq_ok]
  constructor
  · rintro ⟨bytes, hbytes, h⟩
    refine ⟨bytes, hbytes, ?_⟩
    split at h
    · next found hfound =>
      cases h
      exact hfound
    · cases h
  · rintro ⟨bytes, hbytes, htext⟩
    refine ⟨bytes, hbytes, ?_⟩
    rw [htext]
    rfl

/-- A file is read over one number of links. -/
theorem Reads.links_eq {links links' : Nat} {bytes' : ByteArray}
    (h : fs.Reads cwd path links bytes) (h' : fs.Reads cwd path links' bytes') :
    links = links' := by
  obtain ⟨place, hleads, -⟩ := h
  obtain ⟨place', hleads', -⟩ := h'
  exact (hleads.2.unique hleads'.2).1

/-- **What is read by way of a path follows a certain number of links**, and can be read if
this number keeps to the limit. -/
theorem Reads.readBytes_iff {links : Nat} (h : fs.Reads cwd path links bytes) :
    fs.readBytes cwd path = .ok bytes ↔ links ≤ linkLimit := by
  rw [readBytes_eq_ok]
  constructor
  · rintro ⟨links', hle, h'⟩
    rwa [h.links_eq h']
  · intro hle
    exact ⟨links, hle, h⟩

theorem Reads.mono {links : Nat} (h : fs.Reads cwd path links bytes) (hext : fs.Extends after) :
    after.Reads cwd path links bytes := by
  obtain ⟨place, hleads, hnode⟩ := h
  exact ⟨place, hleads.mono hext, hext _ _ hnode⟩

/-- **Reading through a link to the path from the root** follows one link more than reading by
way of the path itself, besides those on the way to the link. -/
theorem NamesEntry.readBytes_link {source absolute : Path} {name : String} {workLinks links : Nat}
    (h : fs.NamesEntry cwd path workLinks place name)
    (hdirs : ∀ front, front <+: cwd → fs.get? front = some .dir)
    (hnames : ∀ name ∈ cwd, Path.IsName name)
    (hnode : fs.get? (place ++ [name]) = some (.link absolute))
    (habsolute : Path.absolute? cwd.path source = some absolute)
    (hreads : fs.Reads cwd source links bytes) :
    fs.readBytes cwd path = .ok bytes ↔ workLinks + (links + 1) ≤ linkLimit := by
  obtain ⟨spot, hleads, hfile⟩ := hreads
  obtain ⟨target, htarget, hleads'⟩ := hleads.absolute hdirs hnames
  rw [habsolute] at htarget
  cases htarget
  -- the target is a path from the root, so it leads there from the place of the link too
  exact Reads.readBytes_iff ⟨spot, h.leads_link hnode (hleads' place), hfile⟩

theorem Extends.readText (hext : fs.Extends after) {text : String}
    (h : fs.readText cwd path = .ok text) : after.readText cwd path = .ok text := by
  obtain ⟨bytes, hbytes, htext⟩ := readText_eq_ok.mp h
  obtain ⟨links, hle, hreads⟩ := readBytes_eq_ok.mp hbytes
  exact readText_eq_ok.mpr ⟨bytes, readBytes_eq_ok.mpr ⟨links, hle, hreads.mono hext⟩, htext⟩

end

end FileSystem

namespace Build

open Go Profiling

/-! ### Files of a package -/

section

variable {files now after : FileSystem} {cwd : Location} {path : Path} {file : SourceFile}

theorem LeadsTo.mono (h : LeadsTo files cwd path file) (hext : files.Extends after) :
    LeadsTo after cwd path file := by
  obtain ⟨hsource, ⟨text, htext, hparse⟩, hentry⟩ := h
  exact ⟨hsource, ⟨text, hext.readText htext, hparse⟩, hentry⟩

theorem LeadsTo.unique {file' : SourceFile} (h : LeadsTo files cwd path file)
    (h' : LeadsTo files cwd path file') : file = file' := by
  obtain ⟨-, ⟨text, htext, hparse⟩, -⟩ := h
  obtain ⟨-, ⟨text', htext', hparse'⟩, -⟩ := h'
  rw [htext] at htext'
  cases htext'
  rw [hparse] at hparse'
  cases hparse'
  rfl

theorem StaysAsIs.mono (h : StaysAsIs files cwd path) (hext : files.Extends after) :
    StaysAsIs after cwd path := by
  intro hsource
  obtain ⟨text, file, htext, hrest⟩ := h hsource
  exact ⟨text, file, hext.readText htext, hrest⟩

theorem StaysAsIs.not_leadsTo (h : StaysAsIs files cwd path) : ¬ LeadsTo files cwd path file := by
  rintro ⟨hsource, ⟨text, htext, hparse⟩, hentry⟩
  obtain ⟨text', file', htext', hparse', hentry'⟩ := h hsource
  rw [htext] at htext'
  cases htext'
  rw [hparse] at hparse'
  cases hparse'
  rw [hentry] at hentry'
  cases hentry'

/-- Whether a program that can be printed is read can be computed. -/
theorem exists_leadsTo_of_any (hsource : isSource path = true)
    (h : (files.readText cwd path).toOption.any (fun text => (parse text).toOption.any fun file =>
      file.hasEntryPoint && !decide file.HasEarlyDecl) = true) :
    ∃ file, LeadsTo files cwd path file ∧ ¬ file.HasEarlyDecl := by
  obtain ⟨text, htext, h⟩ := exists_ok_of_any h
  obtain ⟨file, hparse, h⟩ := exists_ok_of_any h
  rw [Bool.and_eq_true, Bool.not_eq_true', decide_eq_false_iff_not] at h
  exact ⟨file, ⟨hsource, ⟨text, htext, hparse⟩, h.1⟩, h.2⟩

/-- A path that leads to the same bytes leads to the same program. -/
theorem LeadsTo.of_reads {links : Nat} {bytes : ByteArray} (h : LeadsTo after cwd path file)
    (hext : now.Extends after) (hreads : now.Reads cwd path links bytes)
    (hle : links ≤ FileSystem.linkLimit) : LeadsTo now cwd path file := by
  obtain ⟨hsource, ⟨text, htext, hparse⟩, hentry⟩ := h
  refine ⟨hsource, ⟨text, ?_, hparse⟩, hentry⟩
  obtain ⟨bytes', hbytes', hutf8⟩ := FileSystem.readText_eq_ok.mp htext
  rw [(hreads.mono hext).readBytes_iff.mpr hle] at hbytes'
  cases hbytes'
  exact FileSystem.readText_eq_ok.mpr ⟨bytes, hreads.readBytes_iff.mpr hle, hutf8⟩

end

section

variable {files : FileSystem} {cwd place : Location} {dir work : Path} {set : FileSet}
  {profile : String} {names : List String}

/-- Files that were not named one by one are those of a package. -/
theorem exists_package {gopath : Option Path} {inputs : List Path}
    (h : resolveFileSet files cwd gopath inputs = .ok set) (hlisted : set.listed = false) :
    ∃ dir, package files cwd dir = .ok set := by
  unfold resolveFileSet at h
  split at h
  · exact ⟨hereDir, h⟩
  · split at h
    · exact ⟨_, h⟩
    · cases h
      cases hlisted
    · cases h
    · exact ⟨_, h⟩
  · split at h
    · cases h
      cases hlisted
    · cases h

/-- The files of a package are those in its directory, if there are any. -/
theorem paths_of_package (h : package files cwd dir = .ok set) :
    set.paths = [] ∨ ∃ place, files.resolveDir cwd dir = .ok place ∧
      set.paths = (packageNames files place).map fun name => dir.join ⟨name⟩ := by
  simp only [package] at h
  split at h
  · next paths hpaths =>
    cases h
    rw [packageFiles] at hpaths
    split at hpaths
    · cases hpaths
      exact .inl rfl
    · obtain ⟨place, hresolve, hpaths⟩ := bind_eq_ok.mp hpaths
      by_cases hdir : files.isDir place = true
      · rw [if_pos hdir] at hpaths
        cases hpaths
        refine .inr ⟨place, FileSystem.resolveDir_eq_ok.mpr ⟨hresolve, ?_⟩, rfl⟩
        simpa [FileSystem.isDir] using hdir
      · rw [if_neg hdir] at hpaths
        cases hpaths
        exact .inl rfl
  · cases h

/-- The files in a directory, unless it is named as the standard input is. -/
theorem packageFiles_of_dir (hinput : dir.components ≠ standardInput.components)
    (h : files.resolveDir cwd dir = .ok place) :
    packageFiles files cwd dir =
      .ok ((packageNames files place).map fun name => dir.join ⟨name⟩) := by
  obtain ⟨hresolve, hdir⟩ := FileSystem.resolveDir_eq_ok.mp h
  have hisDir : files.isDir place = true := by simpa [FileSystem.isDir] using hdir
  rw [packageFiles, if_neg hinput, hresolve, bind_eq_ok]
  exact ⟨place, rfl, by rw [if_pos hisDir]; rfl⟩

/-- A directory that is named is taken as a package. -/
theorem resolveFileSet_dir (hinput : dir.components ≠ standardInput.components)
    (h : files.resolveDir cwd dir = .ok place) (gopath : Option Path) :
    resolveFileSet files cwd gopath [dir] =
      .ok ⟨(packageNames files place).map fun name => dir.join ⟨name⟩, false⟩ := by
  have hfiles := packageFiles_of_dir hinput h
  have hpackage : package files cwd dir =
      .ok ⟨(packageNames files place).map fun name => dir.join ⟨name⟩, false⟩ := by
    rw [package, hfiles]
  obtain ⟨hresolve, hdir⟩ := FileSystem.resolveDir_eq_ok.mp h
  have hstat : files.stat cwd dir = .ok .dir := by
    rw [FileSystem.stat, hresolve, bind_eq_ok]
    exact ⟨place, rfl, by rw [hdir]; rfl⟩
  rw [← hpackage]
  unfold resolveFileSet
  simp only [hstat]

theorem isName_of_mem_packageNames (htree : files.IsTree) :
    ∀ name ∈ packageNames files place, Path.IsName name := by
  intro name hmem
  exact htree.isName place name (FileSystem.mem_names.mp (List.mem_of_mem_filter hmem))

/-- The tasks for the files of a package. -/
def packageTasks (dir work : Path) (profile : String) (names : List String) : List Task :=
  names.map fun name => ⟨dir.join ⟨name⟩, work.join ⟨name⟩, profile⟩

/-- **The tasks for the files of a package are planned in the order of the names.** -/
theorem planTasks_package (here : Path) (hdir : dir.text.isEmpty = false)
    (hnames : ∀ name ∈ names, Path.IsName name)
    (hsorted : names.Pairwise fun name other => Path.nameLe name other = true) :
    planTasks here (.separate work) profile (names.map fun name => dir.join ⟨name⟩) =
      .ok (packageTasks dir work profile names) := by
  have htasks : separateTasks work profile (names.map fun name => dir.join ⟨name⟩) =
      packageTasks dir work profile names := by
    rw [separateTasks, packageTasks, List.filterMap_map, ← List.filterMap_eq_map]
    refine List.filterMap_congr fun name hname => ?_
    simp [Path.fileName?_join hdir (hnames name hname)]
  rw [planTasks_separate, htasks, List.mergeSort_of_pairwise]
  rw [packageTasks, List.pairwise_map]
  refine hsorted.imp_of_mem fun hname hother hle => ?_
  rwa [Path.le_join hdir (hnames _ hname) (hnames _ hother)]

/-! ### Runs over a package -/

/-- A failure whose reason lies in the sources. -/
inductive Failure.OfSource : Failure → Prop
  /-- A source cannot be read. -/
  | read {path : Path} {cause : IoError} : OfSource (.error (.read path cause))
  /-- A source cannot be parsed. -/
  | parse {path : Path} {cause : SyntaxError} : OfSource (.error (.parse path cause))
  /-- No source has an entry point. -/
  | noEntryPoint : OfSource (.error .noEntryPoint)
  /-- A source cannot be printed. -/
  | crash : OfSource .crash

/-- A source that can be processed: it stays as it is, or it is a program that can be
printed. -/
def Sound (files : FileSystem) (cwd : Location) (path : Path) : Prop :=
  StaysAsIs files cwd path ∨ ∃ file, LeadsTo files cwd path file ∧ ¬ file.HasEarlyDecl

theorem Sound.mono {path : Path} {after : FileSystem} (h : Sound files cwd path)
    (hext : files.Extends after) : Sound after cwd path := by
  rcases h with hstays | ⟨file, hleads, hearly⟩
  · exact .inl (hstays.mono hext)
  · exact .inr ⟨file, hleads.mono hext, hearly⟩

theorem Sound.exists_parse {path : Path} (h : Sound files cwd path)
    (hsource : isSource path = true) :
    ∃ text file, files.readText cwd path = .ok text ∧ parse text = .ok file := by
  rcases h with hstays | ⟨file, ⟨-, ⟨text, htext, hparse⟩, -⟩, -⟩
  · obtain ⟨text, file, htext, hparse, -⟩ := hstays hsource
    exact ⟨text, file, htext, hparse⟩
  · exact ⟨text, file, htext, hparse⟩

/-- A task that finds its destination free fails only because of its source. -/
theorem Task.Outcome.ofSource {spot : Location} {task : Task} {failure : Failure}
    {node : Option Node} (h : task.Outcome files cwd spot (.error failure) node)
    (hfree : files.get? spot = none) (habsolute : (Path.absolute? cwd.path task.source).isSome) :
    failure.OfSource ∧ ¬ Sound files cwd task.source := by
  cases h with
  | unreadable hsource herror =>
    refine ⟨.read, fun hsound => ?_⟩
    obtain ⟨text, file, htext, -⟩ := hsound.exists_parse hsource
    rw [herror] at htext
    cases htext
  | malformed hsource htext herror =>
    refine ⟨.parse, fun hsound => ?_⟩
    obtain ⟨text, file, htext', hparse⟩ := hsound.exists_parse hsource
    rw [htext] at htext'
    cases htext'
    rw [herror] at hparse
    cases hparse
  | crashed hleads _ hprint =>
    refine ⟨.crash, ?_⟩
    rintro (hstays | ⟨file', hleads', hearly⟩)
    · exact hstays.not_leadsTo hleads
    · obtain rfl := hleads.unique hleads'
      obtain ⟨text, -, hparse⟩ := hleads.parse_eq
      obtain ⟨out, hout⟩ := exists_print_instrument hparse hearly task.profile
      rw [hprint] at hout
      cases hout
  | refused hwhy =>
    rcases hwhy with hoccupied | hnone
    · simp [FileSystem.occupied, hfree] at hoccupied
    · simp [hnone] at habsolute

/-- **A run whose destinations are free and apart fails only because of the sources**: one of
them cannot be processed. -/
theorem Runs.ofSource {tasks : List Task} {result : Except Failure Nat} {after : FileSystem}
    (h : Runs cwd place files tasks result after)
    (hfree : ∀ task ∈ tasks, ∀ name, task.source.fileName? = some name →
      files.get? (place ++ [name]) = none)
    (hapart : (tasks.filterMap fun task => task.source.fileName?).Nodup)
    (habsolute : ∀ task ∈ tasks, (Path.absolute? cwd.path task.source).isSome)
    {failure : Failure} (hresult : result = .error failure) :
    failure.OfSource ∧ ∃ task ∈ tasks, ¬ Sound files cwd task.source := by
  induction h generalizing failure with
  | done => cases hresult
  | @failed _ _ task _ name _ _ hfile houtcome _ =>
    cases hresult
    obtain ⟨hfailure, hunsound⟩ := houtcome.ofSource (hfree task List.mem_cons_self name hfile)
      (habsolute task List.mem_cons_self)
    exact ⟨hfailure, task, List.mem_cons_self, hunsound⟩
  | @step files mid after task rest name found node result hfile _ hadds _ ih =>
    simp only [List.filterMap_cons, hfile, List.nodup_cons] at hapart
    have hother : result = .error failure := by
      cases result with
      | error other =>
        cases hresult
        rfl
      | ok count => cases hresult
    -- the task before has taken another destination
    have hfree' : ∀ other ∈ rest, ∀ name', other.source.fileName? = some name' →
        mid.get? (place ++ [name']) = none := by
      intro other hmem name' hfile'
      rw [hadds.elsewhere]
      · exact hfree other (List.mem_cons_of_mem _ hmem) name' hfile'
      · intro entry hentry hsame
        obtain ⟨_, -, rfl⟩ := List.mem_map.mp hentry
        have hname : name' = name := by simpa using hsame
        subst hname
        exact hapart.1 (List.mem_filterMap.mpr ⟨other, hmem, hfile'⟩)
    obtain ⟨hfailure, other, hmem, hunsound⟩ := ih hfree' hapart.2
      (fun task hmem => habsolute task (List.mem_cons_of_mem _ hmem)) hother
    exact ⟨hfailure, other, List.mem_cons_of_mem _ hmem, fun hsound =>
      hunsound (hsound.mono hadds.extends)⟩

/-- A run over a program with an entry point counts it. -/
theorem Runs.count_pos {tasks : List Task} {result : Except Failure Nat} {after : FileSystem}
    (h : Runs cwd place files tasks result after) {count : Nat} (hresult : result = .ok count)
    (hprogram : ∃ task ∈ tasks, ∃ file, LeadsTo files cwd task.source file) : 0 < count := by
  induction h generalizing count with
  | done =>
    obtain ⟨_, hmem, -⟩ := hprogram
    cases hmem
  | failed _ _ _ => cases hresult
  | @step files mid after task rest name found node result hfile houtcome hadds _ ih =>
    obtain ⟨others, rfl⟩ : ∃ others, result = .ok others := by
      cases result with
      | error failure => cases hresult
      | ok others => exact ⟨others, rfl⟩
    cases hresult
    obtain ⟨program, hmem, file, hleads⟩ := hprogram
    rcases List.mem_cons.mp hmem with rfl | hmem
    · cases houtcome with
      | instrumented _ _ _ => exact Nat.lt_of_lt_of_le Nat.one_pos (Nat.le_add_right ..)
      | linked hstays _ _ => exact absurd hleads hstays.not_leadsTo
    · have := ih rfl ⟨program, hmem, file, hleads.mono hadds.extends⟩
      exact Nat.lt_of_lt_of_le this (Nat.le_add_left ..)

/-- **What the tasks of a run that succeeds have done**: each one has added an entry, at a
time between the beginning and the end. -/
theorem Runs.exists_outcomes {tasks : List Task} {result : Except Failure Nat}
    {after : FileSystem} (h : Runs cwd place files tasks result after) {count : Nat}
    (hresult : result = .ok count) :
    ∃ entries, FileSystem.Adds files after place entries ∧
      List.Forall₂ (fun task entry => task.source.fileName? = some entry.1 ∧
        after.get? (place ++ [entry.1]) = some entry.2 ∧
        ∃ mid found, files.Extends mid ∧ mid.Extends after ∧
          task.Outcome mid cwd (place ++ [entry.1]) (.ok found) (some entry.2)) tasks entries := by
  induction h generalizing count with
  | done => exact ⟨[], .refl _ _, .nil⟩
  | failed _ _ _ => cases hresult
  | @step files mid after task rest name found node result hfile houtcome hadds _ ih =>
    obtain ⟨others, hothers⟩ : ∃ others, result = .ok others := by
      cases result with
      | error failure => cases hresult
      | ok others => exact ⟨others, rfl⟩
    obtain ⟨entries, hadds', hall⟩ := ih hothers
    obtain ⟨node, rfl⟩ : ∃ found, node = some found := by
      cases houtcome with
      | instrumented _ _ _ => exact ⟨_, rfl⟩
      | linked _ _ _ => exact ⟨_, rfl⟩
    -- no later task touches the entry
    have hhere : after.get? (place ++ [name]) = some node :=
      hadds'.extends _ _ (hadds.here (name, node) (by simp))
    refine ⟨(name, node) :: entries, hadds.trans hadds', .cons ⟨hfile, hhere, files, found, ?_, ?_,
      houtcome⟩ ?_⟩
    · exact fun _ _ h => h
    · exact hadds.extends.trans hadds'.extends
    · refine hall.imp ?_
      rintro task entry ⟨hname, hnode, mid', found', hbefore, hafter, houtcome'⟩
      exact ⟨hname, hnode, mid', found', hadds.extends.trans hbefore, hafter, houtcome'⟩

/-- In an empty directory all destinations are free. -/
theorem get?_of_names_nil (hempty : files.names place = []) (name : String) :
    files.get? (place ++ [name]) = none := by
  have hnone : name ∉ files.names place := by simp [hempty]
  simpa [FileSystem.mem_names, FileSystem.occupied] using hnone

/-- **A build in an empty directory fails only because of the sources**, if the destinations are
apart. -/
theorem ofSource_of_instrumentAll {world : World} {tasks : List Task}
    (hwork : world.files.resolveDir cwd work = .ok place)
    (htasks : ∀ task ∈ tasks, task.GoesInto work) (hempty : world.files.names place = [])
    (hapart : (tasks.filterMap fun task => task.source.fileName?).Nodup)
    (habsolute : ∀ task ∈ tasks, (Path.absolute? cwd.path task.source).isSome)
    {failure : Failure} {after : World}
    (h : (instrumentAll cwd false tasks).perform world = (.error failure, after)) :
    failure.OfSource := by
  obtain ⟨counted, files, events, hrun, hruns⟩ := perform_runTasks hwork htasks
  rw [perform_instrumentAll, hrun] at h
  rcases counted with other | count
  · cases h
    exact (hruns.ofSource (fun _ _ name _ => get?_of_names_nil hempty name) hapart habsolute rfl).1
  · simp only [Except.bind] at h
    split at h <;> cases h
    exact .noEntryPoint

end

/-! ### What the work directory holds -/

/-- **What a file of a package has become.** The file is read at any time from the beginning
to the end. If it is a program with an entry point, the instrumented program is read by way of
the work directory; else the same bytes are, if there are not too many links. -/
structure Carried (before after : FileSystem) (cwd : Location) (source target : Path)
    (profile : String) (workLinks : Nat) : Prop where
  /-- A program is instrumented. -/
  instrumented : ∀ now file, before.Extends now → now.Extends after → LeadsTo now cwd source file →
    ∃ out, (instrument file profile).1.print = some out ∧
      after.readBytes cwd target = .ok out.toUTF8
  /-- Any other file stays as it is. -/
  unchanged : ∀ now links bytes, before.Extends now → now.Extends after →
    (∀ file, ¬ LeadsTo now cwd source file) → now.Reads cwd source links bytes →
    links ≤ FileSystem.linkLimit →
    (after.readBytes cwd target = .ok bytes ↔ workLinks + (links + 1) ≤ FileSystem.linkLimit)

section

variable {before mid after : FileSystem} {cwd place : Location} {dir work : Path} {name : String}
  {workLinks : Nat}

theorem carried_of_outcome {task : Task} {found : Bool} {node : Node}
    (htree : before.IsTree) (hcwd : before.get? cwd = some .dir)
    (hname : Path.IsName name) (hsource : task.source = dir.join ⟨name⟩)
    (hwork : before.Leads cwd work workLinks place) (hlimit : workLinks ≤ FileSystem.linkLimit)
    (hplace : before.get? place = some .dir) (hmid : before.Extends mid)
    (hafter : mid.Extends after) (hnode : after.get? (place ++ [name]) = some node)
    (houtcome : task.Outcome mid cwd (place ++ [name]) (.ok found) (some node)) :
    Carried before after cwd (dir.join ⟨name⟩) (work.join ⟨name⟩) task.profile workLinks := by
  have hext := hmid.trans hafter
  have hwork' := hwork.mono hext
  have hplace' := hext _ _ hplace
  cases houtcome with
  | @instrumented file out hleads _ hprint =>
    rw [hsource] at hleads
    have hleads' := hleads.mono hafter
    refine ⟨?_, ?_⟩
    · intro now file' _ hnow hprogram
      obtain rfl := (hprogram.mono hnow).unique hleads'
      refine ⟨out, hprint, FileSystem.readBytes_eq_ok.mpr ⟨workLinks, hlimit, _, ?_, hnode⟩⟩
      exact (hwork'.namesEntry_join hplace' hname).leads_file hnode
    · -- the content of a file that stands does not change, so it is the same program
      intro now links bytes _ hnow hnone hreads hle
      exact absurd (hleads'.of_reads hnow hreads hle) (hnone file)
  | @linked absolute hstays _ habsolute =>
    rw [hsource] at hstays habsolute
    refine ⟨?_, ?_⟩
    · intro now file _ hnow hprogram
      exact absurd (hprogram.mono hnow) (hstays.mono hafter).not_leadsTo
    · intro now links bytes _ hnow _ hreads _
      have hdirs := fun front hfront => hext _ _ (htree.dir_of_prefix hcwd front hfront)
      exact (hwork'.namesEntry_join hplace' hname).readBytes_link hdirs (htree.isName_of_mem hcwd)
        hnode habsolute (hreads.mono hnow)

/-- An empty directory has the names that are added to it. -/
theorem names_of_adds {entries : List (String × Node)} {names : List String}
    (hadds : FileSystem.Adds before after place entries) (hempty : before.names place = [])
    (hnames : names = entries.map Prod.fst)
    (hsorted : names.Pairwise fun name other => Path.nameLe name other = true) :
    after.names place = names := by
  refine FileSystem.names_eq (hnames ▸ hadds.nodup) hsorted fun name => ?_
  rw [hnames]
  constructor
  · intro hmem
    obtain ⟨entry, hentry, rfl⟩ := List.mem_map.mp hmem
    simp [FileSystem.occupied, hadds.here entry hentry]
  · intro hoccupied
    by_contra hnone
    rw [FileSystem.occupied, hadds.elsewhere, ← FileSystem.occupied, ← FileSystem.mem_names,
      hempty] at hoccupied
    · cases hoccupied
    · intro entry hentry hsame
      have hname : name = entry.1 := by simpa using hsame
      exact hnone (List.mem_map.mpr ⟨entry, hentry, hname.symm⟩)

end

section

variable {world : World} {cwd place source : Location} {dir work : Path} {names : List String}
  {workLinks : Nat} {profile : String}

theorem filterMap_fileName? (hdir : dir.text.isEmpty = false)
    (hnames : ∀ name ∈ names, Path.IsName name) :
    (names.map fun name => dir.join ⟨name⟩).filterMap Path.fileName? = names := by
  have hmap := List.filterMap_congr (fun name hname => Path.fileName?_join hdir (hnames name hname))
  rw [List.filterMap_some] at hmap
  rwa [List.filterMap_map]

/-- Each task takes one of the files over into the work directory. -/
theorem exists_of_mem_packageTasks {task : Task} (h : task ∈ packageTasks dir work profile names) :
    ∃ name ∈ names, task = ⟨dir.join ⟨name⟩, work.join ⟨name⟩, profile⟩ := by
  obtain ⟨name, hname, rfl⟩ := List.mem_map.mp h
  exact ⟨name, hname, rfl⟩

theorem fileNames_packageTasks (hdir : dir.text.isEmpty = false)
    (hnames : ∀ name ∈ names, Path.IsName name) :
    (packageTasks dir work profile names).filterMap (fun task => task.source.fileName?) =
      names := by
  have hmap := filterMap_fileName? hdir hnames
  rw [List.filterMap_map] at hmap
  rwa [packageTasks, List.filterMap_map]

/-- **The files are carried over** by the entries that the tasks have added. -/
theorem carried_of_outcomes {before after : FileSystem} {entries : List (String × Node)}
    (htree : before.IsTree) (hcwd : before.get? cwd = some .dir) (hdir : dir.text.isEmpty = false)
    (hnames : ∀ name ∈ names, Path.IsName name)
    (hwork : before.Leads cwd work workLinks place) (hlimit : workLinks ≤ FileSystem.linkLimit)
    (hplace : before.get? place = some .dir)
    (h : List.Forall₂ (fun task entry => task.source.fileName? = some entry.1 ∧
      after.get? (place ++ [entry.1]) = some entry.2 ∧
      ∃ mid found, before.Extends mid ∧ mid.Extends after ∧
        task.Outcome mid cwd (place ++ [entry.1]) (.ok found) (some entry.2))
      (packageTasks dir work profile names) entries) :
    names = entries.map Prod.fst ∧ ∀ name ∈ names,
      Carried before after cwd (dir.join ⟨name⟩) (work.join ⟨name⟩) profile workLinks := by
  rw [packageTasks, List.forall₂_map_left_iff] at h
  have hcarried := ((List.forall₂_and_left _ _).mpr ⟨hnames, h⟩).imp
    (S := fun name entry => Carried before after cwd (dir.join ⟨name⟩) (work.join ⟨name⟩)
      profile workLinks ∧ name = entry.1) ?_
  · obtain ⟨hcarried, hentries⟩ := (List.forall₂_and_left _ _).mp hcarried
    rw [← List.forall₂_map_right_iff, List.forall₂_eq_eq_eq] at hentries
    exact ⟨hentries, hcarried⟩
  · rintro name ⟨name', node⟩ ⟨hname, hfile, hnode, mid, found, hbefore, hafter, houtcome⟩
    rw [Path.fileName?_join hdir hname] at hfile
    cases hfile
    exact ⟨carried_of_outcome htree hcwd hname rfl hwork hlimit hplace hbefore hafter hnode
      houtcome, rfl⟩

/-- A build of some files of a directory, which are carried over into an empty one. -/
theorem instrumentAll_packageTasks (htree : world.files.IsTree)
    (hcwd : world.files.get? cwd = some .dir) (hdir : dir.text.isEmpty = false)
    (hnames : ∀ name ∈ names, Path.IsName name)
    (hsorted : names.Pairwise fun name other => Path.nameLe name other = true)
    (hnodup : names.Nodup) (hwork : world.files.Leads cwd work workLinks place)
    (hlimit : workLinks ≤ FileSystem.linkLimit) (hplace : world.files.get? place = some .dir)
    (hempty : world.files.names place = []) {result : Except Failure Nat} {after : World}
    (hrun : (instrumentAll cwd false (packageTasks dir work profile names)).perform world =
      (result, after)) :
    world.files.Extends after.files ∧ (∀ failure, result = .error failure → failure.OfSource) ∧
    ((∀ task ∈ packageTasks dir work profile names, Sound world.files cwd task.source) →
      (∃ task ∈ packageTasks dir work profile names, ∃ file,
        LeadsTo world.files cwd task.source file) → ∃ count, result = .ok count) ∧
    ∀ count, result = .ok count → after.files.names place = names ∧
      ∀ name ∈ names, Carried world.files after.files cwd (dir.join ⟨name⟩) (work.join ⟨name⟩)
        profile workLinks := by
  have hworkDir : world.files.resolveDir cwd work = .ok place :=
    FileSystem.resolveDir_eq_ok.mpr
      ⟨FileSystem.resolve_eq_ok.mpr ⟨workLinks, hlimit, hwork⟩, hplace⟩
  have hgoes : ∀ task ∈ packageTasks dir work profile names, task.GoesInto work := by
    intro task hmem
    obtain ⟨name, hname, rfl⟩ := exists_of_mem_packageTasks hmem
    exact ⟨name, Path.fileName?_join hdir (hnames name hname), rfl⟩
  have habsolute : ∀ task ∈ packageTasks dir work profile names,
      (Path.absolute? cwd.path task.source).isSome := by
    intro task hmem
    obtain ⟨name, hname, rfl⟩ := exists_of_mem_packageTasks hmem
    obtain ⟨absolute, heq, -⟩ :=
      Path.exists_absolute? (htree.isName_of_mem hcwd)
        (@Path.text_join_isEmpty dir _ (hnames name hname).toIsPiece)
    exact Option.isSome_of_eq_some heq
  have hapart : ((packageTasks dir work profile names).filterMap
      fun task => task.source.fileName?).Nodup := by
    rwa [fileNames_packageTasks hdir hnames]
  have hfailure : ∀ failure, result = .error failure → failure.OfSource := by
    rintro failure rfl
    exact ofSource_of_instrumentAll hworkDir hgoes hempty hapart habsolute hrun
  obtain ⟨counted, files, events, hrunTasks, hruns⟩ := perform_runTasks hworkDir hgoes
  rw [perform_instrumentAll, hrunTasks] at hrun
  cases hrun
  obtain ⟨added, hadded, -⟩ := hruns.exists_adds
  refine ⟨hadded.extends, hfailure, ?_, ?_⟩
  · intro hsound hprogram
    cases counted with
    | error failure =>
      obtain ⟨-, task, hmem, hunsound⟩ := hruns.ofSource
        (fun _ _ name _ => get?_of_names_nil hempty name) hapart habsolute rfl
      exact absurd (hsound task hmem) hunsound
    | ok count =>
      have hpos := hruns.count_pos rfl hprogram
      exact ⟨count, by simp only [Except.bind, if_neg (Nat.ne_of_gt hpos)]⟩
  · intro count hcount
    obtain ⟨total, rfl⟩ : ∃ total, counted = .ok total := by
      cases counted with
      | error failure => cases hcount
      | ok total => exact ⟨total, rfl⟩
    obtain ⟨entries, hadds, hall⟩ := hruns.exists_outcomes rfl
    obtain ⟨hentries, hcarried⟩ :=
      carried_of_outcomes htree hcwd hdir hnames hwork hlimit hplace hall
    exact ⟨names_of_adds hadds hempty hentries hsorted, hcarried⟩

/-- **A build of a package.** Its files are those of a directory. The tasks are planned in the
order in which the files were listed, which is the byte order of their names. The build fails
only because of the sources, and it succeeds if all of them can be processed and one has an
entry point. If it succeeds, the names in the work directory, which was empty, are those of the
package, and each file is carried over. -/
theorem instrumentAll_package {gopath : Option Path} {inputs : List Path} {set : FileSet}
    (htree : world.files.IsTree) (hcwd : world.files.get? cwd = some .dir)
    (hset : resolveFileSet world.files cwd gopath inputs = .ok set) (hmode : set.listed = false)
    (hwork : world.files.Leads cwd work workLinks place) (hlimit : workLinks ≤ FileSystem.linkLimit)
    (hplace : world.files.get? place = some .dir) (hempty : world.files.names place = []) :
    ∃ dir tasks, package world.files cwd dir = .ok set ∧
      planTasks cwd.path (.separate work) profile set.paths = .ok tasks ∧
      tasks.map Task.source = set.paths ∧
      (set.paths.filterMap Path.fileName?).Pairwise
        (fun name other => Path.bytesLe name other = true) ∧
      ∀ result after, (instrumentAll cwd false tasks).perform world = (result, after) →
        world.files.Extends after.files ∧ (∀ failure, result = .error failure → failure.OfSource) ∧
        ((∀ path ∈ set.paths, Sound world.files cwd path) →
          (∃ path ∈ set.paths, ∃ file, LeadsTo world.files cwd path file) →
          ∃ count, result = .ok count) ∧
        ∀ count, result = .ok count → ∃ source, world.files.resolveDir cwd dir = .ok source ∧
          after.files.names place = packageNames world.files source ∧
          ∀ name ∈ packageNames world.files source, Carried world.files after.files cwd
            (dir.join ⟨name⟩) (work.join ⟨name⟩) profile workLinks := by
  obtain ⟨dir, hpackage⟩ := exists_package hset hmode
  rcases paths_of_package hpackage with hpaths | ⟨source, hsource, hpaths⟩
  · refine ⟨dir, [], hpackage, ?_, ?_, ?_, ?_⟩
    · simp [hpaths, planTasks_separate, separateTasks]
    · rw [hpaths, List.map_nil]
    · rw [hpaths]
      exact .nil
    · rintro result after ⟨⟩
      refine ⟨fun _ _ h => h, ?_, ?_, ?_⟩
      · rintro failure ⟨⟩
        exact .noEntryPoint
      · rintro - ⟨path, hmem, -⟩
        rw [hpaths] at hmem
        cases hmem
      · rintro count ⟨⟩
  · obtain ⟨links, -, hdir, -⟩ :=
      FileSystem.resolve_eq_ok.mp (FileSystem.resolveDir_eq_ok.mp hsource).1
    have hnames := @isName_of_mem_packageNames world.files source htree
    have hsorted := (world.files.names_pairwise source).filter
      fun name => isRelevant name && !world.files.isDir (source ++ [name])
    have hnodup := (world.files.names_nodup source).filter
      fun name => isRelevant name && !world.files.isDir (source ++ [name])
    refine ⟨dir, packageTasks dir work profile (packageNames world.files source), hpackage,
      ?_, ?_, ?_, ?_⟩
    · rw [hpaths]
      exact planTasks_package _ hdir hnames hsorted
    · rw [hpaths, packageTasks, List.map_map]
      rfl
    · rw [hpaths, filterMap_fileName? hdir hnames]
      refine hsorted.imp fun hle => ?_
      rwa [← Path.nameLe_eq_bytesLe]
    · intro result after hrun
      obtain ⟨hext, hfailure, hsuccess, hcarried⟩ :=
        instrumentAll_packageTasks htree hcwd hdir hnames
        hsorted hnodup hwork hlimit hplace hempty hrun
      refine ⟨hext, hfailure, ?_, fun count hcount => ⟨source, hsource, hcarried count hcount⟩⟩
      rw [hpaths]
      rintro hsound ⟨path, hmem, hprogram⟩
      obtain ⟨name, hname, rfl⟩ := List.mem_map.mp hmem
      refine hsuccess ?_ ⟨_, List.mem_map.mpr ⟨name, hname, rfl⟩, hprogram⟩
      intro task htask
      obtain ⟨name, hname, rfl⟩ := List.mem_map.mp htask
      exact hsound _ (List.mem_map.mpr ⟨name, hname, rfl⟩)

end

/-! ### A file behind many links -/

/-- A path that goes around a link many times. -/
def longWay : Path :=
  ⟨String.ofList ("../".toList ++ (List.replicate 39 "e/".toList).flatten ++ "data".toList)⟩

/-- A program, and a file behind as many links as can be followed on one walk. -/
def distantPackage : World where
  files := ⟨[(["d"], .dir),
    (["d", "l.c"], .link longWay),
    (["d", "main.go"], .ofText "package main; func main() \x7b\x7d"),
    (["data"], .ofText "x"), (["e"], .link ⟨"."⟩), (["w"], .dir)], by simp⟩
  events := []

theorem isTree_distantPackage : distantPackage.files.IsTree :=
  FileSystem.isTree_of_all (by decide)

theorem names_distantPackage :
    distantPackage.files.names ["d"] = ["l.c", "main.go"] ∧ distantPackage.files.names ["w"] = [] :=
  ⟨FileSystem.names_of_filterMap (by decide) (by decide),
    FileSystem.names_of_filterMap (by decide) (by decide)⟩

theorem isName_distantPackage : ∀ name ∈ ["l.c", "main.go"], Path.IsName name := by
  rw [← names_distantPackage.1]
  exact fun name hname => isTree_distantPackage.isName ["d"] name (FileSystem.mem_names.mp hname)

theorem join_distantPackage : ["l.c", "main.go"].map (fun name => (⟨"d"⟩ : Path).join ⟨name⟩) =
    [⟨"d/l.c"⟩, ⟨"d/main.go"⟩] := by decide

theorem resolveFileSet_distantPackage :
    resolveFileSet distantPackage.files [] none [⟨"d"⟩] =
      .ok ⟨[⟨"d/l.c"⟩, ⟨"d/main.go"⟩], false⟩ := by
  have hdir : distantPackage.files.resolveDir [] ⟨"d"⟩ = .ok ["d"] := eq_ok_of_any (by decide)
  have hnames : packageNames distantPackage.files ["d"] = ["l.c", "main.go"] := by
    rw [packageNames, names_distantPackage.1]
    decide
  rw [resolveFileSet_dir (by decide) hdir, hnames, join_distantPackage]

theorem planTasks_distantPackage :
    planTasks (Location.path []) (.separate ⟨"w"⟩) "p" [⟨"d/l.c"⟩, ⟨"d/main.go"⟩] =
      .ok (packageTasks ⟨"d"⟩ ⟨"w"⟩ "p" ["l.c", "main.go"]) := by
  rw [← join_distantPackage]
  exact planTasks_package _ (by decide) isName_distantPackage (by decide)

theorem leads_distantPackage : distantPackage.files.Leads [] ⟨"w"⟩ 0 ["w"] := by
  have hsteps : (⟨"w"⟩ : Path).steps = [.name "w"] := by decide
  have hdir : distantPackage.files.get? ([] ++ ["w"]) = some .dir := by decide
  refine ⟨by decide, ?_⟩
  rw [hsteps]
  exact .enter (by decide) hdir nofun .done

theorem leadsTo_distantPackage : ∃ file, LeadsTo distantPackage.files [] ⟨"d/main.go"⟩ file ∧
    ¬ file.HasEarlyDecl :=
  exists_leadsTo_of_any (by decide) (by decide +kernel)

theorem sound_distantPackage :
    ∀ path ∈ [⟨"d/l.c"⟩, (⟨"d/main.go"⟩ : Path)], Sound distantPackage.files [] path := by
  obtain ⟨file, hleads, hearly⟩ := leadsTo_distantPackage
  have hother : isSource ⟨"d/l.c"⟩ = false := by decide
  rw [List.forall_mem_cons, List.forall_mem_singleton]
  refine ⟨.inl fun hsource => ?_, .inr ⟨file, hleads, hearly⟩⟩
  rw [hother] at hsource
  cases hsource

theorem reads_distantPackage : distantPackage.files.Reads [] ⟨"d/l.c"⟩ 40 "x".toUTF8 := by
  have hsteps : (⟨"d/l.c"⟩ : Path).steps = [.name "d", .name "l.c"] := by decide
  have htarget : longWay.steps = .up :: (List.replicate 39 (.name "e") ++ [.name "data"]) := by
    decide
  have hdir : distantPackage.files.get? ([] ++ ["d"]) = some .dir := by decide
  have hlink : distantPackage.files.get? (["d"] ++ ["l.c"]) = some (.link longWay) := by
    decide
  have hturn : distantPackage.files.get? ([] ++ ["e"]) = some (.link ⟨"."⟩) := by decide
  have hdata : distantPackage.files.get? ([] ++ ["data"]) = some (.ofText "x") := by decide
  have hturns : distantPackage.files.Walks 39 [] (List.replicate 39 (.name "e") ++ [.name "data"])
      ["data"] := by
    rw [← Nat.zero_add 39]
    exact FileSystem.Walks.turns (by simp) hturn (.enter (by simp) hdata nofun .done) 39
  refine ⟨["data"], ⟨by decide, ?_⟩, by decide⟩
  rw [hsteps]
  refine .enter (by decide) hdir nofun (.follow hdir hlink (by decide) ?_)
  rw [htarget, List.append_nil]
  exact .up hdir hturns

theorem instrumentAll_package_distant :
    distantPackage.files.IsTree ∧ distantPackage.files.names ["w"] = [] ∧
    ∃ dir tasks, package distantPackage.files [] dir = .ok ⟨[⟨"d/l.c"⟩, ⟨"d/main.go"⟩], false⟩ ∧
      planTasks (Location.path []) (.separate ⟨"w"⟩) "p" [⟨"d/l.c"⟩, ⟨"d/main.go"⟩] = .ok tasks ∧
      tasks.map Task.source = [⟨"d/l.c"⟩, ⟨"d/main.go"⟩] ∧
      ∀ result after, (instrumentAll [] false tasks).perform distantPackage = (result, after) →
        ∃ count source, result = .ok count ∧
          distantPackage.files.resolveDir [] dir = .ok source ∧
          after.files.names ["w"] = packageNames distantPackage.files source ∧
          ∀ name ∈ packageNames distantPackage.files source,
            Carried distantPackage.files after.files
            [] (dir.join ⟨name⟩) ((⟨"w"⟩ : Path).join ⟨name⟩) "p" 0 := by
  obtain ⟨dir, tasks, hpackage, hplan, hsources, -, hbuild⟩ :=
    @instrumentAll_package distantPackage [] ["w"] ⟨"w"⟩ 0 "p" none [⟨"d"⟩] _ isTree_distantPackage
      (by decide) resolveFileSet_distantPackage rfl leads_distantPackage (Nat.zero_le _)
      (by decide) names_distantPackage.2
  refine ⟨isTree_distantPackage, names_distantPackage.2, dir, tasks, hpackage, hplan, hsources, ?_⟩
  intro result after hrun
  obtain ⟨-, -, hsuccess, hcarried⟩ := hbuild result after hrun
  obtain ⟨file, hleads, -⟩ := leadsTo_distantPackage
  obtain ⟨count, rfl⟩ := hsuccess sound_distantPackage
    ⟨_, List.mem_cons_of_mem _ List.mem_cons_self, file, hleads⟩
  obtain ⟨source, hsource, hrest⟩ := hcarried count rfl
  exact ⟨count, source, rfl, hsource, hrest⟩

/-- **A file behind as many links as can be followed cannot be read in the work directory**,
although the build succeeds: the link to it is one link more. -/
theorem not_readBytes_distantPackage :
    distantPackage.files.IsTree ∧
    resolveFileSet distantPackage.files [] none [⟨"d"⟩] =
      .ok ⟨[⟨"d/l.c"⟩, ⟨"d/main.go"⟩], false⟩ ∧
    distantPackage.files.resolveDir [] ⟨"w"⟩ = .ok ["w"] ∧
    distantPackage.files.names ["w"] = [] ∧
    isSource ⟨"d/l.c"⟩ = false ∧
    distantPackage.files.readBytes [] ⟨"d/l.c"⟩ = .ok "x".toUTF8 ∧
    ∃ tasks count after,
      planTasks (Location.path []) (.separate ⟨"w"⟩) "p" [⟨"d/l.c"⟩, ⟨"d/main.go"⟩] = .ok tasks ∧
      (instrumentAll [] false tasks).perform distantPackage = (.ok count, after) ∧
      after.files.readBytes [] ⟨"d/l.c"⟩ = .ok "x".toUTF8 ∧
      after.files.readBytes [] ⟨"w/l.c"⟩ ≠ .ok "x".toUTF8 := by
  have hreads := reads_distantPackage
  have hother : isSource ⟨"d/l.c"⟩ = false := by decide
  have hhere : (⟨"d"⟩ : Path).join ⟨"l.c"⟩ = ⟨"d/l.c"⟩ := by decide
  have hthere : (⟨"w"⟩ : Path).join ⟨"l.c"⟩ = ⟨"w/l.c"⟩ := by decide
  have hmain : (⟨"d"⟩ : Path).join ⟨"main.go"⟩ = ⟨"d/main.go"⟩ := by decide
  rcases hrun : (instrumentAll [] false
    (packageTasks ⟨"d"⟩ ⟨"w"⟩ "p" ["l.c", "main.go"])).perform distantPackage with ⟨result, after⟩
  obtain ⟨hext, -, hsuccess, hcarried⟩ := instrumentAll_packageTasks isTree_distantPackage
    (by decide) (by decide) isName_distantPackage (by decide)
    (by decide) leads_distantPackage (Nat.zero_le _) (by decide)
    names_distantPackage.2 hrun
  have htasks : ∀ task ∈ packageTasks ⟨"d"⟩ ⟨"w"⟩ "p" ["l.c", "main.go"],
      Sound distantPackage.files [] task.source := by
    intro task hmem
    refine sound_distantPackage _ ?_
    rw [← join_distantPackage]
    obtain ⟨name, hname, rfl⟩ := List.mem_map.mp hmem
    exact List.mem_map.mpr ⟨name, hname, rfl⟩
  obtain ⟨file, hleads, -⟩ := leadsTo_distantPackage
  rw [← hmain] at hleads
  obtain ⟨count, rfl⟩ := hsuccess htasks
    ⟨_, List.mem_map.mpr ⟨"main.go", by simp, rfl⟩, file, hleads⟩
  refine ⟨isTree_distantPackage, resolveFileSet_distantPackage, eq_ok_of_any (by decide),
    names_distantPackage.2, hother, hreads.readBytes_iff.mpr (Nat.le_refl _), _, count, after,
    planTasks_distantPackage, hrun, (hreads.mono hext).readBytes_iff.mpr (Nat.le_refl _), ?_⟩
  intro hread
  have hnone : ∀ file, ¬ LeadsTo after.files [] ⟨"d/l.c"⟩ file := by
    intro file hleads
    have hsource := hleads.isSource
    rw [hother] at hsource
    cases hsource
  have hunread := ((hcarried count rfl).2 "l.c" List.mem_cons_self).unchanged after.files 40
    "x".toUTF8 hext (fun _ _ h => h)
  rw [hhere, hthere] at hunread
  exact absurd ((hunread hnone (hreads.mono hext) (Nat.le_refl _)).mp hread) (by decide)

end Build

end EntryProbe
