import EntryProbe.Proofs.Fates

/-!
# Two ways to build

A build puts its results into a directory of their own, or back to where the sources are.
The sources can be read all the same in both cases, if no two of them are one file and none
of them is reached through the directory of the results
(`EntryProbe.Build.Unentangled`): what the tasks before have written is then not seen by
the tasks that follow. So the fates of the files are those from the start, and both builds
have the same result.

A file that stays as it is gets a link in one case and is left alone in the other. Reading
it through the link follows one link more, besides those on the way to the directory of
the results; only where these are too many can the two results be told apart.

* `EntryProbe.Build.RunsInPlace.fates`, `EntryProbe.Build.perform_runTasks_separate` – the
  fates of the files in the two builds;
* `EntryProbe.Build.instrumentAll_agree` – the two builds agree.
-/

namespace EntryProbe.Build

open Go Profiling

/-- Two paths lead to the same file. -/
def SharesFile (files : FileSystem) (cwd : Location) (path other : Path) : Prop :=
  ∃ place content, files.resolve cwd path = .ok place ∧ files.resolve cwd other = .ok place ∧
    files.get? place = some (.file content)

/-- **Tasks that do not meet**: no two sources are one file, no two destinations are one entry,
and the destinations are entries of an empty directory, through which no source is reached. -/
structure Unentangled (files : FileSystem) (cwd place : Location) (tasks : List Task) : Prop where
  /-- A source has a path. -/
  source : ∀ task ∈ tasks, task.source.text.isEmpty = false
  /-- It is not reached through the directory of the results. -/
  notThrough : ∀ task ∈ tasks, place ∉ files.passes cwd task.source
  /-- No two sources are one file. -/
  apart : tasks.Pairwise fun task other => ¬ SharesFile files cwd task.source other.source
  /-- A destination is an entry of the directory. -/
  into : ∀ task ∈ tasks, ∃ name, files.entryOf cwd task.destination = .ok (place ++ [name], false)
  /-- No two destinations are one entry. -/
  distinct : tasks.Pairwise fun task other =>
    files.entryOf cwd task.destination ≠ files.entryOf cwd other.destination
  /-- The directory is empty. -/
  empty : files.names place = []

/-- **A task is done**: no task up to it fails. -/
def Completed (files : FileSystem) (cwd : Location) : List Task → Task → Prop
  | [], _ => False
  | first :: rest, task =>
    (∃ text, first.fate files cwd = .ok text) ∧ (task = first ∨ Completed files cwd rest task)

section

variable {files mid after : FileSystem} {cwd place : Location} {task other : Task}
  {tasks done rest : List Task}

theorem Completed.mem (h : Completed files cwd tasks task) : task ∈ tasks := by
  induction tasks with
  | nil => exact h.elim
  | cons first rest ih =>
    rcases h.2 with rfl | h
    · exact List.mem_cons_self
    · exact List.mem_cons_of_mem _ (ih h)

theorem Completed.exists_fate (h : Completed files cwd tasks task) :
    ∃ text, task.fate files cwd = .ok text := by
  induction tasks with
  | nil => exact h.elim
  | cons first rest ih =>
    obtain ⟨hfirst, rfl | h⟩ := h
    · exact hfirst
    · exact ih h

/-- Which tasks are done depends on their fates. -/
theorem Completed.congr (h : Completed files cwd tasks task)
    (hsame : ∀ task ∈ tasks, task.fate mid cwd = task.fate files cwd) :
    Completed mid cwd tasks task := by
  induction tasks with
  | nil => exact h.elim
  | cons first rest ih =>
    obtain ⟨⟨text, htext⟩, h⟩ := h
    obtain ⟨hfirst, hrest⟩ := List.forall_mem_cons.mp hsame
    exact ⟨⟨text, hfirst.trans htext⟩, h.imp_right fun h => ih h hrest⟩

/-- The first tasks are done if they have no failure for a result. -/
theorem completed_of_tally {count : Nat} (hstart : done <+: tasks)
    (h : tally (done.map (Task.fate files cwd)) = .ok count) (hmem : task ∈ done) :
    Completed files cwd tasks task := by
  have hfates := exists_ok_of_tally h
  rw [List.forall_mem_map] at hfates
  clear h
  induction done generalizing tasks with
  | nil => cases hmem
  | cons first done ih =>
    obtain ⟨rest, rfl⟩ := hstart
    obtain ⟨hfirst, hrest⟩ := List.forall_mem_cons.mp hfates
    refine ⟨hfirst, ?_⟩
    rcases List.mem_cons.mp hmem with rfl | hmem
    · exact .inl rfl
    · exact .inr (ih (List.prefix_append _ _) hmem hrest)

/-! ### In place -/

/-- **What a task writes is not seen by a task with another file.** -/
theorem Task.Rewriting.get?_of_not_sharesFile {result : Except Failure Bool}
    {places : List Location} (h : task.Rewriting files cwd result places mid)
    (hapart : ¬ SharesFile files cwd task.source other.source)
    (hplace : files.resolve cwd other.source = .ok place) : mid.get? place = files.get? place := by
  refine h.rewrites.elsewhere place fun hmem => hapart ?_
  obtain ⟨content, hfile⟩ := h.rewrites.isFile place hmem
  exact ⟨place, content, (h.eq_of_mem hmem).1, hplace, hfile⟩

theorem Task.Rewriting.fate_eq {result : Except Failure Bool} {places : List Location}
    (h : task.Rewriting files cwd result places mid)
    (hapart : ¬ SharesFile files cwd task.source other.source) :
    other.fate mid cwd = other.fate files cwd :=
  fate_congr (FileSystem.readText_eq_of_resolve_eq (h.rewrites.sameShape.resolve_eq cwd _)
    fun _ hplace => h.get?_of_not_sharesFile hapart hplace)

theorem SharesFile.of_sameShape {path path' : Path} (h : SharesFile mid cwd path path')
    (hshape : files.SameShape mid) : SharesFile files cwd path path' := by
  obtain ⟨place, content, hpath, hpath', hfile⟩ := h
  obtain ⟨content', hfile'⟩ := hshape.symm.exists_file hfile
  rw [hshape.resolve_eq] at hpath hpath'
  exact ⟨place, content', hpath, hpath', hfile'⟩

/-- No later task writes to the file of a task. -/
theorem Task.Rewriting.not_mem_of_runs {found : Except Failure Bool} {result : Except Failure Nat}
    {places places' : List Location} (h : task.Rewriting files cwd found places mid)
    (hruns : RunsInPlace cwd mid rest result places' after)
    (hapart : ∀ other ∈ rest, ¬ SharesFile files cwd task.source other.source)
    (hplace : files.resolve cwd task.source = .ok place) : place ∉ places' := by
  intro hlater
  have hshape := h.rewrites.sameShape
  obtain ⟨later, hmem, hresolve, -⟩ := hruns.exists_of_mem hlater
  obtain ⟨content, hfile⟩ := hruns.rewrites.isFile place hlater
  obtain ⟨content', hfile'⟩ := hshape.symm.exists_file hfile
  rw [hshape.resolve_eq] at hresolve
  exact hapart later hmem ⟨place, content', hplace, hresolve, hfile'⟩

/-- **In place no file is written to twice**, if no two sources are one file. -/
theorem RunsInPlace.nodup {result : Except Failure Nat} {places : List Location}
    (h : RunsInPlace cwd files tasks result places after)
    (hapart : tasks.Pairwise fun task other => ¬ SharesFile files cwd task.source other.source) :
    places.Nodup := by
  induction h with
  | done => exact .nil
  | failed hwriting => exact hwriting.nodup
  | step hwriting hruns ih =>
    obtain ⟨hfirst, hrest⟩ := List.pairwise_cons.mp hapart
    have hrest' := hrest.imp fun hnot hshares =>
      hnot (SharesFile.of_sameShape hshares hwriting.rewrites.sameShape)
    rw [List.nodup_append]
    refine ⟨hwriting.nodup, ih hrest', ?_⟩
    rintro place hplace _ hlater rfl
    exact hwriting.not_mem_of_runs hruns hfirst (hwriting.eq_of_mem hplace).1 hlater

/-- **In place the fates of the files are those from the start**, if no two of them are one
file. A file whose task is done holds the program that takes its place, or is as it was. -/
theorem RunsInPlace.fates {result : Except Failure Nat} {places : List Location}
    (h : RunsInPlace cwd files tasks result places after)
    (hapart : tasks.Pairwise fun task other => ¬ SharesFile files cwd task.source other.source) :
    result = tally (tasks.map (Task.fate files cwd)) ∧
      ∀ task, Completed files cwd tasks task → ∀ text place, task.fate files cwd = .ok text →
        files.resolve cwd task.source = .ok place →
        after.get? place = text.elim (files.get? place) fun out => some (.ofText out) := by
  induction h with
  | done => exact ⟨rfl, fun _ hdone => hdone.elim⟩
  | @failed files _ task rest failure _ hwriting =>
    have hfate : task.fate files cwd = .error failure := eq_error_of_map hwriting.result_eq.symm
    refine ⟨by simp [tally, hfate], ?_⟩
    rintro other ⟨⟨text, htext⟩, -⟩
    rw [hfate] at htext
    cases htext
  | @step files mid after task rest found _ places' result hwriting hruns ih =>
    obtain ⟨hfirst, hrest⟩ := List.pairwise_cons.mp hapart
    have hshape := hwriting.rewrites.sameShape
    have hsame : ∀ other ∈ rest, other.fate mid cwd = other.fate files cwd :=
      fun other hmem => hwriting.fate_eq (hfirst other hmem)
    obtain ⟨hresult, hdone⟩ := ih (hrest.imp fun hnot hshares => hnot (hshares.of_sameShape hshape))
    obtain ⟨text, htext, rfl⟩ := exists_of_map_eq_ok hwriting.result_eq.symm
    refine ⟨by rw [List.map_cons, htext, tally, hresult, List.map_congr_left hsame], ?_⟩
    rintro other ⟨-, rfl | hother⟩ text' place hfate hplace
    · -- no later task writes to the file
      rw [← hwriting.get?_eq hfate hplace]
      exact hruns.rewrites.elsewhere place (hwriting.not_mem_of_runs hruns hfirst hplace)
    · have hmem := hother.mem
      rw [hdone other (hother.congr hsame) text' place ((hsame other hmem).trans hfate)
        ((hshape.resolve_eq cwd _).trans hplace),
        hwriting.get?_of_not_sharesFile (hfirst other hmem) hplace]

/-! ### In a directory of their own -/

/-- **In a directory of their own the fates of the files are those from the start**, if none of
them is reached through it. A file whose task is done is replaced by the program that takes its
place, or by a link. -/
theorem perform_runTasks_separate {world : World} {entries : List (String × Node)}
    (htree : files.IsTree) (hcwd : files.get? cwd = some .dir)
    (hadds : FileSystem.Adds files world.files place entries)
    (hsource : ∀ task ∈ tasks, task.source.text.isEmpty = false)
    (hpath : ∀ task ∈ tasks, place ∉ files.passes cwd task.source)
    (hinto : ∀ task ∈ tasks, ∃ name,
      files.entryOf cwd task.destination = .ok (place ++ [name], false) ∧
        world.files.get? (place ++ [name]) = none)
    (hdistinct : tasks.Pairwise fun task other =>
      files.entryOf cwd task.destination ≠ files.entryOf cwd other.destination) :
    ∃ after events entries', (runTasks cwd false tasks).perform world =
        (tally (tasks.map (Task.fate files cwd)), ⟨after, events⟩) ∧
      FileSystem.Adds world.files after place entries' ∧
      ∀ task, Completed files cwd tasks task → ∀ text, task.fate files cwd = .ok text →
        ∃ name absolute, files.entryOf cwd task.destination = .ok (place ++ [name], false) ∧
          Path.absolute? cwd.path task.source = some absolute ∧
          after.get? (place ++ [name]) = some (text.elim (.link absolute) .ofText) := by
  induction tasks generalizing world entries with
  | nil => exact ⟨_, _, [], rfl, .refl _ _, fun _ hdone => hdone.elim⟩
  | cons task rest ih =>
    obtain ⟨hfirst, hrest⟩ := List.pairwise_cons.mp hdistinct
    obtain ⟨⟨name, hentry, hfree⟩, hinto⟩ := List.forall_mem_cons.mp hinto
    obtain ⟨htext, hsource⟩ := List.forall_mem_cons.mp hsource
    obtain ⟨hthrough, hpath⟩ := List.forall_mem_cons.mp hpath
    obtain ⟨absolute, habsolute, -⟩ := Path.exists_absolute? (htree.isName_of_mem hcwd) htext
    obtain ⟨found, node, mid, _, hprocess, houtcome, hadds'⟩ :=
      perform_process (hadds.extends.entryOf hentry)
    obtain ⟨hfound, hnode⟩ := houtcome.result_eq hfree habsolute
    rw [fate_congr (hadds.readText_eq htree hcwd hthrough)] at hfound hnode
    obtain ⟨events, hrun⟩ := perform_run task world
    rw [hprocess, hfound] at hrun
    rcases hfate : task.fate files cwd with failure | text
    · rw [hfate] at hrun
      refine ⟨mid, events, _, ?_, hadds', ?_⟩
      · rw [perform_runTasks_of_error hrun rest, List.map_cons, hfate, tally]
      rintro other ⟨⟨text, hok⟩, -⟩
      rw [hfate] at hok
      cases hok
    · obtain rfl := hnode text hfate
      have hinto' : ∀ other ∈ rest, ∃ name',
          files.entryOf cwd other.destination = .ok (place ++ [name'], false) ∧
            mid.get? (place ++ [name']) = none := by
        intro other hmem
        obtain ⟨name', hentry', hfree'⟩ := hinto other hmem
        refine ⟨name', hentry', ?_⟩
        rw [hadds'.elsewhere, hfree']
        intro entry hadded hsame
        obtain rfl := List.mem_singleton.mp hadded
        exact hfirst other hmem (hentry.trans (hsame ▸ hentry'.symm))
      obtain ⟨after, events', entries', hruns, hadds'', hdone⟩ :=
        @ih ⟨mid, events⟩ _ (hadds.trans hadds') hsource hpath hinto' hrest
      rw [hfate] at hrun
      refine ⟨after, events', _, ?_, hadds'.trans hadds'', ?_⟩
      · rw [perform_runTasks_of_ok hrun hruns, List.map_cons, hfate, tally]
      · rintro other ⟨-, rfl | hother⟩ text' hfate'
        · rw [hfate] at hfate'
          cases hfate'
          exact ⟨name, absolute, hentry, habsolute,
            hadds''.extends _ _ (hadds'.here _ (List.mem_singleton.mpr rfl))⟩
        · exact hdone other hother text' hfate'

/-! ### The two builds -/

/-- **A file can be read alike after both builds.** What can be read by way of the source after
the build in place is read by way of the destination after the other build, with one exception:
a file that stays as it is can be behind too many links. -/
def ReadAlike (before inPlace separate : FileSystem) (cwd place : Location) (task : Task) : Prop :=
  ∀ links bytes, before.Reads cwd task.source links bytes → links ≤ FileSystem.linkLimit →
    ∃ bytes' workLinks name, inPlace.readBytes cwd task.source = .ok bytes' ∧
      workLinks ≤ FileSystem.linkLimit ∧
      before.NamesEntry cwd task.destination workLinks place name ∧
      (separate.readBytes cwd task.destination = .ok bytes' ↔
        (∃ file, LeadsTo before cwd task.source file) ∨
          workLinks + (links + 1) ≤ FileSystem.linkLimit)

theorem readBytes_of_resolve {path : Path} {bytes : ByteArray}
    (h : files.resolve cwd path = .ok place) (hfile : files.get? place = some (.file bytes)) :
    files.readBytes cwd path = .ok bytes := by
  obtain ⟨links, hle, hleads⟩ := FileSystem.resolve_eq_ok.mp h
  exact FileSystem.readBytes_eq_ok.mpr ⟨links, hle, place, hleads, hfile⟩

/-- What is known of a file whose task is done is enough to read it alike. -/
theorem readAlike_of_fate {inPlace separate : FileSystem} {text : Option String} {name : String}
    {absolute : Path} (htree : files.IsTree) (hcwd : files.get? cwd = some .dir)
    (hshape : files.SameShape inPlace) (hext : files.Extends separate)
    (hfate : task.fate files cwd = .ok text)
    (hhere : ∀ spot, files.resolve cwd task.source = .ok spot →
      inPlace.get? spot = text.elim (files.get? spot) fun out => some (.ofText out))
    (hentry : files.entryOf cwd task.destination = .ok (place ++ [name], false))
    (habsolute : Path.absolute? cwd.path task.source = some absolute)
    (hthere : separate.get? (place ++ [name]) = some (text.elim (.link absolute) .ofText)) :
    ReadAlike files inPlace separate cwd place task := by
  rintro links bytes ⟨spot, hleads, hfile⟩ hle
  have hresolve := FileSystem.resolve_eq_ok.mpr ⟨links, hle, hleads⟩
  have hinPlace := (hshape.resolve_eq cwd task.source).trans hresolve
  obtain ⟨workLinks, hworkLe, parent, last, hspot, hnames⟩ := FileSystem.entryOf_eq_ok.mp hentry
  obtain ⟨rfl, hlast⟩ := List.append_inj' hspot rfl
  cases hlast
  have hnames' := hnames.mono hext
  rcases text with _ | out
  · refine ⟨bytes, workLinks, name,
      readBytes_of_resolve hinPlace ((hhere spot hresolve).trans hfile), hworkLe, hnames, ?_⟩
    have hnone : ¬ ∃ file, LeadsTo files cwd task.source file := by
      rintro ⟨file, hprogram⟩
      have heq := hprogram.fate_eq
      rw [hfate] at heq
      split at heq <;> cases heq
    have hdirs := fun front hfront => hext _ _ (htree.dir_of_prefix hcwd front hfront)
    rw [or_iff_right hnone]
    exact hnames'.readBytes_link hdirs (htree.isName_of_mem hcwd) hthere habsolute
      ⟨spot, hleads.mono hext, hext _ _ hfile⟩
  · refine ⟨out.toUTF8, workLinks, name, readBytes_of_resolve hinPlace (hhere spot hresolve),
      hworkLe, hnames, ?_⟩
    have hread : separate.readBytes cwd task.destination = .ok out.toUTF8 :=
      FileSystem.readBytes_eq_ok.mpr ⟨workLinks, hworkLe, _, hnames'.leads_file hthere, hthere⟩
    exact iff_of_true hread (.inl (exists_leadsTo_of_fate hfate))

variable {world : World}

theorem Unentangled.first (h : Unentangled files cwd place tasks) (hstart : done <+: tasks) :
    Unentangled files cwd place done where
  source task hmem := h.source task (hstart.subset hmem)
  notThrough task hmem := h.notThrough task (hstart.subset hmem)
  apart := h.apart.sublist hstart.sublist
  into task hmem := h.into task (hstart.subset hmem)
  distinct := h.distinct.sublist hstart.sublist
  empty := h.empty

/-- **Two runs of tasks that do not meet agree.** -/
theorem runTasks_agree (htree : world.files.IsTree) (hcwd : world.files.get? cwd = some .dir)
    (h : Unentangled world.files cwd place tasks) :
    ∃ inPlace separate events events', (runTasks cwd true tasks).perform world =
        (tally (tasks.map (Task.fate world.files cwd)), ⟨inPlace, events⟩) ∧
      (runTasks cwd false tasks).perform world =
        (tally (tasks.map (Task.fate world.files cwd)), ⟨separate, events'⟩) ∧
      ∀ task, Completed world.files cwd tasks task →
        ReadAlike world.files inPlace separate cwd place task := by
  have hinto : ∀ task ∈ tasks, ∃ name,
      world.files.entryOf cwd task.destination = .ok (place ++ [name], false) ∧
        world.files.get? (place ++ [name]) = none := by
    intro task hmem
    obtain ⟨name, hentry⟩ := h.into task hmem
    exact ⟨name, hentry, get?_of_names_nil h.empty name⟩
  obtain ⟨result, places, inPlace, events, hrun, hruns⟩ := perform_runTasks_inPlace cwd tasks world
  obtain ⟨rfl, hhere⟩ := hruns.fates h.apart
  obtain ⟨separate, events', entries, hrun', hadds, hthere⟩ := perform_runTasks_separate htree hcwd
    (.refl world.files place) h.source h.notThrough hinto h.distinct
  refine ⟨inPlace, separate, events, events', hrun, hrun', fun task hdone => ?_⟩
  obtain ⟨text, hfate⟩ := hdone.exists_fate
  obtain ⟨name, absolute, hentry, habsolute, hnode⟩ := hthere task hdone text hfate
  exact readAlike_of_fate htree hcwd hruns.rewrites.sameShape hadds.extends hfate
    (fun spot => hhere task hdone text spot hfate) hentry habsolute hnode

/-- **The two builds agree.** If the tasks do not meet, the build in place and the build in a
directory of its own have the same result: the same number of instrumented files, or the same
failure, whose reason is in the sources; and so have all the runs of the first tasks, so that
it is the same task that fails. A file whose task is done by then can be read alike. -/
theorem instrumentAll_agree (htree : world.files.IsTree) (hcwd : world.files.get? cwd = some .dir)
    (h : Unentangled world.files cwd place tasks) :
    ∃ result inPlace separate, (instrumentAll cwd true tasks).perform world = (result, inPlace) ∧
      (instrumentAll cwd false tasks).perform world = (result, separate) ∧
      (∀ failure, result = .error failure → failure.OfSource) ∧
      ∀ done, done <+: tasks →
        ((runTasks cwd true done).perform world).1 = ((runTasks cwd false done).perform world).1 ∧
        ∀ count, ((runTasks cwd false done).perform world).1 = .ok count → ∀ task ∈ done,
          ReadAlike world.files inPlace.files separate.files cwd place task := by
  obtain ⟨inPlace, separate, events, events', hrun, hrun', halike⟩ := runTasks_agree htree hcwd h
  refine ⟨_, ⟨inPlace, events⟩, ⟨separate, events'⟩, by rw [perform_instrumentAll, hrun],
    by rw [perform_instrumentAll, hrun'], ?_, fun done hstart => ?_⟩
  · intro failure hfailure
    rcases htally : tally (tasks.map (Task.fate world.files cwd)) with other | count
    · rw [htally] at hfailure
      cases hfailure
      exact ofSource_of_tally htally
    · simp only [htally, Except.bind] at hfailure
      split at hfailure <;> cases hfailure
      exact .noEntryPoint
  · obtain ⟨_, _, _, _, hdone, hdone', -⟩ := runTasks_agree htree hcwd (h.first hstart)
    rw [hdone, hdone']
    refine ⟨rfl, fun count hcount task hmem => ?_⟩
    exact halike task (completed_of_tally hstart hcount hmem)

end

/-! ### A file behind many links -/

/-- The tasks that carry its package over. -/
def distantTasks : List Task :=
  [⟨⟨"d/l.c"⟩, ⟨"w/l.c"⟩, "p"⟩, ⟨⟨"d/main.go"⟩, ⟨"w/main.go"⟩, "p"⟩]

theorem unentangled_distantPackage :
    Unentangled distantPackage.files [] ["w"] distantTasks := by
  have hdata : distantPackage.files.resolve [] ⟨"d/l.c"⟩ = .ok ["data"] :=
    eq_ok_of_any (by decide +kernel)
  have hmain : distantPackage.files.resolve [] ⟨"d/main.go"⟩ = .ok ["d", "main.go"] :=
    eq_ok_of_any (by decide)
  have hentry : distantPackage.files.entryOf [] ⟨"w/l.c"⟩ = .ok (["w"] ++ ["l.c"], false) :=
    eq_ok_of_any (by decide)
  have hentry' :
      distantPackage.files.entryOf [] ⟨"w/main.go"⟩ = .ok (["w"] ++ ["main.go"], false) :=
    eq_ok_of_any (by decide)
  refine ⟨by decide, by decide +kernel, ?_, ?_, ?_, names_distantPackage.2⟩
  · rw [distantTasks, List.pairwise_pair]
    rintro ⟨place, content, hplace, hplace', -⟩
    rw [hdata] at hplace
    rw [hmain, ← hplace] at hplace'
    exact absurd (Except.ok.inj hplace') (by decide)
  · rw [distantTasks, List.forall_mem_cons, List.forall_mem_singleton]
    exact ⟨⟨_, hentry⟩, ⟨_, hentry'⟩⟩
  · rw [distantTasks, List.pairwise_pair, hentry, hentry']
    exact fun hsame => absurd (Except.ok.inj hsame) (by decide)

theorem instrumentAll_agree_distant :
    Unentangled distantPackage.files [] ["w"] distantTasks ∧
    ∃ result inPlace separate,
      (instrumentAll [] true distantTasks).perform distantPackage = (result, inPlace) ∧
      (instrumentAll [] false distantTasks).perform distantPackage = (result, separate) ∧
      (∀ failure, result = .error failure → failure.OfSource) ∧
      ∀ done, done <+: distantTasks →
        ((runTasks [] true done).perform distantPackage).1 =
          ((runTasks [] false done).perform distantPackage).1 ∧
        ∀ count, ((runTasks [] false done).perform distantPackage).1 = .ok count → ∀ task ∈ done,
          ReadAlike distantPackage.files inPlace.files separate.files [] ["w"] task :=
  ⟨unentangled_distantPackage,
    instrumentAll_agree isTree_distantPackage (by decide) unentangled_distantPackage⟩

/-- **A file behind as many links as can be followed cannot be read alike**: it can be read
where it is after the build in place, but not by way of the new link to it. -/
theorem readBytes_ne_distantPackage :
    Unentangled distantPackage.files [] ["w"] distantTasks ∧
    distantPackage.files.readBytes [] ⟨"d/l.c"⟩ = .ok "x".toUTF8 ∧
    ∃ inPlace separate bytes,
      (instrumentAll [] true distantTasks).perform distantPackage = (.ok 1, inPlace) ∧
      (instrumentAll [] false distantTasks).perform distantPackage = (.ok 1, separate) ∧
      inPlace.files.readBytes [] ⟨"d/l.c"⟩ = .ok bytes ∧
      separate.files.readBytes [] ⟨"w/l.c"⟩ ≠ .ok bytes := by
  obtain ⟨program, hleads, hearly⟩ := leadsTo_distantPackage
  obtain ⟨text, -, hparse⟩ := hleads.parse_eq
  obtain ⟨out, hout⟩ := exists_print_instrument hparse hearly "p"
  have hother : isSource ⟨"d/l.c"⟩ = false := by decide
  have hfate : Task.fate distantPackage.files [] ⟨⟨"d/l.c"⟩, ⟨"w/l.c"⟩, "p"⟩ = .ok none := by
    simp [Task.fate, hother]
  have hfate' : Task.fate distantPackage.files [] ⟨⟨"d/main.go"⟩, ⟨"w/main.go"⟩, "p"⟩ =
      .ok (some out) := by
    rw [LeadsTo.fate_eq hleads, hout]
  have htally : tally (distantTasks.map (Task.fate distantPackage.files [])) = .ok 1 := by
    simp [distantTasks, hfate, hfate', tally, Except.map]
  obtain ⟨inPlace, separate, events, events', hrun, hrun', halike⟩ :=
    runTasks_agree isTree_distantPackage (by decide) unentangled_distantPackage
  rw [htally] at hrun hrun'
  have hdone : Completed distantPackage.files [] distantTasks ⟨⟨"d/l.c"⟩, ⟨"w/l.c"⟩, "p"⟩ :=
    ⟨⟨none, hfate⟩, .inl rfl⟩
  obtain ⟨bytes, workLinks, name, hread, -, -, hthere⟩ :=
    halike _ hdone 40 _ reads_distantPackage (Nat.le_refl _)
  refine ⟨unentangled_distantPackage, reads_distantPackage.readBytes_iff.mpr (Nat.le_refl _),
    ⟨inPlace, events⟩, ⟨separate, events'⟩, bytes, by rw [perform_instrumentAll, hrun]; rfl,
    by rw [perform_instrumentAll, hrun']; rfl, hread, fun hsame => ?_⟩
  rcases hthere.mp hsame with ⟨file, hprogram⟩ | hlimit
  · have hsource := hprogram.isSource
    rw [hother] at hsource
    cases hsource
  · exact absurd hlimit (by simp [FileSystem.linkLimit])

end EntryProbe.Build
