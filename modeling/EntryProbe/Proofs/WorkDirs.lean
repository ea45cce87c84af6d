import EntryProbe.Build.Run
import EntryProbe.Proofs.Destinations

/-!
# Work directories

A build runs the compiler in its work directory, so the work directory has to be there then.
In place it is the directory of the sources, which is the parent of the first one. It is found
because the files of a build are found through it
(`EntryProbe.Build.exists_resolveDir_dir`): the way to a file goes through its directory.

Any other work directory is a new one. Nothing stands at its location before
(`EntryProbe.Build.get?_workPlace`), and then it can be reached from everywhere by its path from
the root (`EntryProbe.Build.resolveDir_workPlace`). Since nothing can stand below a location
where nothing stands, taking the directory away with all that is below it leaves the files as
they were before it was made (`EntryProbe.FileSystem.get?_removeTree_of_adds`).
-/

namespace EntryProbe

namespace FileSystem

section

variable {fs after : FileSystem} {cwd place last : Location} {links : Nat}

/-! ### Names that are new -/

/-- The greatest length is not less than any of the lengths. -/
theorem length_le_foldl (names : List String) (start : Nat) :
    start ≤ names.foldl (fun longest name => max longest name.length) start ∧
      ∀ name ∈ names,
        name.length ≤ names.foldl (fun longest name => max longest name.length) start := by
  induction names generalizing start with
  | nil => exact ⟨Nat.le_refl _, by simp⟩
  | cons name rest ih =>
    obtain ⟨hstart, hrest⟩ := ih (max start name.length)
    rw [List.foldl_cons]
    exact ⟨by omega, List.forall_mem_cons.mpr ⟨by omega, hrest⟩⟩

/-- **A new name is not among the names of the directory.** -/
theorem freshName_not_mem (fs : FileSystem) (place : Location) (stem : String) :
    fs.freshName place stem ∉ fs.names place := by
  intro hmem
  have hle := (length_le_foldl (fs.names place) 0).2 _ hmem
  simp only [freshName, String.length_append, String.length_ofList, List.length_replicate] at hle
  omega

/-! ### Directories that are taken away -/

/-- Nothing stands below a location where nothing stands. -/
theorem IsTree.get?_eq_none (htree : fs.IsTree) (hfree : fs.get? place = none) {spot : Location}
    (hbelow : place <+: spot) : fs.get? spot = none := by
  obtain ⟨rest, rfl⟩ := hbelow
  rcases List.eq_nil_or_concat rest with rfl | ⟨front, name, rfl⟩
  · rwa [List.append_nil]
  · rw [List.concat_eq_append, ← List.append_assoc]
    by_contra hsome
    have hdir := htree.parent (place ++ front) name (Option.isSome_iff_ne_none.mpr hsome)
    rw [htree.dir_of_prefix hdir place (List.prefix_append place front)] at hfree
    cases hfree

theorem get?_removeTree (fs : FileSystem) (hplace : place ≠ []) (spot : Location) :
    (fs.removeTree place).get? spot = if place.isPrefixOf spot then none else fs.get? spot := by
  by_cases hspot : spot = []
  · subst hspot
    have hnot : place.isPrefixOf [] = false := by simpa [Bool.eq_false_iff] using hplace
    rw [get?_nil, get?_nil, hnot, if_neg Bool.false_ne_true]
  · rw [removeTree, get?_filter _ _ hspot]
    by_cases hbelow : place.isPrefixOf spot = true <;> simp [hbelow]

/-- What stands is not disturbed by what is put where nothing stands. -/
theorem extends_insert (hfree : fs.get? place = none) (node : Node) :
    fs.Extends (fs.insert place node) := by
  intro spot found hfound
  rw [get?_insert_of_ne, hfound]
  rintro rfl
  rw [hfree] at hfound
  cases hfound

/-- **A directory that was made and taken away leaves no trace**, whatever was added to it. -/
theorem get?_removeTree_of_adds {entries : List (String × Node)} (htree : fs.IsTree)
    (hfree : fs.get? place = none) (hadds : Adds (fs.insert place .dir) after place entries)
    (spot : Location) : (after.removeTree place).get? spot = fs.get? spot := by
  have hplace : place ≠ [] := by
    rintro rfl
    simp at hfree
  rw [get?_removeTree after hplace]
  split
  · next hbelow => rw [htree.get?_eq_none hfree (List.isPrefixOf_iff_prefix.mp hbelow)]
  · next hbelow =>
    rw [List.isPrefixOf_iff_prefix] at hbelow
    rw [hadds.elsewhere spot, get?_insert_of_ne]
    · rintro rfl
      exact hbelow (List.prefix_refl _)
    · rintro entry - rfl
      exact hbelow (List.prefix_append _ _)

/-! ### Paths to directories -/

/-- **The path of a location leads to it** from everywhere, if it goes through directories. -/
theorem resolveDir_path (hdirs : ∀ front, front <+: place → fs.get? front = some .dir)
    (hnames : ∀ name ∈ place, Path.IsName name) (origin : Location) :
    fs.resolveDir origin place.path = .ok place := by
  obtain ⟨htext, habsolute, hsteps, -⟩ := Path.path_place hnames
  have hdir := hdirs place (List.prefix_refl _)
  have hwalk : fs.Walks 0 [] place.path.leadingSteps place := by
    rw [hsteps]
    exact @walks_names fs [] place hdirs
  refine resolveDir_eq_ok.mpr ⟨resolve_eq_ok.mpr ⟨0, Nat.zero_le _, ?_⟩, hdir⟩
  refine Walks.leads ?_ htext hdir
  rwa [Path.start, if_pos habsolute]

/-- The contents of files do not change which directories there are. -/
theorem SameShape.resolveDir (h : fs.SameShape after) {dir : Path}
    (hdir : fs.resolveDir cwd dir = .ok place) : after.resolveDir cwd dir = .ok place := by
  obtain ⟨hresolve, hplace⟩ := resolveDir_eq_ok.mp hdir
  refine resolveDir_eq_ok.mpr ⟨(h.resolve_eq cwd dir).trans hresolve, ?_⟩
  rcases (h place).cases with heq | ⟨content, -, hfile, -⟩
  · exact heq.trans hplace
  · rw [hplace] at hfile
    cases hfile

end

end FileSystem

namespace Build

section

variable {files : FileSystem} {cwd temp : Location} {set : FileSet} {inputs : List Path}

/-! ### The directory of the sources -/

/-- The parent of a name below a directory is a directory. -/
theorem exists_resolveDir_of_join {dir parent : Path} {name : String} {place : Location}
    (hname : Path.IsName name) (hparent : (dir.join ⟨name⟩).parent? = some parent)
    (htext : parent.text.isEmpty = false) (h : files.resolveDir cwd dir = .ok place) :
    ∃ place, files.resolveDir cwd parent = .ok place := by
  obtain ⟨hresolve, hplace⟩ := FileSystem.resolveDir_eq_ok.mp h
  obtain ⟨links, hle, hleads⟩ := FileSystem.resolve_eq_ok.mp hresolve
  obtain ⟨habsolute, stays, step, stays', hsteps, -, hstays', -⟩ := Path.exists_of_parent? hparent
  rw [Path.isAbsolute_join hleads.1 hname.toIsPiece] at habsolute
  rw [Path.leadingSteps_join hleads.1 hname.toIsPiece, hname.stepOf?_eq,
    Option.toList_some] at hsteps
  -- the name is the last step of both, so it is the step after the parent
  rcases List.eq_nil_or_concat stays' with rfl | ⟨front, other, rfl⟩
  · rw [← List.append_assoc] at hsteps
    have hdir := (List.append_inj' hsteps rfl).1
    have hwalk := hleads.walks_leadingSteps
    rw [hdir, Path.start, ← habsolute] at hwalk
    exact FileSystem.exists_resolveDir htext hle hwalk fun _ => hplace
  · rw [List.concat_eq_append, ← List.cons_append, ← List.append_assoc,
      ← List.append_assoc] at hsteps
    have hlast := (List.append_inj' hsteps rfl).2
    rw [hstays' other (by simp)] at hlast
    cases hlast

/-- **The directory of the files of a build is there.** -/
theorem exists_resolveDir_dir {gopath : Option Path} (htree : files.IsTree)
    (hcwd : files.get? cwd = some .dir) (h : resolveFileSet files cwd gopath inputs = .ok set) :
    ∃ place, files.resolveDir cwd set.dir = .ok place := by
  unfold FileSet.dir
  split
  swap
  · exact ⟨cwd, resolveDir_hereDir hcwd⟩
  next parent hparent =>
  split
  · exact ⟨cwd, resolveDir_hereDir hcwd⟩
  next htext =>
  rw [Bool.not_eq_true] at htext
  obtain ⟨path, hpath, hparent⟩ := Option.bind_eq_some_iff.mp hparent
  have hmem := List.mem_of_head? hpath
  by_cases hlisted : set.listed = true
  · obtain ⟨hpaths, hthere, -⟩ := eq_inputs_of_listed h hlisted
    obtain ⟨node, hstat⟩ := hthere path (hpaths ▸ hmem)
    exact exists_resolveDir_of_stat hparent htext hstat
  · rw [Bool.not_eq_true] at hlisted
    obtain ⟨dir, hpackage⟩ := exists_package h hlisted
    rcases paths_of_package hpackage with hnil | ⟨place, hdir, hpaths⟩
    · simp [hnil] at hmem
    · rw [hpaths] at hmem
      obtain ⟨name, hname, rfl⟩ := List.mem_map.mp hmem
      exact exists_resolveDir_of_join (isName_of_mem_packageNames htree name hname) hparent htext
        hdir

/-! ### A directory of its own -/

/-- Where the work directory of a build is made. -/
def workPlace (files : FileSystem) (temp : Location) : Location :=
  temp ++ [files.freshName temp workStem]

/-- **Nothing stands where the work directory is made.** -/
theorem get?_workPlace (files : FileSystem) (temp : Location) :
    files.get? (workPlace files temp) = none := by
  have hnone := files.freshName_not_mem temp workStem
  rw [FileSystem.mem_names] at hnone
  simpa [FileSystem.occupied, workPlace] using hnone

theorem isName_freshName (files : FileSystem) (temp : Location) :
    Path.IsName (files.freshName temp workStem) := by
  obtain ⟨zeros, hzeros⟩ : ∃ zeros, (files.freshName temp workStem).toList =
      "goprofile".toList ++ List.replicate zeros '0' :=
    ⟨_, by
      simp only [FileSystem.freshName, workStem, String.toList_append, String.toList_ofList]
      rfl⟩
  have hname : String.ofList ("goprofile".toList ++ List.replicate zeros '0') =
      files.freshName temp workStem := by
    rw [← hzeros, String.ofList_toList]
  refine ⟨⟨?_, ?_⟩, ?_⟩
  · rw [hzeros, List.mem_append, not_or]
    exact ⟨by decide, fun hmem => absurd (List.eq_of_mem_replicate hmem) (by decide)⟩
  · rw [hzeros]
    simp
  · rw [hzeros, ← hname]
    simp [Path.stepOf?]

/-- **The new work directory is reached by its path** from everywhere. -/
theorem resolveDir_workPlace (htree : files.IsTree) (htemp : files.get? temp = some .dir)
    (origin : Location) :
    (files.insert (workPlace files temp) .dir).resolveDir origin (workPlace files temp).path =
      .ok (workPlace files temp) := by
  refine FileSystem.resolveDir_path (fun front hfront => ?_) (fun name hmem => ?_) origin
  · rcases List.prefix_concat_iff.mp hfront with rfl | hfront
    · exact FileSystem.get?_insert_self _ _ (by simp [workPlace])
    · rw [FileSystem.get?_insert_of_ne]
      · exact htree.dir_of_prefix htemp front hfront
      · rintro rfl
        have hlong := hfront.length_le
        rw [workPlace, List.length_append, List.length_singleton] at hlong
        omega
  · rcases List.mem_append.mp hmem with hmem | hmem
    · exact htree.isName_of_mem htemp name hmem
    · obtain rfl := List.mem_singleton.mp hmem
      exact isName_freshName files temp

end

end Build

end EntryProbe
