import EntryProbe.Proofs.Packages
import EntryProbe.Proofs.Parents

/-!
# Files that are named one by one

Several files that are named one by one have to be in one directory, because a build has one
directory of sources and one work directory. What is compared are the cleaned parents of the
arguments, as texts, and no link is looked at. The one thing to know is that this is enough: a
directory goes by its start and by its moves, cleaning leaves both as they are
(`EntryProbe.Build.cleanDir_eq_iff`), and dots say nothing as long as the walk ends in a
directory (`EntryProbe.FileSystem.walks_filter_here`). So directories that are the same when
cleaned are the same place, over the same links, however each of them is written.

The arguments are checked from the left, each one against the first. The error is that of the
first argument that is in the way (`EntryProbe.Build.Offends`): it is not there, or it is in
another directory than the first one.

* `EntryProbe.FileSystem.resolveDir_of_sameWay` – directories with the same start and moves;
* `EntryProbe.Build.resolveFileSet_named` – what becomes of two or more arguments.
-/

namespace EntryProbe

/-- Two paths start at the same place, and make the same moves. -/
def Path.SameWay (path other : Path) : Prop :=
  path.isAbsolute = other.isAbsolute ∧ path.moves = other.moves

namespace FileSystem

section

variable {fs : FileSystem} {cwd place last : Location} {links : Nat} {steps : List Step}
  {dir other : Path}

/-- **A directory goes by its start and its moves.** -/
theorem resolveDir_eq_ok_moves (htext : dir.text.isEmpty = false) :
    fs.resolveDir cwd dir = .ok place ↔ fs.get? place = some .dir ∧
      ∃ links ≤ linkLimit,
        fs.Walks links (dir.start cwd) (dir.moves.filterMap Path.Component.step?) place := by
  rw [resolveDir_eq_ok, resolve_eq_ok, and_comm]
  refine and_congr_right fun hplace => exists_congr fun links => and_congr_right fun _ => ?_
  rw [Path.filterMap_moves, ← Path.filter_steps, walks_filter_here hplace]
  exact and_iff_right htext

/-- **Directories with the same start and the same moves are the same place.** -/
theorem resolveDir_of_sameWay (htext : dir.text.isEmpty = false)
    (hother : other.text.isEmpty = false) (h : dir.SameWay other) :
    fs.resolveDir cwd dir = .ok place ↔ fs.resolveDir cwd other = .ok place := by
  obtain ⟨habsolute, hmoves⟩ := h
  rw [resolveDir_eq_ok_moves htext, resolveDir_eq_ok_moves hother, Path.start, Path.start,
    habsolute, hmoves]

/-- The first steps of a walk lead to a directory, if the walk goes on, or ends in one. -/
theorem exists_resolveDir {dir : Path} {steps : List Step} (htext : dir.text.isEmpty = false)
    (hle : links ≤ linkLimit)
    (hwalk : fs.Walks links (dir.start cwd) (dir.leadingSteps ++ steps) last)
    (hend : steps = [] → fs.get? last = some .dir) :
    ∃ place, fs.resolveDir cwd dir = .ok place := by
  obtain ⟨first, second, mid, rfl, hfirst, hsecond⟩ := hwalk.exists_mid
  have hdir : fs.get? mid = some .dir := by
    by_cases hnil : steps = []
    · subst hnil
      exact hsecond.dir_start (hend rfl)
    · exact hsecond.dir_of_ne_nil hnil
  exact ⟨mid, resolveDir_eq_ok.mpr
    ⟨resolve_eq_ok.mpr ⟨first, by omega, hfirst.leads htext hdir⟩, hdir⟩⟩

end

end FileSystem

namespace Build

open EntryProbe.Path

/-! ### Clean directories -/

theorem sameWay_of_cleanDir_eq {dir other : Path} (h : cleanDir dir = cleanDir other) :
    dir.SameWay other :=
  moves_eq_of_cleanDir (congrArg components h)

/-- A directory as it is read: the empty path is the current directory. -/
def asDir (dir : Path) : Path :=
  if dir.text.isEmpty then hereDir else dir

theorem isEmpty_asDir (dir : Path) : (asDir dir).text.isEmpty = false := by
  unfold asDir
  split
  · decide
  · next h => simpa using h

theorem cleanDir_asDir (dir : Path) : cleanDir (asDir dir) = cleanDir dir := by
  unfold asDir
  split
  · next h =>
    obtain ⟨text⟩ := dir
    obtain rfl : text = "" := by simpa using h
    decide
  · rfl

/-- The directory of files is that of the first one. -/
theorem cleanDir_dir (first : Path) (others : List Path) (listed : Bool) :
    cleanDir (FileSet.dir ⟨first :: others, listed⟩) = dirOf first := by
  have hdir : FileSet.dir ⟨first :: others, listed⟩ = asDir (first.parent?.getD ⟨""⟩) := by
    rw [FileSet.dir, List.head?_cons, Option.bind_some]
    cases first.parent? <;> rfl
  rw [hdir, cleanDir_asDir, dirOf]

theorem isEmpty_dir (set : FileSet) : set.dir.text.isEmpty = false := by
  unfold FileSet.dir
  split
  · exact isEmpty_asDir _
  · decide

/-! ### The check of the arguments -/

section

variable {files : FileSystem} {cwd : Location} {first input : Path} {inputs : List Path}
  {error : Error}

/-- An argument fits in with the first one: it is there, and its directory is the same. -/
def Fits (files : FileSystem) (cwd : Location) (first input : Path) : Prop :=
  (∃ node, files.stat cwd input = .ok node) ∧ dirOf input = dirOf first

/-- **An argument is in the way**, and an error says why. -/
inductive Offends (files : FileSystem) (cwd : Location) (first input : Path) : Error → Prop
  /-- The argument is not there. -/
  | missing {cause : IoError} : files.stat cwd input = .error cause →
      Offends files cwd first input (.missingInput input cause)
  /-- The argument is there, but in another directory. -/
  | elsewhere {node : Node} : files.stat cwd input = .ok node → dirOf input ≠ dirOf first →
      Offends files cwd first input (.mixedDirectories (dirOf first) (dirOf input))

theorem Offends.not_fits (h : Offends files cwd first input error) :
    ¬ Fits files cwd first input := by
  rintro ⟨⟨node, hstat⟩, hdir⟩
  cases h with
  | missing herror =>
    rw [hstat] at herror
    cases herror
  | elsewhere _ hne => exact hne hdir

/-- **The arguments are checked from the left**: they all fit in, or the first one that does not
gives the error. -/
theorem checkListed_cases (files : FileSystem) (cwd : Location) (first : Path)
    (inputs : List Path) :
    (checkListed files cwd (some (dirOf first)) inputs = .ok () ∧
      ∀ input ∈ inputs, Fits files cwd first input) ∨
    ∃ front input back error, inputs = front ++ input :: back ∧
      (∀ other ∈ front, Fits files cwd first other) ∧ Offends files cwd first input error ∧
      checkListed files cwd (some (dirOf first)) inputs = .error error := by
  induction inputs with
  | nil => exact .inl ⟨rfl, nofun⟩
  | cons input rest ih =>
    rcases hstat : files.stat cwd input with cause | node
    · exact .inr ⟨[], input, rest, _, rfl, nofun, .missing hstat, by simp [checkListed, hstat]⟩
    by_cases hdir : dirOf input = dirOf first
    · have hnext : checkListed files cwd (some (dirOf first)) (input :: rest) =
          checkListed files cwd (some (dirOf first)) rest := by
        simp [checkListed, hstat, hdir]
      have hfits : Fits files cwd first input := ⟨⟨node, hstat⟩, hdir⟩
      rw [hnext]
      rcases ih with ⟨hok, hrest⟩ | ⟨front, other, back, error, rfl, hfront, hoffends, herror⟩
      · exact .inl ⟨hok, List.forall_mem_cons.mpr ⟨hfits, hrest⟩⟩
      · exact .inr ⟨input :: front, other, back, error, rfl,
          List.forall_mem_cons.mpr ⟨hfits, hfront⟩, hoffends, herror⟩
    · -- what is compared are the components, and these tell clean directories apart
      have hne : ¬ (dirOf first).components = (dirOf input).components :=
        fun hsame => hdir (components_cleanDir_eq_iff.mp hsame).symm
      exact .inr ⟨[], input, rest, _, rfl, nofun, .elsewhere hstat hdir,
        by simp [checkListed, hstat, hne]⟩

/-- The first argument is checked as if it were compared with itself. -/
theorem checkListed_first (files : FileSystem) (cwd : Location) (first : Path)
    (others : List Path) :
    checkListed files cwd none (first :: others) =
      checkListed files cwd (some (dirOf first)) (first :: others) := by
  rcases hstat : files.stat cwd first with cause | node
  · simp [checkListed, hstat]
  · simp [checkListed, hstat]

/-- Arguments that pass the check fit in with the first one. -/
theorem exists_fits_of_checkListed (h : checkListed files cwd none inputs = .ok ()) :
    ∃ first, ∀ input ∈ inputs, Fits files cwd first input := by
  rcases inputs with _ | ⟨first, others⟩
  · exact ⟨hereDir, nofun⟩
  · rw [checkListed_first] at h
    rcases checkListed_cases files cwd first (first :: others) with
      ⟨-, hfits⟩ | ⟨_, _, _, _, -, -, -, herror⟩
    · exact ⟨first, hfits⟩
    · rw [herror] at h
      cases h

/-- Two or more arguments are checked, and taken as they are. -/
theorem resolveFileSet_eq_map (files : FileSystem) (cwd : Location) (gopath : Option Path)
    (first : Path) {others : List Path} (hothers : others ≠ []) :
    resolveFileSet files cwd gopath (first :: others) =
      (checkListed files cwd (some (dirOf first)) (first :: others)).map
        fun _ => ⟨first :: others, true⟩ := by
  obtain ⟨second, rest, rfl⟩ := List.exists_cons_of_ne_nil hothers
  rw [← checkListed_first]
  unfold resolveFileSet
  dsimp only
  rcases checkListed files cwd none (first :: second :: rest) with error | _
  · rfl
  · rfl

/-- **What becomes of two or more arguments.** -/
theorem resolveFileSet_cases (files : FileSystem) (cwd : Location) (gopath : Option Path)
    (first : Path) {others : List Path} (hothers : others ≠ []) :
    (resolveFileSet files cwd gopath (first :: others) = .ok ⟨first :: others, true⟩ ∧
      ∀ input ∈ first :: others, Fits files cwd first input) ∨
    ∃ front input back error, first :: others = front ++ input :: back ∧
      (∀ other ∈ front, Fits files cwd first other) ∧ Offends files cwd first input error ∧
      resolveFileSet files cwd gopath (first :: others) = .error error := by
  rw [resolveFileSet_eq_map files cwd gopath first hothers]
  rcases checkListed_cases files cwd first (first :: others) with
    ⟨hok, hfits⟩ | ⟨front, input, back, error, hsplit, hfront, hoffends, herror⟩
  · exact .inl ⟨by rw [hok]; rfl, hfits⟩
  · exact .inr ⟨front, input, back, error, hsplit, hfront, hoffends, by rw [herror]; rfl⟩

/-! ### The directory of the arguments -/

theorem resolveDir_hereDir (hcwd : files.get? cwd = some .dir) :
    files.resolveDir cwd hereDir = .ok cwd := by
  have hsteps : hereDir.steps = [.here] := by decide
  have hleads : files.Leads cwd hereDir 0 cwd := by
    refine ⟨by decide, ?_⟩
    rw [hsteps]
    exact .here hcwd .done
  exact FileSystem.resolveDir_eq_ok.mpr
    ⟨FileSystem.resolve_eq_ok.mpr ⟨0, Nat.zero_le _, hleads⟩, hcwd⟩

/-- The parent of a file that is there is a directory. -/
theorem exists_resolveDir_of_stat {path parent : Path} {node : Node}
    (hparent : path.parent? = some parent) (htext : parent.text.isEmpty = false)
    (h : files.stat cwd path = .ok node) : ∃ place, files.resolveDir cwd parent = .ok place := by
  obtain ⟨habsolute, stays, step, stays', hsteps, -⟩ := Path.exists_of_parent? hparent
  obtain ⟨links, hle, place, hleads, -⟩ := FileSystem.stat_eq_ok.mp h
  have hwalk := hleads.walks_leadingSteps
  rw [hsteps, Path.start, ← habsolute] at hwalk
  exact FileSystem.exists_resolveDir htext hle hwalk (by simp)

/-- The parent of an argument that is there is a directory. -/
theorem exists_resolveDir_asDir {path parent : Path} {node : Node}
    (hparent : path.parent? = some parent) (hstat : files.stat cwd path = .ok node) :
    ∃ place, files.resolveDir cwd (asDir parent) = .ok place := by
  unfold asDir
  split
  · next htext =>
    -- the path takes a step from the current directory, so that is one
    obtain ⟨habsolute, stays, step, stays', hsteps, -⟩ := exists_of_parent? hparent
    obtain ⟨links, -, place, hleads, -⟩ := FileSystem.stat_eq_ok.mp hstat
    have hwalk := hleads.walks_leadingSteps
    have hempty : parent.isAbsolute = false := by
      rw [String.isEmpty_iff] at htext
      rw [isAbsolute, htext]
      rfl
    rw [Path.start, ← habsolute, hempty, if_neg Bool.false_ne_true] at hwalk
    exact ⟨cwd, resolveDir_hereDir (hwalk.dir_of_ne_nil (by simp [hsteps]))⟩
  · next htext => exact exists_resolveDir_of_stat hparent (by simpa using htext) hstat

/-- **The parent of an argument that fits in is the directory of all of them.** -/
theorem Fits.exists_place {parent : Path} (h : Fits files cwd first input)
    (hparent : input.parent? = some parent) (others : List Path) (listed : Bool) :
    ∃ place, files.resolveDir cwd (asDir parent) = .ok place ∧
      files.resolveDir cwd (FileSet.dir ⟨first :: others, listed⟩) = .ok place := by
  obtain ⟨⟨node, hstat⟩, hdir⟩ := h
  obtain ⟨place, hplace⟩ := exists_resolveDir_asDir hparent hstat
  have hclean : cleanDir (asDir parent) = cleanDir (FileSet.dir ⟨first :: others, listed⟩) := by
    rw [cleanDir_dir, ← hdir, dirOf, hparent, Option.getD_some, cleanDir_asDir]
  exact ⟨place, hplace, (FileSystem.resolveDir_of_sameWay (isEmpty_asDir parent) (isEmpty_dir _)
    (sameWay_of_cleanDir_eq hclean)).mp hplace⟩

end

/-- **Two or more arguments** are the files of a build exactly if they are all there and their
cleaned directories are the same. Then they are taken as they are, in their order, and the
parent of each of them is the directory of the set. Otherwise the error is that of the leftmost
argument that is in the way. Cleaning a directory twice is cleaning it once, and directories are
the same when cleaned exactly if they have the same components, dots apart. -/
theorem resolveFileSet_named (files : FileSystem) (cwd : Location) (gopath : Option Path)
    (first : Path) (others : List Path) (hothers : others ≠ []) :
    ((∃ set, resolveFileSet files cwd gopath (first :: others) = .ok set) ↔
      (∀ input ∈ first :: others, ∃ node, files.stat cwd input = .ok node) ∧
      ∀ input ∈ first :: others, ∀ other ∈ first :: others, dirOf input = dirOf other) ∧
    (∀ set, resolveFileSet files cwd gopath (first :: others) = .ok set →
      set = ⟨first :: others, true⟩ ∧
      ∀ input ∈ first :: others, ∀ parent, input.parent? = some parent →
        ∃ place, files.resolveDir cwd (asDir parent) = .ok place ∧
          files.resolveDir cwd set.dir = .ok place) ∧
    (∀ error, resolveFileSet files cwd gopath (first :: others) = .error error →
      ∃ front input back, first :: others = front ++ input :: back ∧
        (∀ other ∈ front, Fits files cwd first other) ∧ Offends files cwd first input error) ∧
    (∀ dir, cleanDir (cleanDir dir) = cleanDir dir) ∧
    (∀ dir other, cleanDir dir = cleanDir other ↔
      dir.components.filter (· != .here) = other.components.filter (· != .here)) := by
  rcases resolveFileSet_cases files cwd gopath first hothers with
    ⟨hok, hfits⟩ | ⟨front, input, back, error, hsplit, hfront, hoffends, herror⟩
  · refine ⟨iff_of_true ⟨_, hok⟩ ⟨fun input hmem => (hfits input hmem).1, ?_⟩, ?_, ?_,
      cleanDir_cleanDir, fun _ _ => cleanDir_eq_iff⟩
    · intro input hmem other hother
      rw [(hfits input hmem).2, (hfits other hother).2]
    · intro set hset
      rw [hok] at hset
      cases hset
      exact ⟨rfl, fun input hmem parent hparent => (hfits input hmem).exists_place hparent _ _⟩
    · intro error herror
      rw [hok] at herror
      cases herror
  · refine ⟨iff_of_false ?_ ?_, ?_, ?_, cleanDir_cleanDir, fun _ _ => cleanDir_eq_iff⟩
    · rintro ⟨set, hset⟩
      rw [herror] at hset
      cases hset
    · rintro ⟨hthere, hdirs⟩
      have hmem : input ∈ first :: others := by simp [hsplit]
      exact hoffends.not_fits ⟨hthere input hmem, hdirs input hmem first List.mem_cons_self⟩
    · intro set hset
      rw [herror] at hset
      cases hset
    · intro error' herror'
      rw [herror] at herror'
      cases herror'
      exact ⟨front, input, back, hsplit, hfront, hoffends⟩

/-- Two directories with files, one of which has a second name. -/
def twoDirectories : FileSystem :=
  ⟨[(["a"], .dir), (["a", "x.go"], .ofText "package a\n"), (["a", "y.go"], .ofText "package a\n"),
    (["b"], .dir), (["b", "z.go"], .ofText "package b\n"), (["c"], .link ⟨"a"⟩)], by simp⟩

theorem resolveFileSet_named_twoDirectories :
    (∃ set place, resolveFileSet twoDirectories [] none [⟨"a/x.go"⟩, ⟨".//a/./y.go"⟩] = .ok set ∧
      twoDirectories.resolveDir [] ⟨".//a"⟩ = .ok place ∧
      twoDirectories.resolveDir [] set.dir = .ok place) ∧
    (∃ front input back error,
      resolveFileSet twoDirectories [] none [⟨"a/x.go"⟩, ⟨"c/y.go"⟩, ⟨"a/gone.go"⟩] = .error error ∧
      [⟨"a/x.go"⟩, ⟨"c/y.go"⟩, ⟨"a/gone.go"⟩] = front ++ input :: back ∧
      Offends twoDirectories [] ⟨"a/x.go"⟩ input error) := by
  constructor
  · have hset : resolveFileSet twoDirectories [] none [⟨"a/x.go"⟩, ⟨".//a/./y.go"⟩] =
        .ok ⟨[⟨"a/x.go"⟩, ⟨".//a/./y.go"⟩], true⟩ := Go.eq_ok_of_any (by decide)
    obtain ⟨-, hsame⟩ := (resolveFileSet_named twoDirectories [] none ⟨"a/x.go"⟩ [⟨".//a/./y.go"⟩]
      (List.cons_ne_nil _ _)).2.1 _ hset
    obtain ⟨place, hplace, hdir⟩ := hsame ⟨".//a/./y.go"⟩ (by simp) ⟨".//a"⟩ (by decide)
    exact ⟨_, place, hset, hplace, hdir⟩
  · have herror : resolveFileSet twoDirectories [] none
        [⟨"a/x.go"⟩, ⟨"c/y.go"⟩, ⟨"a/gone.go"⟩] = .error (.mixedDirectories ⟨"a"⟩ ⟨"c"⟩) := by
      decide
    obtain ⟨front, input, back, hsplit, -, hoffends⟩ := (resolveFileSet_named twoDirectories [] none
      ⟨"a/x.go"⟩ [⟨"c/y.go"⟩, ⟨"a/gone.go"⟩] (List.cons_ne_nil _ _)).2.2.1 _ herror
    exact ⟨front, input, back, _, herror, hsplit, hoffends⟩

end Build

end EntryProbe
