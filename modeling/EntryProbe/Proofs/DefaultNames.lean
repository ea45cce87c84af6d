import Mathlib.Data.List.Basic
import EntryProbe.Build.Run
import EntryProbe.Proofs.Contract
import EntryProbe.Proofs.Parents

/-!
# The names that are chosen

When no name is asked for, the program and its profile are called by one name with two
endings, and the program is put into the current directory. That is so whenever the
name that is chosen (`EntryProbe.Build.outputName`) is a *piece*, a text that is not
empty and has no slash in it (`EntryProbe.Path.IsPiece`).

There are two ways in which it is not:

* the first input is called by a dot and a word without one, so that all of its name
  is the extension that is taken off;
* the first input leads to no name. It is taken as a whole then, with its slashes, and
  loses what stands behind the last dot in it. Two dots, with slashes behind them, are
  the one such path that leaves a piece, which is a single dot.
-/

namespace EntryProbe.Build

open EntryProbe.Path

/-! ### Taking off the extension -/

theorem withoutExtension_of_dot {text : String} {before after : List Char}
    (htext : text.toList = before ++ '.' :: after) (hafter : '.' ∉ after) :
    withoutExtension text = String.ofList before := by
  have hrev : text.toList.reverse = after.reverse ++ '.' :: before.reverse := by simp [htext]
  have hdrop : text.toList.reverse.dropWhile (fun c => c != '.') = '.' :: before.reverse := by
    rw [hrev, List.dropWhile_append_of_pos]
    · simp
    · intro c hc
      have : c ≠ '.' := fun h => hafter (h ▸ List.mem_reverse.mp hc)
      simpa using this
  rw [withoutExtension, hdrop]
  simp

theorem withoutExtension_of_no_dot {text : String} (h : '.' ∉ text.toList) :
    withoutExtension text = text := by
  have hdrop : text.toList.reverse.dropWhile (fun c => c != '.') = [] := by
    rw [List.dropWhile_eq_nil_iff]
    intro c hc
    have : c ≠ '.' := fun hdot => h (hdot ▸ List.mem_reverse.mp hc)
    simpa using this
  rw [withoutExtension, hdrop]

/-- A text with a dot in it has a last one. -/
theorem exists_last_dot {text : List Char} (h : '.' ∈ text) :
    ∃ before after, text = before ++ '.' :: after ∧ '.' ∉ after := by
  obtain ⟨after, before, hsplit, hafter⟩ :=
    List.eq_append_cons_of_mem (List.mem_reverse.mpr h)
  refine ⟨before.reverse, after.reverse, ?_, by simpa using hafter⟩
  rw [← List.reverse_reverse text, hsplit]
  simp

/-- What is left of a name is a piece, unless the name is a dot and a word without one. -/
theorem isPiece_withoutExtension {name : String} (h : IsPiece name) :
    IsPiece (withoutExtension name) ↔
      ∀ rest, name.toList = '.' :: rest → '.' ∈ rest := by
  by_cases hdot : '.' ∈ name.toList
  · obtain ⟨before, after, hsplit, hafter⟩ := exists_last_dot hdot
    have hslash : '/' ∉ before := fun hin => h.no_slash (by simp [hsplit, hin])
    rw [withoutExtension_of_dot hsplit hafter]
    constructor
    · intro hpiece rest hrest
      cases before with
      | nil => exact absurd rfl hpiece.ne_nil
      | cons c before =>
        rw [hsplit, List.cons_append, List.cons.injEq] at hrest
        simp [← hrest.2]
    · intro hrest
      refine ⟨by simpa using hslash, ?_⟩
      rintro hnil
      obtain rfl : before = [] := by simpa using hnil
      exact hafter (hrest after hsplit)
  · rw [withoutExtension_of_no_dot hdot]
    refine iff_of_true h fun rest hrest => absurd ?_ hdot
    simp [hrest]

/-! ### Paths that lead to no name -/

/-- A text without dots ends in a name, if it does not consist of slashes. -/
theorem all_slash_or_exists_name {text : List Char} (h : '.' ∉ text) :
    ((∀ c ∈ text, c = '/') ∧ (pieces text).filterMap innerComponent? = []) ∨
      ∃ name, ((pieces text).filterMap innerComponent?).getLast? = some (.name name) := by
  induction text with
  | nil => exact .inl ⟨fun c hc => absurd hc List.not_mem_nil, rfl⟩
  | cons c rest ih =>
    obtain ⟨hc, hrest⟩ := not_or.mp (mt List.mem_cons.mpr h)
    by_cases hslash : c = '/'
    · -- A slash makes an empty piece, which stands for nothing.
      have hpieces : (pieces (c :: rest)).filterMap innerComponent? =
          (pieces rest).filterMap innerComponent? := by
        simp [pieces, hslash, innerComponent?]
      rw [hpieces]
      exact (ih hrest).imp_left fun h => ⟨List.forall_mem_cons.mpr ⟨hslash, h.1⟩, h.2⟩
    · obtain ⟨first, others, hpieces⟩ := List.exists_cons_of_ne_nil (pieces_ne_nil rest)
      have hname : innerComponent? (c :: first) = some (.name (String.ofList (c :: first))) := by
        simp [innerComponent?, Ne.symm hc]
      rw [hpieces] at ih
      rw [pieces, if_neg hslash, hpieces, List.filterMap_cons_some hname, List.getLast?_cons]
      refine .inr ?_
      cases hlast : (others.filterMap innerComponent?).getLast? with
      | none => exact ⟨_, rfl⟩
      | some last =>
        -- What is last here is last in the rest of the text as well.
        have hend : ((first :: others).filterMap innerComponent?).getLast? = some last := by
          rw [← List.singleton_append, List.filterMap_append, List.getLast?_append, hlast,
            Option.some_or]
        rcases ih hrest with ⟨-, hnil⟩ | ⟨name, hname⟩
        · rw [hnil] at hend
          cases hend
        · exact ⟨name, hend.symm.trans hname⟩

/-- If a path leads to no name, starts with a text without slashes, and has no dot behind
that text, then its first piece is a dot or two, and there are only slashes behind it. -/
theorem exists_slashes {path : Path} {front rest : List Char} (h : path.fileName? = none)
    (htext : path.text.toList = front ++ rest) (hne : front ≠ []) (hslash : '/' ∉ front)
    (hdot : '.' ∉ rest) :
    ∃ more slashes, rest = more ++ slashes ∧ (∀ c ∈ slashes, c = '/') ∧
      (front ++ more = ['.'] ∨ front ++ more = ['.', '.']) := by
  have habsolute : path.isAbsolute = false := by
    obtain ⟨c, front, rfl⟩ := List.exists_cons_of_ne_nil hne
    have hc : c ≠ '/' := fun h => hslash (h ▸ List.mem_cons_self)
    simp [isAbsolute, htext, hc]
  obtain ⟨more, slashes, others, hrest, hslashes, hpieces, hothers⟩ : ∃ more slashes others,
      rest = more ++ slashes ∧ (∀ c ∈ slashes, c = '/') ∧
        pieces path.text.toList = (front ++ more) :: others ∧
          others.filterMap innerComponent? = [] := by
    by_cases hin : '/' ∈ rest
    · obtain ⟨more, behind, rfl, hmore⟩ := List.eq_append_cons_of_mem hin
      have hpieces : pieces path.text.toList = (front ++ more) :: pieces behind := by
        rw [htext, ← List.append_assoc, pieces_append_slash, pieces_of_no_slash]
        · rfl
        · simp [hslash, hmore]
      have hbehind : '.' ∉ behind := fun h => hdot (by simp [h])
      rcases all_slash_or_exists_name hbehind with ⟨hall, hnil⟩ | ⟨name, hname⟩
      · exact ⟨more, '/' :: behind, pieces behind, rfl, List.forall_mem_cons.mpr ⟨rfl, hall⟩,
          hpieces, hnil⟩
      · rw [fileName?, components_eq, hpieces, componentsOf, List.getLast?_append, hname,
          Option.some_or] at h
        cases h
    · refine ⟨rest, [], [], (List.append_nil rest).symm,
        fun _ hmem => absurd hmem List.not_mem_nil, ?_, rfl⟩
      rw [htext, pieces_of_no_slash (by simp [hslash, hin])]
  refine ⟨more, slashes, hrest, hslashes, ?_⟩
  by_contra hcon
  rw [not_or] at hcon
  rw [fileName?, components_eq, hpieces, habsolute, componentsOf, hothers] at h
  simp [firstComponent?, innerComponent?, hcon, hne] at h

/-- A path that consists of two dots, and slashes behind them. -/
def IsUp (path : Path) : Prop :=
  ∃ slashes, path.text.toList = '.' :: '.' :: slashes ∧ ∀ c ∈ slashes, c = '/'

/-- What is left of a path that leads to no name is a piece only if the path goes up. -/
theorem isPiece_withoutExtension_nameless {path : Path} (h : path.fileName? = none) :
    IsPiece (withoutExtension path.text) ↔ IsUp path := by
  constructor
  · intro hpiece
    by_cases hdot : '.' ∈ path.text.toList
    · obtain ⟨before, after, hsplit, hafter⟩ := exists_last_dot hdot
      rw [withoutExtension_of_dot hsplit hafter] at hpiece
      have hne : before ≠ [] := by simpa using hpiece.ne_nil
      have hslash : '/' ∉ before ++ ['.'] := by simpa using hpiece.no_slash
      have htext : path.text.toList = (before ++ ['.']) ++ after := by simp [hsplit]
      obtain ⟨more, slashes, rfl, hslashes, hfirst | hfirst⟩ :=
        exists_slashes h htext (by simp) hslash hafter
      · exact absurd (List.append_eq_singleton_iff.mp hfirst) (by simp [hne])
      · refine ⟨slashes, ?_, hslashes⟩
        rw [htext, ← List.append_assoc, hfirst]
        rfl
    · rw [withoutExtension_of_no_dot hdot] at hpiece
      obtain ⟨more, slashes, hnil, -, hfirst⟩ :=
        exists_slashes h (List.append_nil _).symm hpiece.ne_nil hpiece.no_slash List.not_mem_nil
      rw [(List.append_eq_nil_iff.mp hnil.symm).1, List.append_nil] at hfirst
      rcases hfirst with hfirst | hfirst
      · exact absurd (by simp [hfirst]) hdot
      · exact absurd (by simp [hfirst]) hdot
  · rintro ⟨slashes, htext, hslashes⟩
    have hdots : path.text.toList = ['.'] ++ '.' :: slashes := htext
    have hnone : '.' ∉ slashes := fun hin => by simpa using hslashes '.' hin
    rw [withoutExtension_of_dot hdots hnone]
    exact ⟨by decide, by decide⟩

/-! ### The name of the results -/

/-- A path that a name can be taken from: one that leads to a name, which is more than
a dot and a word without one, or one that goes up. -/
inductive GivesName (path : Path) : Prop
  | named {name : String} (hname : path.fileName? = some name)
      (hmore : ∀ rest, name.toList = '.' :: rest → '.' ∈ rest)
  | up (hname : path.fileName? = none) (hup : IsUp path)

theorem isPiece_withoutExtension_baseName (path : Path) :
    IsPiece (withoutExtension (baseName path)) ↔ GivesName path := by
  rw [baseName]
  cases hname : path.fileName? with
  | none =>
    rw [Option.getD_none, isPiece_withoutExtension_nameless hname]
    exact ⟨.up hname, fun | .up _ hup => hup | .named hsome _ => by simp [hname] at hsome⟩
  | some name =>
    rw [Option.getD_some, isPiece_withoutExtension (isName_of_fileName? hname).toIsPiece]
    constructor
    · exact .named hname
    · rintro (⟨hsome, hmore⟩ | ⟨hnone, -⟩)
      · obtain rfl := Option.some.inj (hname.symm.trans hsome)
        exact hmore
      · rw [hname] at hnone
        cases hnone

variable {cwd : Location}

/-- The current directory has a name, if it is not the root. -/
theorem isName_baseName_place (hcwd : cwd ≠ []) (hnames : ∀ name ∈ cwd, IsName name) :
    IsName (baseName cwd.path) := by
  obtain ⟨before, name, rfl⟩ := List.eq_nil_or_concat cwd |>.resolve_left hcwd
  have hlast : (Location.path (before.concat name)).fileName? = some name := by
    rw [fileName?, (path_place hnames).2.2.2, List.concat_eq_append, List.map_append,
      List.map_singleton, ← List.cons_append, List.getLast?_concat]
  rw [baseName, hlast]
  exact hnames name (by simp)

/-- **The name that is chosen** is a piece if a name can be taken from the first input;
without inputs it always is. -/
theorem isPiece_outputName (hcwd : cwd ≠ []) (hnames : ∀ name ∈ cwd, IsName name)
    (inputs : List Path) :
    IsPiece (outputName inputs cwd.path) ↔ ∀ first ∈ inputs.head?, GivesName first := by
  cases inputs with
  | nil => exact iff_of_true (isName_baseName_place hcwd hnames).toIsPiece nofun
  | cons first rest =>
    rw [outputName, isPiece_withoutExtension_baseName]
    simp

/-- A piece with the ending of a program is a name. -/
theorem isName_append {name : String} (h : IsPiece name) : IsName (name ++ ".profile") := by
  have hlength : 8 ≤ (name ++ ".profile").toList.length := by
    rw [String.toList_append, List.length_append]
    exact Nat.le_add_left 8 _
  refine ⟨⟨?_, fun hnil => by simp [hnil] at hlength⟩, ?_⟩
  · rw [String.toList_append, List.mem_append, not_or]
    exact ⟨h.no_slash, by decide⟩
  · rw [stepOf?, if_neg fun h => by simp [h] at hlength,
      if_neg fun h => by simp [h] at hlength, if_neg fun h => by simp [h] at hlength,
      String.ofList_toList]

/-! ### The paths of the results -/

variable {machine : Machine} {options : Options}

/-- A build that ends well has put the program where it said. -/
theorem output_of_buildProject {files : FileSystem} {output : Path} {after : World}
    (h : (buildProject machine options).perform ⟨files, []⟩ = (.ok output, after)) :
    output = options.outputPath machine.cwd.path := by
  obtain ⟨result, world, hperform, hcases⟩ := perform_buildProject machine options files
  obtain ⟨rfl, rfl⟩ := Prod.mk.inj (hperform.symm.trans h)
  rcases hcases with ⟨failure, -, hresult, -⟩ | ⟨given, compiled, -, hresult, -⟩
  · cases hresult
  · cases compiled with
    | error failure => cases hresult
    | ok done => exact Except.ok.inj hresult

/-- **The program goes into the current directory, and is called as its profile is**, but
for the endings, exactly if a name can be taken from the first input or there is none: if
no names were asked for, and the current directory is not the root. -/
theorem default_names (hcwd : machine.cwd ≠ []) (hnames : ∀ name ∈ machine.cwd, IsName name)
    (houtput : options.output = none) (hprofile : options.profile = none) :
    (∀ files output after,
      (buildProject machine options).perform ⟨files, []⟩ = (.ok output, after) →
        output = options.outputPath machine.cwd.path) ∧
    ((∃ name : String, name ≠ "" ∧ '/' ∉ name.toList ∧
      options.profilePath machine.cwd.path = name ++ ".pprof" ∧
      (options.outputPath machine.cwd.path).fileName? = some (name ++ ".profile") ∧
      ∃ dir, (options.outputPath machine.cwd.path).parent? = some dir ∧
        dir.components = machine.cwd.path.components) ↔
      ∀ first ∈ options.inputs.head?, GivesName first) := by
  refine ⟨fun files output after => output_of_buildProject, ?_⟩
  rw [← isPiece_outputName hcwd hnames]
  constructor
  · rintro ⟨name, hne, hslash, hname, -⟩
    rw [Options.profilePath, hprofile, Option.getD_none, String.append_left_inj] at hname
    exact hname ▸ ⟨hslash, by simpa using hne⟩
  · intro hpiece
    obtain ⟨hfile, hparent⟩ := exists_parent?_join machine.cwd.path (isName_append hpiece)
    refine ⟨_, fun hnil => hpiece.ne_nil (by simp [hnil]), hpiece.no_slash, ?_, ?_⟩
    · rw [Options.profilePath, hprofile, Option.getD_none]
    · rw [Options.outputPath, houtput, Option.getD_none]
      exact ⟨hfile, hparent⟩

theorem default_names_main :
    (∀ name ∈ ["home", "g"], IsName name) ∧ mainOptions.output = none ∧
    mainOptions.profile = none ∧
    ∃ name : String, name ≠ "" ∧ '/' ∉ name.toList ∧
      mainOptions.profilePath (Location.path ["home", "g"]) = name ++ ".pprof" ∧
      (mainOptions.outputPath (Location.path ["home", "g"])).fileName? =
        some (name ++ ".profile") ∧
      ∃ dir, (mainOptions.outputPath (Location.path ["home", "g"])).parent? = some dir ∧
        dir.components = (Location.path ["home", "g"]).components := by
  have hnames : ∀ name ∈ ["home", "g"], IsName name := by
    intro name hmem
    obtain rfl | rfl : name = "home" ∨ name = "g" := by simpa using hmem
    · exact ⟨⟨by decide, by decide⟩, by decide⟩
    · exact ⟨⟨by decide, by decide⟩, by decide⟩
  refine ⟨hnames, rfl, rfl, ?_⟩
  refine (@default_names ⟨["home", "g"], [], none, none, none⟩ mainOptions (List.cons_ne_nil _ _)
    hnames rfl rfl).2.mpr ?_
  rintro first ⟨⟩
  have hname : (⟨"main.go"⟩ : Path).fileName? = some "main.go" := by decide
  exact .named hname fun rest hrest => by simp at hrest

/-- Named by a dot, the current directory leaves no name. -/
example : outputName [hereDir] ⟨"/home/g"⟩ = "" ∧ outputName [] ⟨"/home/g"⟩ = "g" := by decide

/-- Slashes of a path without a name get into the name that is chosen. -/
example : outputName [⟨"sub/.."⟩] ⟨"/home/g"⟩ = "sub/." := by decide

end EntryProbe.Build
