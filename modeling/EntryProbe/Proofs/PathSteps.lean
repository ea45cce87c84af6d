import EntryProbe.FileSystem.Resolve

/-!
# The steps of a path

A path is cut at its slashes, and each piece stands for a step of a walk and for a
component. When a name is put below a directory, what comes before the name depends on the
directory only: the path of the directory gives the front of the pieces, and the name is
the last one (`EntryProbe.Path.pieces_join`). All that is known about the paths of the
entries of a directory follows from that:

* `EntryProbe.Path.steps_join_piece` – the name is one more step;
* `EntryProbe.Path.components_join` – the name is one more component;
* `EntryProbe.Path.exists_absolute?` – the path from the root takes the same steps, from the
  root to the current directory and on, except for those that stay where they are.
-/

namespace EntryProbe.Path

/-! ### Pieces -/

@[simp] theorem pieces_ne_nil (text : List Char) : pieces text ≠ [] := by
  cases text with
  | nil => simp [pieces]
  | cons c rest =>
    simp only [pieces]
    split
    · simp
    · split <;> simp

/-- A slash divides a text into pieces. -/
theorem pieces_append_slash (text rest : List Char) :
    pieces (text ++ '/' :: rest) = pieces text ++ pieces rest := by
  induction text with
  | nil => simp [pieces]
  | cons c text ih =>
    simp only [List.cons_append, pieces]
    split
    · rw [ih, List.cons_append]
    · rw [ih]
      obtain ⟨first, others, hpieces⟩ := List.exists_cons_of_ne_nil (pieces_ne_nil text)
      simp only [hpieces, List.cons_append]

theorem pieces_of_no_slash {text : List Char} (h : '/' ∉ text) : pieces text = [text] := by
  induction text with
  | nil => rfl
  | cons c text ih =>
    simp only [List.mem_cons, not_or] at h
    rw [pieces, if_neg (Ne.symm h.1), ih h.2]

theorem no_slash_of_mem_pieces {text piece : List Char} (h : piece ∈ pieces text) :
    '/' ∉ piece := by
  induction text generalizing piece with
  | nil => simp_all [pieces]
  | cons c text ih =>
    simp only [pieces] at h
    split at h
    · rcases List.mem_cons.mp h with rfl | h
      · simp
      · exact ih h
    · next hc =>
      obtain ⟨first, others, hpieces⟩ := List.exists_cons_of_ne_nil (pieces_ne_nil text)
      rw [hpieces] at h ih
      rcases List.mem_cons.mp h with rfl | h
      · have hfirst : '/' ∉ first := ih List.mem_cons_self
        simp [hfirst, Ne.symm hc]
      · exact ih (List.mem_cons_of_mem _ h)

/-- **A piece**: a text without a slash that is not empty. -/
structure IsPiece (text : String) : Prop where
  /-- There is no slash in it. -/
  no_slash : '/' ∉ text.toList
  /-- It is not empty. -/
  ne_nil : text.toList ≠ []

/-- **A name**: a piece that stands for an entry, and is not a dot or two dots. -/
structure IsName (name : String) : Prop extends IsPiece name where
  /-- It stands for an entry. -/
  stepOf?_eq : stepOf? name.toList = some (.name name)

theorem isPiece_up : IsPiece ".." := ⟨by decide, by decide⟩

theorem IsPiece.not_isAbsolute {text : String} (h : IsPiece text) :
    (⟨text⟩ : Path).isAbsolute = false := by
  simp only [isAbsolute, beq_eq_false_iff_ne, ne_eq]
  intro hhead
  exact h.no_slash (List.mem_of_head? hhead)

/-- What a piece stands for, as a step and as a component. -/
theorem innerComponent?_cases {piece : List Char} (hslash : '/' ∉ piece) :
    (innerComponent? piece = none ∧ (stepOf? piece = none ∨ stepOf? piece = some .here)) ∨
    (innerComponent? piece = some .up ∧ stepOf? piece = some .up) ∨
    ∃ name, IsName name ∧ innerComponent? piece = some (.name name) ∧
      stepOf? piece = some (.name name) := by
  by_cases hnil : piece = []
  · exact .inl (by simp [innerComponent?, stepOf?, hnil])
  by_cases hdot : piece = ['.']
  · exact .inl (by simp [innerComponent?, stepOf?, hdot])
  by_cases hup : piece = ['.', '.']
  · exact .inr (.inl (by simp [innerComponent?, stepOf?, hup]))
  · have hstep : stepOf? piece = some (.name (String.ofList piece)) := by
      simp [stepOf?, hnil, hdot, hup]
    refine .inr (.inr ⟨String.ofList piece, ⟨⟨by simpa, by simpa⟩, by simpa⟩, ?_, hstep⟩)
    simp [innerComponent?, hnil, hdot, hup]

theorem IsName.innerComponent?_eq {name : String} (h : IsName name) :
    innerComponent? name.toList = some (.name name) := by
  have hstep := h.stepOf?_eq
  rcases innerComponent?_cases h.no_slash with ⟨-, hnone | hhere⟩ | ⟨-, hup⟩ | ⟨_, -, hinner, hname⟩
  · rw [hnone] at hstep
    cases hstep
  · rw [hhere] at hstep
    cases hstep
  · rw [hup] at hstep
    cases hstep
  · rw [hname] at hstep
    cases hstep
    exact hinner

/-! ### Steps and components -/

/-- The steps of a path that other steps follow. -/
def leadingSteps (path : Path) : List Step :=
  (pieces path.text.toList).filterMap stepOf?

/-- The steps of a path are the same if no others follow, but for a slash at the end. -/
theorem steps_eq_or (path : Path) :
    path.steps = path.leadingSteps ∨ path.steps = path.leadingSteps ++ [.here] := by
  have hpieces := List.dropLast_concat_getLast (pieces_ne_nil path.text.toList)
  generalize (pieces path.text.toList).getLast (pieces_ne_nil _) = last at hpieces
  rw [steps, leadingSteps, ← hpieces]
  cases hstep : stepOf? last with
  | none => simp [hstep]
  | some step => simp [hstep]

/-- A slash at the end is a step that stays. -/
theorem filter_steps (path : Path) :
    path.steps.filter (· != .here) = path.leadingSteps.filter (· != .here) := by
  rcases path.steps_eq_or with h | h <;> simp [h]

/-- A path that ends in a name takes a step to it, behind those to its directory. -/
theorem steps_of_ending {path : Path} {before : List Step} {name : String}
    (h : path.ending = .name before name false) : path.steps = before ++ [.name name] := by
  obtain ⟨last, front, hpieces⟩ : ∃ last front, pieces path.text.toList = front ++ [last] :=
    ⟨_, _, (List.dropLast_concat_getLast (pieces_ne_nil _)).symm⟩
  simp only [ending, hpieces, List.reverse_append, List.reverse_singleton, List.singleton_append,
    List.head?_cons] at h
  have hlast : last ≠ [] := by
    -- a slash at the end would be told
    rintro rfl
    split at h
    · simp at h
    · split at h <;> simp at h
  rw [List.dropWhile_cons_of_neg (by simp [hlast])] at h
  rcases hstep : stepOf? last with _ | _ | _ | text <;> simp only [hstep, reduceCtorEq] at h
  injection h with hbefore hname
  rw [List.reverse_reverse] at hbefore
  simp [steps, hpieces, hstep, hbefore, hname]

/-- A path ends in a name, or its last step leads to a directory. -/
theorem steps_cases (path : Path) :
    (∃ before name, path.ending = .name before name false ∧ path.steps = before ++ [.name name]) ∨
      ∃ before step, path.steps = before ++ [step] ∧ (step = .here ∨ step = .up) := by
  obtain ⟨last, front, hpieces⟩ : ∃ last front, pieces path.text.toList = front ++ [last] :=
    ⟨_, _, (List.dropLast_concat_getLast (pieces_ne_nil _)).symm⟩
  rcases hstep : stepOf? last with _ | _ | _ | name
  · exact .inr ⟨front.filterMap stepOf?, .here, by simp [steps, hpieces, hstep], .inl rfl⟩
  · exact .inr ⟨front.filterMap stepOf?, .here, by simp [steps, hpieces, hstep], .inl rfl⟩
  · exact .inr ⟨front.filterMap stepOf?, .up, by simp [steps, hpieces, hstep], .inr rfl⟩
  · have hlast : last ≠ [] := by
      rintro rfl
      cases hstep
    refine .inl ⟨front.filterMap stepOf?, name, ?_, by simp [steps, hpieces, hstep]⟩
    simp [ending, hpieces, hstep, hlast]

/-- The step that a component stands for. -/
def Component.step? : Component → Option Step
  | .root => none
  | .here => some .here
  | .up => some .up
  | .name text => some (.name text)

/-- A component that stands for a step of its own, and is written as one piece. -/
inductive Component.IsMove : Component → Prop
  | up : IsMove .up
  | name {text : String} : IsName text → IsMove (.name text)

theorem Component.IsMove.isPiece {component : Component} (h : component.IsMove) :
    IsPiece component.text := by
  cases h with
  | up => exact isPiece_up
  | name hname => exact hname.toIsPiece

theorem Component.IsMove.stepOf?_eq {component : Component} (h : component.IsMove) :
    stepOf? component.text.toList = component.step? := by
  cases h with
  | up => decide
  | name hname => exact hname.stepOf?_eq

theorem Component.IsMove.innerComponent?_eq {component : Component} (h : component.IsMove) :
    innerComponent? component.text.toList = some component := by
  rcases h with _ | hname
  · decide
  · exact hname.innerComponent?_eq

/-- The components of pieces are the steps of those pieces that do not stay. -/
theorem filterMap_innerComponent? {pieces : List (List Char)} (h : ∀ piece ∈ pieces, '/' ∉ piece) :
    (∀ component ∈ pieces.filterMap innerComponent?, component.IsMove) ∧
      (pieces.filterMap innerComponent?).filterMap Component.step? =
        (pieces.filterMap stepOf?).filter (· != .here) := by
  induction pieces with
  | nil => exact ⟨nofun, rfl⟩
  | cons piece pieces ih =>
    obtain ⟨hmoves, hsteps⟩ := ih fun piece hmem => h piece (List.mem_cons_of_mem _ hmem)
    rcases innerComponent?_cases (h piece List.mem_cons_self) with
      ⟨hinner, hstep | hstep⟩ | ⟨hinner, hstep⟩ | ⟨name, hname, hinner, hstep⟩
    · simp only [List.filterMap_cons, hinner, hstep]
      exact ⟨hmoves, hsteps⟩
    · simp only [List.filterMap_cons, hinner, hstep]
      exact ⟨hmoves, hsteps⟩
    · simp only [List.filterMap_cons, hinner, hstep, Component.step?]
      exact ⟨List.forall_mem_cons.mpr ⟨.up, hmoves⟩, congrArg _ hsteps⟩
    · simp only [List.filterMap_cons, hinner, hstep, Component.step?]
      exact ⟨List.forall_mem_cons.mpr ⟨.name hname, hmoves⟩, congrArg _ hsteps⟩

theorem filter_of_forall_isMove {components : List Component}
    (h : ∀ component ∈ components, component.IsMove) :
    components.filter (· != .here) = components ∧ components.filter (· != .root) = components := by
  constructor
  · refine List.filter_eq_self.mpr fun component hmem => ?_
    cases h component hmem <;> rfl
  · refine List.filter_eq_self.mpr fun component hmem => ?_
    cases h component hmem <;> rfl

/-- The components that move, which are those of all pieces. -/
def moves (path : Path) : List Component :=
  (pieces path.text.toList).filterMap innerComponent?

theorem isMove_of_mem_moves {path : Path} {component : Component} (h : component ∈ path.moves) :
    component.IsMove :=
  (filterMap_innerComponent? fun _ => no_slash_of_mem_pieces).1 component h

/-- The components of a path without its dots: the root, if it is absolute, and moves. -/
theorem components_filter (path : Path) :
    path.components.filter (· != .here) =
      (if path.isAbsolute then [.root] else []) ++ path.moves := by
  obtain ⟨first, rest, hpieces⟩ := List.exists_cons_of_ne_nil (pieces_ne_nil path.text.toList)
  have hslash : ∀ piece ∈ first :: rest, '/' ∉ piece := by
    rw [← hpieces]
    exact fun piece => no_slash_of_mem_pieces
  have hrest := (filter_of_forall_isMove (filterMap_innerComponent?
    fun piece hmem => hslash piece (List.mem_cons_of_mem _ hmem)).1).1
  rw [components, moves, hpieces]
  simp only [List.filter_append, hrest]
  by_cases habsolute : path.isAbsolute = true
  · -- the piece in front of the slash at the start is empty
    have hfirst : first = [] := by
      obtain ⟨text, htext⟩ := List.head?_eq_some_iff.mp (by simpa [isAbsolute] using habsolute)
      rw [htext, pieces, if_pos rfl] at hpieces
      exact (List.cons.inj hpieces).1.symm
    simp [habsolute, hfirst, innerComponent?]
  · simp only [habsolute, firstComponent?]
    by_cases hdot : first = ['.']
    · simp [hdot, innerComponent?]
    · rcases innerComponent?_cases (hslash first List.mem_cons_self) with
        ⟨hinner, -⟩ | ⟨hinner, -⟩ | ⟨name, -, hinner, -⟩
      · simp [hdot, hinner]
      · simp [hdot, hinner]
      · simp [hdot, hinner]

/-- The last component of a path is a name. -/
theorem isName_of_fileName? {path : Path} {name : String} (h : path.fileName? = some name) :
    IsName name := by
  have hmem : .name name ∈ path.components.filter (· != .here) := by
    simp only [fileName?] at h
    split at h
    · next text hlast =>
      cases h
      exact List.mem_filter.mpr ⟨List.mem_of_getLast? hlast, rfl⟩
    · cases h
  rw [components_filter] at hmem
  rcases List.mem_append.mp hmem with hmem | hmem
  · split at hmem <;> simp at hmem
  · cases isMove_of_mem_moves hmem with
    | name hname => exact hname

/-- The components of pieces, the first of which starts a path. -/
def componentsOf (absolute : Bool) : List (List Char) → List Component
  | [] => []
  | first :: rest =>
    (if absolute then [.root] else (firstComponent? first).toList) ++ rest.filterMap innerComponent?

theorem components_eq (path : Path) :
    path.components = componentsOf path.isAbsolute (pieces path.text.toList) := by
  rw [components]
  cases pieces path.text.toList <;> rfl

theorem componentsOf_concat {front : List (List Char)} (hne : front ≠ []) (absolute : Bool)
    (piece : List Char) :
    componentsOf absolute (front ++ [piece]) =
      componentsOf absolute front ++ (innerComponent? piece).toList := by
  obtain ⟨first, rest, rfl⟩ := List.exists_cons_of_ne_nil hne
  cases hpiece : innerComponent? piece <;> simp [componentsOf, hpiece]

/-- A path that ends in a name has this name. -/
theorem fileName?_of_ending {path : Path} {before : List Step} {name : String}
    (h : path.ending = .name before name false) : path.fileName? = some name := by
  obtain ⟨last, front, hpieces⟩ : ∃ last front, pieces path.text.toList = front ++ [last] :=
    ⟨_, _, (List.dropLast_concat_getLast (pieces_ne_nil _)).symm⟩
  have hslash : '/' ∉ last := by
    refine @no_slash_of_mem_pieces path.text.toList _ ?_
    simp [hpieces]
  have hsteps := steps_of_ending h
  simp only [steps, hpieces, List.dropLast_concat, List.getLast?_concat, Option.map_some,
    Option.toList_some] at hsteps
  obtain ⟨-, hlast⟩ := List.append_inj' hsteps rfl
  obtain ⟨hinner, hdot⟩ : innerComponent? last = some (.name name) ∧ last ≠ ['.'] := by
    rcases innerComponent?_cases hslash with ⟨-, hnone | hhere⟩ | ⟨-, hup⟩ | ⟨_, -, hinner, hname⟩
    · simp [hnone] at hlast
    · simp [hhere] at hlast
    · simp [hup] at hlast
    · refine ⟨by simpa [hname, hinner] using hlast, ?_⟩
      rintro rfl
      cases hname
  have hcomponents : ∃ others, path.components = others ++ [.name name] := by
    rw [components_eq, hpieces]
    by_cases hfront : front = []
    · subst hfront
      have habsolute : path.isAbsolute = false := by
        rw [Bool.eq_false_iff]
        intro habsolute
        obtain ⟨text, htext⟩ := List.head?_eq_some_iff.mp (by simpa [isAbsolute] using habsolute)
        rw [htext, pieces, if_pos rfl] at hpieces
        exact pieces_ne_nil text (List.cons.inj hpieces).2
      exact ⟨[], by simp [componentsOf, habsolute, firstComponent?, hdot, hinner]⟩
    · exact ⟨_, by rw [componentsOf_concat hfront, hinner]; rfl⟩
  obtain ⟨others, hothers⟩ := hcomponents
  simp [fileName?, hothers]

section

variable {dir : Path}

/-- **A piece put below a directory** is the last piece. The pieces in front of it depend on
the directory only: they are its own, but for the empty one behind a slash at the end. -/
theorem pieces_join (hdir : dir.text.isEmpty = false) :
    ∃ front, front ≠ [] ∧ front.filterMap stepOf? = dir.leadingSteps ∧
      componentsOf dir.isAbsolute front = dir.components ∧
      ∀ text, IsPiece text → pieces (dir.join ⟨text⟩).text.toList = front ++ [text.toList] := by
  by_cases hslash : dir.text.toList.getLast? = some '/'
  · obtain ⟨front, hfront⟩ := List.getLast?_eq_some_iff.mp hslash
    have hpieces : pieces dir.text.toList = pieces front ++ [[]] := by
      rw [hfront, pieces_append_slash]
      rfl
    refine ⟨pieces front, pieces_ne_nil _, ?_, ?_, ?_⟩
    · rw [leadingSteps, hpieces, List.filterMap_append]
      simp [stepOf?]
    · rw [components_eq, hpieces, componentsOf_concat (pieces_ne_nil _)]
      simp [innerComponent?]
    · intro text htext
      rw [join, if_neg (by simp [htext.not_isAbsolute]), if_pos (.inr hslash),
        String.toList_append, hfront, List.append_assoc, List.singleton_append,
        pieces_append_slash, pieces_of_no_slash htext.no_slash]
  · refine ⟨pieces dir.text.toList, pieces_ne_nil _, rfl, (components_eq dir).symm, ?_⟩
    intro text htext
    have hjoined : (dir.text ++ "/" ++ text).toList = dir.text.toList ++ '/' :: text.toList := by
      simp
    rw [join, if_neg (by simp [htext.not_isAbsolute]), if_neg (by simp [hdir, hslash]), hjoined,
      pieces_append_slash, pieces_of_no_slash htext.no_slash]

variable {text name : String}

theorem head?_join (hdir : dir.text.isEmpty = false) (htext : IsPiece text) :
    (dir.join ⟨text⟩).text.toList.head? = dir.text.toList.head? := by
  have hne : dir.text.toList ≠ [] := by simpa using hdir
  obtain ⟨c, rest, hchars⟩ := List.exists_cons_of_ne_nil hne
  rw [join, if_neg (by simp [htext.not_isAbsolute])]
  split <;> simp [hchars]

theorem isAbsolute_join (hdir : dir.text.isEmpty = false) (htext : IsPiece text) :
    (dir.join ⟨text⟩).isAbsolute = dir.isAbsolute := by
  rw [isAbsolute, isAbsolute, head?_join hdir htext]

theorem start_join (hdir : dir.text.isEmpty = false) (htext : IsPiece text) (cwd : Location) :
    (dir.join ⟨text⟩).start cwd = dir.start cwd := by
  rw [start, start, isAbsolute_join hdir htext]

theorem text_join_isEmpty (htext : IsPiece text) : (dir.join ⟨text⟩).text.isEmpty = false := by
  have hne := htext.ne_nil
  rw [join, if_neg (by simp [htext.not_isAbsolute])]
  split <;> simp_all

theorem leadingSteps_join (hdir : dir.text.isEmpty = false) (htext : IsPiece text) :
    (dir.join ⟨text⟩).leadingSteps = dir.leadingSteps ++ (stepOf? text.toList).toList := by
  obtain ⟨front, -, hfront, -, hpieces⟩ := pieces_join hdir
  rw [leadingSteps, hpieces text htext, List.filterMap_append, hfront]
  cases hstep : stepOf? text.toList <;> simp [hstep]

/-- **A name below a directory is one more step**, and so is any other piece that is one. -/
theorem steps_join_piece (hdir : dir.text.isEmpty = false) (htext : IsPiece text) {step : Step}
    (hstep : stepOf? text.toList = some step) :
    (dir.join ⟨text⟩).steps = dir.leadingSteps ++ [step] := by
  obtain ⟨front, -, hfront, -, hpieces⟩ := pieces_join hdir
  simp [steps, hpieces text htext, hfront, hstep]

theorem ending_join (hdir : dir.text.isEmpty = false) (hname : IsName name) :
    (dir.join ⟨name⟩).ending = .name dir.leadingSteps name false := by
  obtain ⟨front, -, hfront, -, hpieces⟩ := pieces_join hdir
  have hne : name.toList.isEmpty = false := by simpa using hname.ne_nil
  simp [ending, hpieces name hname.toIsPiece, hfront, hname.stepOf?_eq, hne]

theorem components_join_piece (hdir : dir.text.isEmpty = false) (htext : IsPiece text) :
    (dir.join ⟨text⟩).components = dir.components ++ (innerComponent? text.toList).toList := by
  obtain ⟨front, hne, -, hfront, hpieces⟩ := pieces_join hdir
  rw [components_eq, hpieces text htext, isAbsolute_join hdir htext, componentsOf_concat hne,
    hfront]

/-- **A name below a directory is one more component.** -/
theorem components_join (hdir : dir.text.isEmpty = false) (hname : IsName name) :
    (dir.join ⟨name⟩).components = dir.components ++ [.name name] := by
  rw [components_join_piece hdir hname.toIsPiece, hname.innerComponent?_eq]
  rfl

/-- **A name below a directory is one more move.** -/
theorem moves_join (hdir : dir.text.isEmpty = false) (hname : IsName name) :
    (dir.join ⟨name⟩).moves = dir.moves ++ [.name name] := by
  have hfilter := (dir.join ⟨name⟩).components_filter
  have hone : [Component.name name].filter (· != .here) = [.name name] := rfl
  rw [components_join hdir hname, List.filter_append, components_filter,
    isAbsolute_join hdir hname.toIsPiece, List.append_assoc, hone] at hfilter
  exact (List.append_cancel_left hfilter).symm

theorem fileName?_join (hdir : dir.text.isEmpty = false) (hname : IsName name) :
    (dir.join ⟨name⟩).fileName? = some name := by
  simp [fileName?, components_join hdir hname]

/-! ### Paths from the root -/

/-- A slash at the end asks for a directory, and changes nothing else. -/
theorem join_slash (hdir : dir.text.isEmpty = false) :
    (dir.join ⟨""⟩).text.isEmpty = false ∧ (dir.join ⟨""⟩).isAbsolute = dir.isAbsolute ∧
      (dir.join ⟨""⟩).leadingSteps = dir.leadingSteps ∧
      (dir.join ⟨""⟩).components = dir.components := by
  have hnone : (⟨""⟩ : Path).isAbsolute = false := by decide
  by_cases hslash : dir.text.toList.getLast? = some '/'
  · rw [join, if_neg (by simp [hnone]), if_pos (.inr hslash)]
    simp [hdir]
  · have hne : dir.text.toList ≠ [] := by simpa using hdir
    obtain ⟨c, rest, hchars⟩ := List.exists_cons_of_ne_nil hne
    have hpieces : pieces (dir.join ⟨""⟩).text.toList = pieces dir.text.toList ++ [[]] := by
      rw [join, if_neg (by simp [hnone]), if_neg (by simp [hdir, hslash])]
      simpa [pieces] using pieces_append_slash dir.text.toList []
    have habsolute : (dir.join ⟨""⟩).isAbsolute = dir.isAbsolute := by
      rw [join, if_neg (by simp [hnone]), if_neg (by simp [hdir, hslash])]
      simp [isAbsolute, hchars]
    refine ⟨?_, habsolute, ?_, ?_⟩
    · rw [join, if_neg (by simp [hnone]), if_neg (by simp [hdir, hslash])]
      simp
    · rw [leadingSteps, hpieces, List.filterMap_append]
      simp [leadingSteps, stepOf?]
    · rw [components_eq, hpieces, habsolute, componentsOf_concat (pieces_ne_nil _), components_eq]
      simp [innerComponent?]

/-- **A path put together from moves.** The moves are its last steps and components. -/
theorem ofComponents_moves {components : List Component} (hdir : dir.text.isEmpty = false)
    (h : ∀ component ∈ components, component.IsMove) :
    (ofComponents dir components).text.isEmpty = false ∧
      (ofComponents dir components).isAbsolute = dir.isAbsolute ∧
      (ofComponents dir components).leadingSteps =
        dir.leadingSteps ++ components.filterMap Component.step? ∧
      (ofComponents dir components).components = dir.components ++ components ∧
      (components ≠ [] →
        (ofComponents dir components).steps = (ofComponents dir components).leadingSteps) := by
  induction components generalizing dir with
  | nil => simpa [ofComponents] using hdir
  | cons component components ih =>
    obtain ⟨hmove, hmoves⟩ := List.forall_mem_cons.mp h
    obtain ⟨htext, habsolute, hsteps, hcomponents, hlast⟩ :=
      ih (text_join_isEmpty hmove.isPiece) hmoves
    have hleading := leadingSteps_join hdir hmove.isPiece
    rw [hmove.stepOf?_eq] at hleading
    refine ⟨htext, ?_, ?_, ?_, fun _ => ?_⟩
    · exact habsolute.trans (isAbsolute_join hdir hmove.isPiece)
    · refine hsteps.trans ?_
      rw [hleading]
      rcases hmove with _ | _ <;> simp [Component.step?]
    · refine hcomponents.trans ?_
      rw [components_join_piece hdir hmove.isPiece, hmove.innerComponent?_eq, List.append_assoc]
      rfl
    · by_cases hnil : components = []
      · subst hnil
        obtain ⟨step, hstep⟩ : ∃ step, component.step? = some step := by
          rcases hmove with _ | _ <;> exact ⟨_, rfl⟩
        change (dir.join ⟨component.text⟩).steps = (dir.join ⟨component.text⟩).leadingSteps
        rw [steps_join_piece hdir hmove.isPiece (hmove.stepOf?_eq.trans hstep), hleading, hstep]
        rfl
      · exact hlast hnil

theorem ofComponents_root (components : List Component) :
    ofComponents ⟨""⟩ (.root :: components) = ofComponents ⟨"/"⟩ components := rfl

/-- The path of a location has its names for steps and components. -/
theorem path_place {place : Location} (h : ∀ name ∈ place, IsName name) :
    place.path.text.isEmpty = false ∧ place.path.isAbsolute = true ∧
      place.path.leadingSteps = place.map .name ∧
      place.path.components = .root :: place.map .name := by
  have hmoves : ∀ component ∈ place.map Component.name, component.IsMove := by
    intro component hmem
    obtain ⟨name, hname, rfl⟩ := List.mem_map.mp hmem
    exact .name (h name hname)
  have hroot : (⟨"/"⟩ : Path).text.isEmpty = false := by decide
  obtain ⟨htext, habsolute, hsteps, hcomponents, -⟩ := ofComponents_moves hroot hmoves
  refine ⟨htext, habsolute, hsteps.trans ?_, hcomponents⟩
  simp [leadingSteps, pieces, stepOf?, List.filterMap_map, Function.comp_def, Component.step?]

end

/-- The components of a path as seen from the root. -/
def fromRoot (cwd : Location) (path : Path) : List Component :=
  .root :: ((if path.isAbsolute then [] else cwd.map .name) ++ path.moves)

/-- A slash at the end is a step of its own. -/
theorem steps_of_slash {path : Path} (h : path.text.toList.getLast? = some '/') :
    path.steps = path.leadingSteps ++ [.here] := by
  obtain ⟨front, hfront⟩ := List.getLast?_eq_some_iff.mp h
  have hpieces : pieces path.text.toList = pieces front ++ [[]] := by
    rw [hfront, pieces_append_slash]
    rfl
  simp [steps, leadingSteps, hpieces, stepOf?]

theorem filterMap_moves (path : Path) :
    path.moves.filterMap Component.step? = path.leadingSteps.filter (· != .here) :=
  (filterMap_innerComponent? fun _ => no_slash_of_mem_pieces).2

/-- The path from the root is put together from a directory and the moves of the path. The
directory is the root, in one of two spellings, or the current directory. -/
theorem exists_base {cwd : Location} {path : Path} (hcwd : ∀ name ∈ cwd, IsName name)
    (hpath : path.text.isEmpty = false) :
    ∃ dir : Path, dir.text.isEmpty = false ∧ dir.isAbsolute = true ∧
      dir.leadingSteps = (if path.isAbsolute then [] else cwd.map .name) ∧
      dir.components = .root :: (if path.isAbsolute then [] else cwd.map .name) ∧
      absolute? cwd.path path = some (if path.text.toList.getLast? = some '/' then
        (ofComponents dir path.moves).join ⟨""⟩ else ofComponents dir path.moves) := by
  have hfilter : (Component.root :: path.moves).filter (· != .root) = path.moves :=
    (filter_of_forall_isMove fun _ => isMove_of_mem_moves).2
  simp only [absolute?, hpath, Bool.false_eq_true, if_false, components_filter]
  generalize hbase : (ite (path.isAbsolute = true) _ (ofComponents cwd.path _) : Path) = base
  suffices h : ∃ dir : Path, dir.text.isEmpty = false ∧ dir.isAbsolute = true ∧
      dir.leadingSteps = (if path.isAbsolute then [] else cwd.map .name) ∧
      dir.components = .root :: (if path.isAbsolute then [] else cwd.map .name) ∧
      base = ofComponents dir path.moves by
    obtain ⟨dir, htext, habsolute, hsteps, hcomponents, rfl⟩ := h
    exact ⟨dir, htext, habsolute, hsteps, hcomponents, rfl⟩
  by_cases habsolute : path.isAbsolute = true
  · simp only [habsolute, if_true, List.singleton_append, hfilter, ofComponents_root] at hbase ⊢
    have hroot : ∃ dir : Path, dir.text.isEmpty = false ∧ dir.isAbsolute = true ∧
        dir.leadingSteps = [] ∧ dir.components = [.root] ∧
        ofComponents ⟨"/"⟩ path.moves = ofComponents dir path.moves :=
      ⟨⟨"/"⟩, by decide, by decide, by decide, by decide, rfl⟩
    subst hbase
    split
    · split
      · exact hroot
      · exact ⟨⟨"//"⟩, by decide, by decide, by decide, by decide, rfl⟩
    · exact hroot
  · simp only [habsolute, Bool.false_eq_true, if_false, List.nil_append] at hbase ⊢
    obtain ⟨htext, habsolute', hsteps, hcomponents⟩ := path_place hcwd
    exact ⟨cwd.path, htext, habsolute', hsteps, hcomponents, hbase.symm⟩

/-- **The path from the root** takes the same steps, from the root to the current directory and
on, except for those that stay where they are. It stays at its end only if the path does so
too, or if there is no move in the path at all. -/
theorem exists_absolute? {cwd : Location} {path : Path} (hcwd : ∀ name ∈ cwd, IsName name)
    (hpath : path.text.isEmpty = false) :
    ∃ absolute, absolute? cwd.path path = some absolute ∧ absolute.text.isEmpty = false ∧
      absolute.isAbsolute = true ∧ absolute.components = path.fromRoot cwd ∧
      absolute.leadingSteps = (if path.isAbsolute then [] else cwd.map .name) ++
        path.leadingSteps.filter (· != .here) ∧
      (absolute.steps = absolute.leadingSteps ∨ path.steps = path.leadingSteps ++ [.here] ∨
        path.moves = []) := by
  obtain ⟨dir, htext, habsolute, hdir, hdirComponents, heq⟩ := exists_base hcwd hpath
  obtain ⟨htext', habsolute', hsteps, hcomponents, hlast⟩ :=
    ofComponents_moves htext fun _ => @isMove_of_mem_moves path _
  rw [hdir, filterMap_moves] at hsteps
  rw [hdirComponents] at hcomponents
  refine ⟨_, heq, ?_⟩
  split
  · next hslash =>
    obtain ⟨hslashText, hslashAbsolute, hslashSteps, hslashComponents⟩ := join_slash htext'
    exact ⟨hslashText, hslashAbsolute.trans (habsolute'.trans habsolute),
      hslashComponents.trans hcomponents, hslashSteps.trans hsteps,
      .inr (.inl (steps_of_slash hslash))⟩
  · refine ⟨htext', habsolute'.trans habsolute, hcomponents, hsteps, ?_⟩
    by_cases hnil : path.moves = []
    · exact .inr (.inr hnil)
    · exact .inl (hlast hnil)

/-- The components of a path from the root, if it is not empty. -/
def rooted? (cwd : Location) (path : Path) : Option (List Component) :=
  (absolute? cwd.path path).map components

theorem rooted?_eq {cwd : Location} {path : Path} (hcwd : ∀ name ∈ cwd, IsName name)
    (hpath : path.text.isEmpty = false) : path.rooted? cwd = some (path.fromRoot cwd) := by
  obtain ⟨absolute, heq, -, -, hcomponents, -⟩ := exists_absolute? hcwd hpath
  rw [rooted?, heq, Option.map_some, hcomponents]

/-- The path from the root is seen from there as it is. -/
theorem rooted?_absolute {cwd : Location} {path absolute : Path} (hcwd : ∀ name ∈ cwd, IsName name)
    (h : absolute? cwd.path path = some absolute) : absolute.rooted? cwd = path.rooted? cwd := by
  have hpath : path.text.isEmpty = false := by
    rw [Bool.eq_false_iff]
    intro hempty
    simp [absolute?, hempty] at h
  obtain ⟨absolute', heq, htext, habsolute, hcomponents, -⟩ := exists_absolute? hcwd hpath
  rw [h] at heq
  cases heq
  have hfilter := absolute.components_filter
  have hnone : (path.fromRoot cwd).filter (· != .here) = path.fromRoot cwd := by
    rw [List.filter_eq_self]
    intro component hmem
    have hcases : component = .root ∨ (∃ name, component = .name name) ∨ component.IsMove := by
      simp only [fromRoot, List.mem_cons, List.mem_append] at hmem
      rcases hmem with rfl | hmem | hmem
      · exact .inl rfl
      · split at hmem
        · cases hmem
        · obtain ⟨name, -, rfl⟩ := List.mem_map.mp hmem
          exact .inr (.inl ⟨name, rfl⟩)
      · exact .inr (.inr (isMove_of_mem_moves hmem))
    rcases hcases with rfl | ⟨name, rfl⟩ | _ | _ <;> rfl
  rw [hcomponents, hnone, habsolute, if_pos rfl] at hfilter
  rw [rooted?_eq hcwd htext, rooted?_eq hcwd hpath, hfilter, fromRoot, habsolute]
  rfl

end EntryProbe.Path
