import EntryProbe.Build.Sources
import EntryProbe.Proofs.PathSteps
import Mathlib.Data.List.DropRight

/-!
# The directory that a path is in

The parent of a path is the text up to its last component but one. Between the two, and at
the end, there can be pieces that say nothing, so that the steps of a path are those of its
parent, then one more, and besides only steps that stay (`EntryProbe.Path.exists_of_parent?`).
If the path has a name, this one step goes to it (`EntryProbe.Path.exists_parent?`).

Directories are compared when they are cleaned, which keeps the moves and forgets the steps
that stay (`EntryProbe.Build.moves_eq_of_cleanDir`). They are the same then exactly if their
components are, dots apart (`EntryProbe.Build.cleanDir_eq_iff`).
-/

namespace EntryProbe

namespace Path

/-! ### Pieces put together -/

/-- Pieces that are put together are taken apart again. -/
theorem pieces_unpieces {list : List (List Char)} (hne : list ≠ [])
    (h : ∀ piece ∈ list, '/' ∉ piece) : pieces (unpieces list) = list := by
  induction list with
  | nil => exact absurd rfl hne
  | cons piece rest ih =>
    obtain ⟨hpiece, hrest⟩ := List.forall_mem_cons.mp h
    rcases rest with _ | ⟨next, rest⟩
    · rw [unpieces, pieces_of_no_slash hpiece]
    · rw [unpieces, pieces_append_slash, pieces_of_no_slash hpiece, ih (by simp) hrest]
      · rfl
      · simp

/-- The pieces that are trimmed stand for no component, and the last one that is left stands
for one. -/
theorem exists_trimmed (rest : List (List Char)) :
    ∃ blank, rest = trimPieces rest ++ blank ∧ (∀ piece ∈ blank, innerComponent? piece = none) ∧
      ∀ front last, trimPieces rest = front ++ [last] → innerComponent? last ≠ none := by
  have htrim : trimPieces rest = rest.rdropWhile fun piece => (innerComponent? piece).isNone := rfl
  refine ⟨rest.rtakeWhile fun piece => (innerComponent? piece).isNone, ?_, ?_, ?_⟩
  · rw [htrim, List.rdropWhile_append_rtakeWhile]
  · intro piece hmem
    simpa using List.mem_rtakeWhile_imp hmem
  · intro front last hsplit hnone
    have hlast := List.rdropWhile_last_not (fun piece => (innerComponent? piece).isNone) rest
      (by simp [← htrim, hsplit])
    simp [← htrim, hsplit, hnone] at hlast

/-- Pieces that stand for no component stand for steps that stay. -/
theorem eq_here_of_blank {blank : List (List Char)}
    (h : ∀ piece ∈ blank, innerComponent? piece = none) :
    ∀ step ∈ blank.filterMap stepOf?, step = .here := by
  intro step hmem
  obtain ⟨piece, hpiece, hstep⟩ := List.mem_filterMap.mp hmem
  have hnone := h piece hpiece
  unfold innerComponent? at hnone
  split at hnone
  · next hsilent =>
    rcases hsilent with rfl | rfl
    · cases hstep
    · simpa [stepOf?] using hstep.symm
  · split at hnone <;> cases hnone

/-- A piece that is not empty is a step. -/
theorem exists_stepOf? {piece : List Char} (h : piece ≠ []) :
    ∃ step, stepOf? piece = some step := by
  unfold stepOf?
  rw [if_neg h]
  split
  · exact ⟨_, rfl⟩
  · split <;> exact ⟨_, rfl⟩

/-- A piece that stands for a component is a step that moves on. -/
theorem exists_move {piece : List Char} (hslash : '/' ∉ piece) (h : innerComponent? piece ≠ none) :
    ∃ step, stepOf? piece = some step ∧ step ≠ .here := by
  rcases innerComponent?_cases hslash with ⟨hnone, -⟩ | ⟨-, hup⟩ | ⟨name, -, -, hname⟩
  · exact absurd hnone h
  · exact ⟨.up, hup, by simp⟩
  · exact ⟨.name name, hname, by simp⟩

theorem leadingSteps_eq {path : Path} {list : List (List Char)}
    (h : pieces path.text.toList = list) : path.leadingSteps = list.filterMap stepOf? := by
  rw [leadingSteps, h]

/-- A path that is not absolute has something in front of its first slash. -/
theorem first_eq_nil_iff {path : Path} {first : List Char} {rest : List (List Char)}
    (h : pieces path.text.toList = first :: rest) (hrest : rest ≠ []) :
    first = [] ↔ path.isAbsolute = true := by
  unfold isAbsolute
  rcases htext : path.text.toList with _ | ⟨c, text⟩ <;> rw [htext] at h
  · simp only [pieces, List.cons.injEq] at h
    exact absurd h.2.symm hrest
  · by_cases hc : c = '/'
    · rw [pieces, if_pos hc] at h
      simp [hc, (List.cons.inj h).1.symm]
    · rw [pieces, if_neg hc] at h
      have hfirst : first ≠ [] := by
        rintro rfl
        split at h <;> cases h
      simp [hc, hfirst]

/-- The first piece of a path, and others, put together: this is a path from the same start,
which takes the steps of the pieces and has their components. -/
theorem steps_of_unpieces {path : Path} {first : List Char} {rest shorter : List (List Char)}
    (h : pieces path.text.toList = first :: rest) (hrest : rest ≠ [])
    (hslash : ∀ piece ∈ shorter, '/' ∉ piece) :
    ∃ parent : Path, (if path.isAbsolute then
        some (⟨String.ofList ('/' :: unpieces shorter)⟩ : Path)
      else some ⟨String.ofList (unpieces (first :: shorter))⟩) = some parent ∧
      parent.isAbsolute = path.isAbsolute ∧
      parent.leadingSteps = (first :: shorter).filterMap stepOf? ∧
      parent.components = componentsOf path.isAbsolute (first :: shorter) := by
  have habsolute := first_eq_nil_iff h hrest
  by_cases hroot : path.isAbsolute = true
  · obtain rfl := habsolute.mpr hroot
    have hstart : (⟨String.ofList ('/' :: unpieces shorter)⟩ : Path).isAbsolute = true := by
      simp [isAbsolute]
    refine ⟨_, if_pos hroot, hstart.trans hroot.symm, ?_⟩
    rw [components_eq, hstart, hroot]
    by_cases hnil : shorter = []
    · subst hnil
      simp [leadingSteps, unpieces, pieces, stepOf?, componentsOf, innerComponent?]
    · have htext : pieces ('/' :: unpieces shorter) = [] :: shorter := by
        simp [pieces, pieces_unpieces hnil hslash]
      exact ⟨leadingSteps_eq (by simpa using htext), by simp [htext]⟩
  · have hfirst : first ≠ [] := fun hnil => hroot (habsolute.mp hnil)
    have hfirstSlash : '/' ∉ first := by
      refine @no_slash_of_mem_pieces path.text.toList _ ?_
      rw [h]
      exact List.mem_cons_self
    have htext : pieces (unpieces (first :: shorter)) = first :: shorter :=
      pieces_unpieces (List.cons_ne_nil _ _) (List.forall_mem_cons.mpr ⟨hfirstSlash, hslash⟩)
    have hstart : (⟨String.ofList (unpieces (first :: shorter))⟩ : Path).isAbsolute = false := by
      obtain ⟨c, others, rfl⟩ := List.exists_cons_of_ne_nil hfirst
      have hc : c ≠ '/' := fun hc => hfirstSlash (hc ▸ List.mem_cons_self)
      rcases shorter with _ | ⟨next, shorter⟩ <;> simp [isAbsolute, unpieces, hc]
    rw [Bool.not_eq_true] at hroot
    refine ⟨_, if_neg (by simp [hroot]), hstart.trans hroot.symm,
      leadingSteps_eq (by simpa using htext), ?_⟩
    rw [components_eq, hstart, hroot]
    simp [htext]

/-- **A path takes the steps of its parent and one more**, and stays otherwise. The one step
moves on unless the parent is the empty path. The components are those of the parent and the one
that the step goes to. -/
theorem exists_of_parent? {path parent : Path} (h : path.parent? = some parent) :
    parent.isAbsolute = path.isAbsolute ∧ ∃ stays step stays',
      path.leadingSteps = parent.leadingSteps ++ (stays ++ step :: stays') ∧
      (∀ other ∈ stays, other = .here) ∧ (∀ other ∈ stays', other = .here) ∧
      (step = .here → parent.text.isEmpty = true) ∧
      parent.components = path.components.dropLast := by
  obtain ⟨first, rest, hpieces⟩ := List.exists_cons_of_ne_nil (pieces_ne_nil path.text.toList)
  obtain ⟨blank, hrest, hblank, hlast⟩ := exists_trimmed rest
  simp only [parent?, hpieces] at h
  by_cases hinner : trimPieces rest = []
  · -- there is nothing behind the first piece
    rw [if_pos hinner] at h
    split at h
    · cases h
    next hfirst =>
    rw [not_or, Bool.not_eq_true] at hfirst
    cases h
    obtain ⟨step, hstep⟩ := exists_stepOf? hfirst.2
    rw [hinner, List.nil_append] at hrest
    refine ⟨by rw [hfirst.1]; rfl, [], step, blank.filterMap stepOf?, ?_,
      fun _ hmem => absurd hmem List.not_mem_nil, eq_here_of_blank hblank, fun _ => rfl, ?_⟩
    · rw [leadingSteps_eq hpieces, List.filterMap_cons, hstep, hrest]
      rfl
    · rw [components_eq path, hpieces, hrest, hfirst.1, componentsOf,
        List.filterMap_eq_nil_iff.mpr hblank]
      cases firstComponent? first <;> rfl
  · rw [if_neg hinner] at h
    obtain ⟨front, last, hsplit⟩ : ∃ front last, trimPieces rest = front ++ [last] :=
      ⟨_, _, (List.dropLast_concat_getLast hinner).symm⟩
    obtain ⟨blank', hfront, hblank', -⟩ := exists_trimmed front
    have hmoves := hlast front last hsplit
    rw [hsplit, List.dropLast_concat] at h
    rw [hsplit] at hrest
    generalize trimPieces front = shorter at hfront h
    have hslash : ∀ piece ∈ rest, '/' ∉ piece := by
      intro piece hmem
      refine @no_slash_of_mem_pieces path.text.toList _ ?_
      rw [hpieces]
      exact List.mem_cons_of_mem _ hmem
    obtain ⟨step, hstep, hmove⟩ := exists_move (hslash last (by simp [hrest])) hmoves
    -- the first piece and those that are left are the pieces of the parent
    have hshorter : ∀ piece ∈ shorter, '/' ∉ piece :=
      fun piece hmem => hslash piece (by simp [hrest, hfront, hmem])
    obtain ⟨parent', hparent', habsolute, hsteps, hcomponents⟩ :=
      steps_of_unpieces hpieces (by simp [hrest]) hshorter
    rw [hparent'] at h
    cases h
    have hall : first :: rest = (first :: shorter) ++ (blank' ++ [last] ++ blank) := by
      rw [hrest, hfront]
      simp
    refine ⟨habsolute, blank'.filterMap stepOf?, step, blank.filterMap stepOf?, ?_,
      eq_here_of_blank hblank', eq_here_of_blank hblank, fun hhere => absurd hhere hmove, ?_⟩
    · rw [leadingSteps_eq hpieces, hsteps, hall, List.filterMap_append]
      simp [List.filterMap_append, hstep]
    · obtain ⟨component, hcomponent⟩ := Option.ne_none_iff_exists'.mp hmoves
      rw [hcomponents, components_eq path, hpieces, hall, List.cons_append, componentsOf,
        componentsOf]
      simp [List.filterMap_append, List.filterMap_eq_nil_iff.mpr hblank,
        List.filterMap_eq_nil_iff.mpr hblank', hcomponent]

theorem Component.IsMove.components_eq {component : Component} (h : component.IsMove) :
    (⟨component.text⟩ : Path).components = [component] := by
  have hdot : component.text.toList ≠ ['.'] := by
    intro hdot
    have hinner := h.innerComponent?_eq
    rw [hdot] at hinner
    cases hinner
  rw [Path.components_eq, pieces_of_no_slash h.isPiece.no_slash, h.isPiece.not_isAbsolute]
  simp [componentsOf, firstComponent?, hdot, h.innerComponent?_eq]

/-- Moves are told apart by their steps. -/
theorem eq_of_filterMap_step? {components others : List Component}
    (h : ∀ component ∈ components, component.IsMove) (h' : ∀ component ∈ others, component.IsMove)
    (heq : components.filterMap Component.step? = others.filterMap Component.step?) :
    components = others := by
  have hsome : ∀ component : Component, component.IsMove →
      ∃ step, component.step? = some step ∧ ∀ other : Component, other.step? = some step →
        other = component := by
    rintro component (_ | _)
    · refine ⟨_, rfl, fun other hother => ?_⟩
      rcases other with _ | _ | _ | _ <;> simp_all [Component.step?]
    · refine ⟨_, rfl, fun other hother => ?_⟩
      rcases other with _ | _ | _ | _ <;> simp_all [Component.step?]
  induction components generalizing others with
  | nil =>
    rcases others with _ | ⟨other, others⟩
    · rfl
    · obtain ⟨step, hstep, -⟩ := hsome other (h' other List.mem_cons_self)
      rw [List.filterMap_nil, List.filterMap_cons, hstep] at heq
      cases heq
  | cons component components ih =>
    obtain ⟨hfirst, hrest⟩ := List.forall_mem_cons.mp h
    obtain ⟨step, hstep, hunique⟩ := hsome component hfirst
    rcases others with _ | ⟨other, others⟩
    · rw [List.filterMap_nil, List.filterMap_cons, hstep] at heq
      cases heq
    · obtain ⟨hfirst', hrest'⟩ := List.forall_mem_cons.mp h'
      obtain ⟨step', hstep', -⟩ := hsome other hfirst'
      rw [List.filterMap_cons, List.filterMap_cons, hstep, hstep'] at heq
      obtain ⟨rfl, hothers⟩ := List.cons.inj heq
      rw [hunique other hstep', ih hrest hrest' hothers]

/-- The last move of a path with a name goes to it. -/
theorem exists_moves_of_fileName? {path : Path} {name : String} (h : path.fileName? = some name) :
    ∃ front, path.moves = front ++ [.name name] := by
  have hlast : path.components.getLast? = some (.name name) := by
    unfold fileName? at h
    split at h <;> cases h
    assumption
  obtain ⟨front, hfront⟩ := List.getLast?_eq_some_iff.mp hlast
  have hfilter := path.components_filter
  rw [hfront, List.filter_append] at hfilter
  rcases List.eq_nil_or_concat path.moves with hnil | ⟨front', last, hmoves⟩
  · rw [hnil, List.append_nil] at hfilter
    have hmem : Component.name name ∈ (if path.isAbsolute then [Component.root] else []) := by
      rw [← hfilter]
      simp
    split at hmem <;> simp at hmem
  · rw [hmoves, List.concat_eq_append] at hfilter ⊢
    refine ⟨front', ?_⟩
    rw [← List.append_assoc] at hfilter
    obtain ⟨-, hsame⟩ := List.append_inj' hfilter rfl
    have hname : [Component.name name].filter (· != .here) = [.name name] := rfl
    rw [hname] at hsame
    rw [hsame]

/-- A path with a name has a parent. -/
theorem exists_parent?_of_fileName? {path : Path} {name : String}
    (h : path.fileName? = some name) : ∃ parent, path.parent? = some parent := by
  obtain ⟨first, rest, hpieces⟩ := List.exists_cons_of_ne_nil (pieces_ne_nil path.text.toList)
  obtain ⟨blank, hrest, hblank, -⟩ := exists_trimmed rest
  simp only [parent?, hpieces]
  split
  · next hinner =>
    split
    · next hfirst =>
      -- such a path has no component but the root
      rw [hinner, List.nil_append] at hrest
      have hnone : rest.filterMap innerComponent? = [] := by
        rw [hrest, List.filterMap_eq_nil_iff]
        exact hblank
      have hcomponents : path.components = if path.isAbsolute then [.root] else [] := by
        simp only [components, hpieces, hnone, List.append_nil]
        rcases hfirst with habsolute | rfl
        · simp [habsolute]
        · simp [firstComponent?, innerComponent?]
      rw [fileName?, hcomponents] at h
      split at h
      · next hlast => split at hlast <;> simp at hlast
      · cases h
    · exact ⟨_, rfl⟩
  · split <;> exact ⟨_, rfl⟩

/-- **A path with a name is in its parent.** -/
theorem exists_parent? {path : Path} {name : String} (h : path.fileName? = some name) :
    ∃ parent, path.parent? = some parent ∧ parent.isAbsolute = path.isAbsolute ∧
      path.moves = parent.moves ++ [.name name] := by
  obtain ⟨front, hfront⟩ := exists_moves_of_fileName? h
  obtain ⟨parent, hparent⟩ := exists_parent?_of_fileName? h
  obtain ⟨habsolute, stays, step, stays', hsteps, hstays, hstays', hmove, -⟩ :=
    exists_of_parent? hparent
  have hquiet : ∀ steps : List Step, (∀ other ∈ steps, other = .here) →
      steps.filter (· != .here) = [] := by
    intro steps hsteps
    rw [List.filter_eq_nil_iff]
    exact fun other hmem => by simp [hsteps other hmem]
  have hall := path.filterMap_moves
  rw [hfront, hsteps, List.filter_append, List.filter_append, hquiet stays hstays,
    List.filter_cons, hquiet stays' hstays', List.filterMap_append,
    ← parent.filterMap_moves] at hall
  have hname : [Component.name name].filterMap Component.step? = [.name name] := rfl
  rw [hname] at hall
  by_cases hhere : step = .here
  · -- then the parent is empty, and there is no move at all
    have htext := hmove hhere
    have hmoves : parent.moves = [] := by
      rw [String.isEmpty_iff] at htext
      rw [moves, htext]
      rfl
    simp [hhere, hmoves] at hall
  · rw [if_pos (by simpa using hhere), List.nil_append] at hall
    obtain ⟨hmoves, -⟩ := List.append_inj' hall rfl
    refine ⟨parent, hparent, habsolute, ?_⟩
    rw [hfront,
      eq_of_filterMap_step? (fun component hmem => ?_) (fun _ => isMove_of_mem_moves) hmoves]
    exact @isMove_of_mem_moves path _ (by simp [hfront, hmem])

/-- **A name below a directory is in this directory**, which can be the empty path. -/
theorem exists_parent?_join (dir : Path) {name : String} (h : IsName name) :
    (dir.join ⟨name⟩).fileName? = some name ∧
      ∃ parent, (dir.join ⟨name⟩).parent? = some parent ∧ parent.components = dir.components := by
  have hcomponents : (dir.join ⟨name⟩).components = dir.components ++ [.name name] := by
    by_cases hdir : dir.text.isEmpty = true
    · obtain rfl : dir = ⟨""⟩ := congrArg Path.mk (String.isEmpty_iff.mp hdir)
      have hmove : Component.IsMove (.name name) := .name h
      have hjoin : (⟨""⟩ : Path).join ⟨name⟩ = ⟨name⟩ := by
        rw [join, if_neg (by simp [h.not_isAbsolute])]
        simp
      rw [hjoin]
      exact hmove.components_eq
    · exact components_join (by simpa using hdir) h
  have hname : (dir.join ⟨name⟩).fileName? = some name := by
    simp [fileName?, hcomponents]
  obtain ⟨parent, hparent⟩ := exists_parent?_of_fileName? hname
  obtain ⟨-, -, -, -, -, -, -, -, hfront⟩ := exists_of_parent? hparent
  rw [hcomponents, List.dropLast_concat] at hfront
  exact ⟨hname, parent, hparent, hfront⟩

end Path

namespace Build

/-! ### Clean directories -/

/-- **The components of a cleaned directory** are the root, if it is absolute, and its moves. -/
theorem components_cleanDir (dir : Path) :
    (cleanDir dir).components =
      if dir.isAbsolute = false ∧ dir.moves = [] then [.here]
      else (if dir.isAbsolute then [.root] else []) ++ dir.moves := by
  have hmoves := fun component => @Path.isMove_of_mem_moves dir component
  rw [cleanDir, Path.components_filter]
  by_cases habsolute : dir.isAbsolute = true
  · have hroot : (⟨"/"⟩ : Path).text.isEmpty = false := by decide
    obtain ⟨htext, -, -, hcomponents, -⟩ := Path.ofComponents_moves hroot hmoves
    simp only [habsolute, if_true, List.singleton_append, Path.ofComponents_root, htext,
      Bool.false_eq_true, if_false, hcomponents, Bool.true_eq_false, false_and]
    rfl
  · rw [Bool.not_eq_true] at habsolute
    rcases hnil : dir.moves with _ | ⟨first, rest⟩
    · simp [habsolute, Path.ofComponents, hereDir]
      decide
    · -- the first move is a path of its own
      obtain ⟨hfirst, hrest⟩ := List.forall_mem_cons.mp (hnil ▸ hmoves)
      have hne : (⟨first.text⟩ : Path).text.isEmpty = false := by
        simpa using hfirst.isPiece.ne_nil
      have hstart : Path.ofComponents ⟨""⟩ (first :: rest) =
          Path.ofComponents ⟨first.text⟩ rest := by
        rw [Path.ofComponents, List.foldl_cons, Path.join,
          if_neg (by simp [hfirst.isPiece.not_isAbsolute])]
        simp [Path.ofComponents]
      obtain ⟨htext, -, -, hcomponents, -⟩ := Path.ofComponents_moves hne hrest
      simp [habsolute, hstart, htext, hcomponents, hfirst.components_eq]

/-- Cleaning keeps the components that are no dots. -/
theorem filter_components_cleanDir (dir : Path) :
    (cleanDir dir).components.filter (· != .here) = dir.components.filter (· != .here) := by
  have hmoves : dir.moves.filter (· != .here) = dir.moves :=
    (Path.filter_of_forall_isMove fun _ => Path.isMove_of_mem_moves).1
  rw [components_cleanDir, Path.components_filter]
  split
  · next h => simp [h.1, h.2]
  · rw [List.filter_append, hmoves]
    cases dir.isAbsolute <;> rfl

/-- **Directories are the same when cleaned** exactly if they have the same components, dots
apart. -/
theorem cleanDir_eq_iff {dir other : Path} :
    cleanDir dir = cleanDir other ↔
      dir.components.filter (· != .here) = other.components.filter (· != .here) := by
  constructor
  · intro h
    rw [← filter_components_cleanDir dir, h, filter_components_cleanDir other]
  · intro h
    rw [cleanDir, cleanDir, h]

/-- Cleaning a clean directory does nothing. -/
theorem cleanDir_cleanDir (dir : Path) : cleanDir (cleanDir dir) = cleanDir dir :=
  cleanDir_eq_iff.mpr (filter_components_cleanDir dir)

/-- Clean directories are told apart by their components. -/
theorem components_cleanDir_eq_iff {dir other : Path} :
    (cleanDir dir).components = (cleanDir other).components ↔ cleanDir dir = cleanDir other := by
  refine ⟨fun h => ?_, congrArg Path.components⟩
  rw [cleanDir_eq_iff, ← filter_components_cleanDir dir, h, filter_components_cleanDir other]

/-- **Directories that are the same when cleaned have the same moves.** -/
theorem moves_eq_of_cleanDir {dir other : Path}
    (h : (cleanDir dir).components = (cleanDir other).components) :
    dir.isAbsolute = other.isAbsolute ∧ dir.moves = other.moves := by
  have hno : ∀ (path : Path) (rest : List Path.Component), path.moves ≠ .root :: rest := by
    intro path rest heq
    have hmove := Path.isMove_of_mem_moves (heq ▸ List.mem_cons_self)
    cases hmove
  have hfilter := cleanDir_eq_iff.mp (components_cleanDir_eq_iff.mp h)
  rw [Path.components_filter, Path.components_filter] at hfilter
  rcases habsolute : dir.isAbsolute with _ | _ <;> rcases hother : other.isAbsolute with _ | _ <;>
    simp only [habsolute, hother, Bool.false_eq_true, if_true, if_false, List.nil_append,
      List.singleton_append] at hfilter
  · exact ⟨rfl, hfilter⟩
  · exact absurd hfilter (hno dir _)
  · exact absurd hfilter.symm (hno other _)
  · exact ⟨rfl, (List.cons.inj hfilter).2⟩

/-- **Named files whose directories are the same** have the same moves before their names. -/
theorem exists_moves_of_dirOf {path other : Path} {name name' : String}
    (hname : path.fileName? = some name) (hname' : other.fileName? = some name')
    (h : (dirOf path).components = (dirOf other).components) :
    ∃ front, path.isAbsolute = other.isAbsolute ∧ path.moves = front ++ [.name name] ∧
      other.moves = front ++ [.name name'] := by
  obtain ⟨parent, hparent, habsolute, hmoves⟩ := Path.exists_parent? hname
  obtain ⟨parent', hparent', habsolute', hmoves'⟩ := Path.exists_parent? hname'
  simp only [dirOf, hparent, hparent', Option.getD_some] at h
  obtain ⟨hsame, hfront⟩ := moves_eq_of_cleanDir h
  exact ⟨parent.moves, by rw [← habsolute, ← habsolute', hsame], hmoves, by rw [hmoves', hfront]⟩

end Build

end EntryProbe
