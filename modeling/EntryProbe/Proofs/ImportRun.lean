import EntryProbe.Profiling.Instrument
import EntryProbe.Proofs.Contents
import EntryProbe.Proofs.Splicing

/-!
# The imports that are put in, as tokens

The imports that a file lacks are printed as one run, and the run is spliced into the text
between the package clause and the first declaration. This file follows the run from there
to the items it is read as.

* `EntryProbe.Go.importTokens` – the tokens of the run. Imports are scanned as they are
  written (`EntryProbe.Go.scanned_importTokens`) and read as one item each
  (`EntryProbe.Go.ItemsRead.exists_imports`).
-/

namespace EntryProbe.Go

open Profiling

/-! ### The run -/

/-- The run that a list of imports makes up. -/
def importRun (paths : List String) : List Char :=
  paths.foldl (fun run path => addToRun run (importOf path)) []

/-- The tokens of one import behind a gap. -/
def importPair (gap : List Char) (path : String) : List Token :=
  [.reserved gap "import" .importWord, ⟨[' '], path.toList, .string⟩]

/-- **The tokens of imports**, the first one behind `gap` and each of the others behind
`line`. -/
def importTokens (gap line : List Char) : List String → List Token
  | [] => []
  | path :: rest => importPair gap path ++ importTokens line line rest

/-- A path literal is a text in quotes. -/
def IsQuoted (path : String) : Prop :=
  ∃ text, path.toList = Quoted.encode text

theorem isQuoted_osImport : IsQuoted osImport :=
  ⟨"os".toList, by decide⟩

theorem isQuoted_pprofImport : IsQuoted pprofImport :=
  ⟨"runtime/pprof".toList, by decide⟩

theorem unscan_importTokens (gap line : List Char) {paths : List String} (h : paths ≠ []) :
    unscan (importTokens gap line paths) = gap ++ unscan (importTokens [] line paths) := by
  obtain ⟨path, paths, rfl⟩ := List.exists_cons_of_ne_nil h
  simp [importTokens, importPair, Token.reserved]

theorem renderDecl_importOf (path : String) :
    (renderDecl (importOf path)).toList = "import ".toList ++ path.toList := by
  simp [importOf, renderDecl, renderImport, renderImportSpec]

theorem foldl_addToRun {run : List Char} (hrun : run ≠ []) (paths : List String) :
    paths.foldl (fun run path => addToRun run (importOf path)) run =
      run ++ unscan (importTokens ['\n'] ['\n'] paths) := by
  induction paths generalizing run with
  | nil => simp [importTokens]
  | cons path paths ih =>
    have hstep : addToRun run (importOf path) =
        run ++ '\n' :: ("import ".toList ++ path.toList) := by
      rw [addToRun, if_neg hrun, renderDecl_importOf]
    rw [List.foldl_cons, hstep, ih (by simp)]
    simp [importTokens, importPair, Token.reserved]

/-- The run starts with a blank line. -/
theorem importRun_eq {paths : List String} (h : paths ≠ []) :
    importRun paths = '\n' :: unscan (importTokens ['\n'] ['\n'] paths) := by
  obtain ⟨path, paths, rfl⟩ := List.exists_cons_of_ne_nil h
  have hstep : addToRun [] (importOf path) = '\n' :: '\n' :: ("import ".toList ++ path.toList) := by
    rw [addToRun, if_pos rfl, renderDecl_importOf]
    rfl
  rw [importRun, List.foldl_cons, hstep, foldl_addToRun (by simp)]
  simp [importTokens, importPair, Token.reserved]

theorem head_importRun {paths : List String} (h : paths ≠ []) :
    (importRun paths).head? = some '\n' := by
  rw [importRun_eq h]
  rfl

/-- Made-up imports in front of other declarations are held back as a run. -/
theorem printDecls_imports (source : List Char) (cursor : Nat) (paths : List String)
    (decls : List Decl) :
    printDecls source cursor [] (paths.map importOf ++ decls) =
      printDecls source cursor (importRun paths) decls := by
  have hgeneral : ∀ run, printDecls source cursor run (paths.map importOf ++ decls) =
      printDecls source cursor (paths.foldl (fun run path => addToRun run (importOf path)) run)
        decls := by
    induction paths with
    | nil => exact fun _ => rfl
    | cons path paths ih =>
      intro run
      exact ih (addToRun run (importOf path))
  exact hgeneral []

/-- The run with line breaks in one of their two forms. -/
theorem withBreaks_importRun (withReturn : Bool) {paths : List String} (h : paths ≠ [])
    (hquoted : ∀ path ∈ paths, IsQuoted path) :
    withBreaks withReturn (importRun paths) = lineBreak withReturn ++
      unscan (importTokens (lineBreak withReturn) (lineBreak withReturn) paths) := by
  rw [importRun_eq h]
  cases withReturn with
  | false => rfl
  | true =>
    have hword : withCarriageReturns "import".toList = "import".toList := by decide
    have hrun : withCarriageReturns (unscan (importTokens ['\n'] ['\n'] paths)) =
        unscan (importTokens ['\r', '\n'] ['\r', '\n'] paths) := by
      clear h
      induction paths with
      | nil => rfl
      | cons path paths ih =>
        obtain ⟨⟨text, htext⟩, hrest⟩ := List.forall_mem_cons.mp hquoted
        have hpath : withCarriageReturns path.toList = path.toList := by
          rw [htext]
          exact withCarriageReturns_eq_self (newline_not_mem_encode text)
        simp only [importTokens, importPair, Token.reserved, unscan_append, unscan_cons, unscan_nil,
          withCarriageReturns_append, hword, hpath, ih hrest]
        rfl
    simp only [withBreaks, lineBreak, ↓reduceIte]
    rw [← hrun]
    rfl

/-! ### Scanning the run -/

/-- A path literal is scanned as one token, whatever follows. -/
theorem starts_path {path : String} (h : IsQuoted path) (tail : List Char) :
    (⟨[' '], path.toList, .string⟩ : Token).Starts tail := by
  obtain ⟨text, htext⟩ := h
  rw [htext]
  refine ⟨?_, by simp [Quoted.encode], Quoted.lexeme_encode text tail⟩
  simp [Quoted.encode, splitTrivia, splitTriviaFrom, isSpace]

/-- **The tokens of imports are scanned**, behind any trivia. -/
theorem scanned_importTokens {gap : List Char} (withReturn : Bool) {paths : List String}
    {tokens : List Token} {last : List Char} (hquoted : ∀ path ∈ paths, IsQuoted path)
    (hgap : Trivia .outside gap .outside) (h : Scanned tokens last) :
    Scanned (importTokens gap (lineBreak withReturn) paths ++ tokens) last := by
  induction paths generalizing gap with
  | nil => exact h
  | cons path paths ih =>
    obtain ⟨hpath, hrest⟩ := List.forall_mem_cons.mp hquoted
    have hline : Trivia .outside (lineBreak withReturn) .outside := by
      cases withReturn with
      | false => exact .space rfl (.nil _)
      | true => exact .space rfl (.space rfl (.nil _))
    have hword : Scanned ([.reserved [] "import" .importWord] ++ []) [' '] :=
      scanned_of_scanFrom (by decide)
    have hblank : ' ' ∈ stops := by decide
    have htail : Scanned (⟨[' '], path.toList, .string⟩ ::
        (importTokens (lineBreak withReturn) (lineBreak withReturn) paths ++ tokens)) last :=
      ⟨starts_path hpath _, ih hrest hline⟩
    have hfront := hword.of_meets (by decide)
      (meets_of_stops rfl rfl hblank hblank (by decide)) htail
    refine Scanned.regap hfront ?_
    intro mode _ htrivia
    cases htrivia
    exact hgap

/-! ### Reading the run -/

section

variable {gap line : List Char} {offset : Nat} {rest : List Token} {items : List Item}

/-- An import is read as one item. -/
theorem itemRead_import (gap : List Char) (path : String) (offset : Nat) (rest : List Token) :
    ∃ span, ItemRead offset (importPair gap path ++ rest)
      (.decl .imports (.imports ⟨[⟨none, path⟩], some span⟩)) rest := by
  have hread : readImports (⟨[' '], path.toList, .string⟩ :: rest) =
      .ok ([⟨none, nodeText [⟨[' '], path.toList, .string⟩]⟩], rest) := rfl
  have hpath : nodeText [⟨[' '], path.toList, .string⟩] = path := by
    simp [nodeText, spelling]
  rw [hpath] at hread
  exact ⟨_, .imports rfl hread (cut_append [_, _] rest)⟩

/-- **Imports in front of other items are read** as one item each. -/
theorem ItemsRead.exists_imports {paths : List String} {terminator : List Token}
    (hpaths : paths ≠ []) (hline : (splitAtLineBreak? line).isSome)
    (hterm : terminatorLength? (terminator ++ rest) = some terminator.length)
    (h : ItemsRead (offset + width (importTokens gap line paths) + width terminator) rest items) :
    ∃ imports, ItemsRead offset (importTokens gap line paths ++ (terminator ++ rest))
        (imports ++ items) ∧ imports.filterMap Item.clause? = [] ∧
      ∀ source, (imports.filterMap Item.decl?).map (Decl.content source) =
        paths.map fun path => .imports [⟨none, path⟩] := by
  induction paths generalizing gap offset with
  | nil => exact absurd rfl hpaths
  | cons path paths ih =>
    obtain ⟨span, himport⟩ := itemRead_import gap path offset
      (importTokens line line paths ++ (terminator ++ rest))
    rw [importTokens, width_append] at h
    rw [importTokens, List.append_assoc]
    cases paths with
    | nil =>
      exact ⟨[_],
        @ItemsRead.step_append _ _ _ _ _ terminator himport (itemEnd?_of_terminator hterm) h,
        rfl, fun _ => rfl⟩
    | cons path' paths =>
      rw [← Nat.add_assoc] at h
      obtain ⟨imports, hread, hclauses, hcontents⟩ := ih (by simp) h
      -- the next import starts a line, which ends this one
      have hnext : terminatorLength?
          (importTokens line line (path' :: paths) ++ (terminator ++ rest)) = some 0 :=
        terminatorLength?_of_onNewLine hline
      refine ⟨_ :: imports, @ItemsRead.step_append _ _ _ _ _ [] himport
        (itemEnd?_of_terminator hnext) hread, hclauses, ?_⟩
      intro source
      exact congrArg (Content.imports [⟨none, path⟩] :: ·) (hcontents source)

end

end EntryProbe.Go
