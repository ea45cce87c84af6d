import Mathlib.Data.List.Basic
import EntryProbe.Go.Traversal
import EntryProbe.Profiling.Instrument

/-!
# What the walks are for

The questions that are asked of a file are errands of visitors, and the change that is
made to it is one of an editor. Each goes only as far as it has to: a finder goes
through no further declaration once it has found, and none of them looks into a body.
What the walks come to is what `EntryProbe.Go.SourceFile.hasEntryPoint`,
`EntryProbe.Go.SourceFile.hasImport` and `EntryProbe.Profiling.instrument` say without
a walk.
-/

namespace EntryProbe.Go

/-! ### Finding -/

/-- Walks on only while nothing has been found. -/
def unlessFound (walk : Bool → Bool) (found : Bool) : Bool :=
  if found then true else walk found

/-- Looks for an entry function, in a file of the package `main` only. -/
def entryFinder : Visitor Bool where
  onFile := fun file walk => if file.package.name == entryName then walk else id
  onDecl := fun _ walk => unlessFound walk
  onFuncDecl := fun decl _ found => decl.isEntry || found

/-- Looks for an import with exactly the path literal `path`. -/
def importFinder (path : String) : Visitor Bool where
  onDecl := fun _ walk => unlessFound walk
  onImportSpec := fun spec found => spec.path == path || found
  onFuncDecl := fun _ _ => id

/-- Going through a row with a question asks whether some member of the row answers it,
if it does so at each member from a no on and keeps a yes. -/
theorem foldl_eq_any {α : Type} {walk : Bool → α → Bool} {answers : α → Bool}
    (hno : ∀ item, walk false item = answers item) (hyes : ∀ item, walk true item = true)
    (items : List α) (found : Bool) : items.foldl walk found = (found || items.any answers) := by
  induction items generalizing found with
  | nil => simp
  | cons item rest ih =>
    rw [List.foldl_cons, ih, List.any_cons]
    cases found with
    | false => rw [hno, Bool.false_or]
    | true => rw [hyes, Bool.true_or, Bool.true_or]

/-- **Visiting a file in search of an entry function** tells whether the file has one. -/
theorem visitFile_entryFinder (file : SourceFile) :
    entryFinder.visitFile file false = file.hasEntryPoint := by
  have hwalk : entryFinder.walkFile file false = file.funcs.any FuncDecl.isEntry := by
    rw [Visitor.walkFile, SourceFile.funcs, List.any_filterMap]
    refine (foldl_eq_any (fun decl => ?_) (fun decl => rfl) file.decls false).trans
      (Bool.false_or _)
    cases decl with
    | func decl => exact Bool.or_false decl.isEntry
    | imports decl =>
      -- An import declaration is walked over, and nothing is said at what it imports.
      show decl.specs.foldl (fun found _ => found) false = false
      exact List.foldl_fixed decl.specs
    | other span => rfl
  rw [SourceFile.hasEntryPoint, ← hwalk]
  show (if file.package.name == entryName then entryFinder.walkFile file else id) false = _
  cases file.package.name == entryName <;> rfl

/-- **Visiting a file in search of an import** tells whether the file has it. -/
theorem visitFile_importFinder (file : SourceFile) (path : String) :
    (importFinder path).visitFile file false = file.hasImport path := by
  rw [SourceFile.hasImport, SourceFile.importSpecs, List.any_flatMap]
  refine (foldl_eq_any (fun decl => ?_) (fun decl => rfl) file.decls false).trans
    (Bool.false_or _)
  cases decl with
  | imports decl =>
    exact (foldl_eq_any (fun spec => Bool.or_false _) (fun spec => Bool.or_true _)
      decl.specs false).trans (Bool.false_or _)
  | func decl => rfl
  | other span => rfl

end EntryProbe.Go

namespace EntryProbe.Profiling

open Go

/-! ### Instrumenting -/

/-- Puts the missing imports in front of a file, and then the profiling block into every
entry function that has a body, keeping count. -/
def instrumenter (profile : String) : Editor Report where
  onFile := fun file walk report =>
    let missing := missingImports file
    walk { file with decls := missing.map importOf ++ file.decls }
      { report with
        importsAdded := missing
        profilerAlreadyImported := file.hasImport pprofImport }
  onFuncDecl := fun decl _ report =>
    if decl.isEntry then
      match decl.body with
      | some body =>
        ({ decl with body := some { body with stmts := preamble profile :: body.stmts } },
          { report with preamblesInserted := report.preamblesInserted + 1 })
      | none => (decl, report)
    else
      (decl, report)

variable (profile : String)

/-- A declaration is walked over by adding the block, if it takes one, and counting it. -/
theorem walkDecl_instrumenter (decl : Decl) (report : Report) :
    (instrumenter profile).walkDecl decl report =
      (addPreamble profile decl,
        { report with preamblesInserted :=
            report.preamblesInserted + if takesPreamble decl then 1 else 0 }) := by
  cases decl with
  | imports decl => rfl
  | other span => rfl
  | func decl =>
    obtain ⟨name, receiver, params, result, body, span⟩ := decl
    simp only [Editor.walkDecl, instrumenter, addPreamble, takesPreamble]
    split
    · cases body <;> simp_all
    · simp_all

theorem walkDecls_instrumenter (decls : List Decl) (report : Report) :
    (instrumenter profile).walkDecls decls report =
      (decls.map (addPreamble profile),
        { report with preamblesInserted :=
            report.preamblesInserted + decls.countP takesPreamble }) := by
  induction decls generalizing report with
  | nil => rfl
  | cons decl rest ih =>
    rw [Editor.walkDecls]
    show (let (decl, report) := (instrumenter profile).walkDecl decl report
      let (rest, report) := (instrumenter profile).walkDecls rest report
      (decl :: rest, report)) = _
    rw [walkDecl_instrumenter]
    simp only [ih, List.map_cons, List.countP_cons]
    rw [Nat.add_right_comm, Nat.add_assoc]

/-- **Instrumenting a file is editing it**, from an empty report on. -/
theorem editFile_instrumenter (file : SourceFile) :
    (instrumenter profile).editFile file ⟨[], 0, false⟩ = instrument file profile := by
  have himports : ((missingImports file).map importOf).map (addPreamble profile) =
      (missingImports file).map importOf := by
    rw [List.map_map]
    rfl
  have hcount : ((missingImports file).map importOf).countP takesPreamble = 0 := by
    simp [List.countP_eq_zero, importOf, takesPreamble]
  show (instrumenter profile).walkFile _ _ = _
  rw [Editor.walkFile, walkDecls_instrumenter, List.map_append, himports, List.countP_append,
    hcount, instrument]
  simp

end EntryProbe.Profiling
