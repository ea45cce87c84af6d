import EntryProbe.Profiling.Entry
import EntryProbe.Profiling.Preamble

/-!
# Instrumenting a file

`EntryProbe.Profiling.instrument` puts the profiling block in front of every entry
function that has a body, and the imports that the block needs in front of all other
declarations. An import counts as present only if its path literal is exactly the
expected one.

Instrumenting a file twice adds a second block but no second import: a program that
has been instrumented can be instrumented again.
-/

namespace EntryProbe.Profiling

open Go

/-- What was changed in a file. -/
structure Report where
  /-- The path literals of the imports that were added, in order. -/
  importsAdded : List String
  /-- The number of functions that got a profiling block. -/
  preamblesInserted : Nat
  /-- The file imported the profiler before. -/
  profilerAlreadyImported : Bool
  deriving Repr, DecidableEq, Inhabited

/-- The warning about a file that imports the profiler already. -/
def alreadyImportedWarning : String :=
  "runtime/pprof already imported. Maybe this program already supports profiling?"

/-- The path literals of the imports that a file lacks. -/
def missingImports (file : SourceFile) : List String :=
  [osImport, pprofImport].filter fun path => !file.hasImport path

/-- A declaration that a profiling block goes into. -/
def takesPreamble : Decl → Bool
  | .func decl => decl.isEntry && decl.body.isSome
  | _ => false

/-- A declaration with the profiling block in front of its body, if it takes one. -/
def addPreamble (profile : String) : Decl → Decl
  | .func decl =>
    if decl.isEntry then
      .func { decl with
        body := decl.body.map fun body =>
          { body with stmts := preamble profile :: body.stmts } }
    else
      .func decl
  | decl => decl

/-- **Adds profiling to a file.** -/
def instrument (file : SourceFile) (profile : String) : SourceFile × Report :=
  let missing := missingImports file
  let decls := missing.map importOf ++ file.decls.map (addPreamble profile)
  ({ file with decls },
   { importsAdded := missing
     preamblesInserted := file.decls.countP takesPreamble
     profilerAlreadyImported := file.hasImport pprofImport })

end EntryProbe.Profiling
