import EntryProbe.Go.Tree

/-!
# The profiling block

The block that is put in front of an entry function. It opens a file for the profile,
starts the profiler, and stops it at the end of the function, however that is left.
If the file cannot be opened, the block says so and returns from the function.
-/

namespace EntryProbe.Profiling

open Go

/-- The path literal of the package that opens files. -/
def osImport : String := "\"os\""

/-- The path literal of the package that holds the profiler. -/
def pprofImport : String := "\"runtime/pprof\""

/-- The member `member` of the package or variable `name`. -/
def memberOf (name member : String) : Expr :=
  .selector (.ident name) member

/-- Opens the file of the profile. -/
def openProfile (profile : String) : Stmt :=
  .assign [.ident "f", .ident "err"] .define
    [.call (memberOf "os" "Create") [.string profile]]

/-- What is printed if the file cannot be opened. -/
def openFailure (profile : String) : Expr :=
  .binary
    (.binary (.string ("Couldn't open " ++ profile ++ ": ")) .add
      (.call (memberOf "err" "Error") []))
    .add (.string "\n")

/-- Leaves the function if the file could not be opened. -/
def openGuard (profile : String) : Stmt :=
  .ifThen (.binary (.ident "err") .ne (.ident "nil"))
    [.expr (.call (.selector (memberOf "os" "Stderr") "WriteString") [openFailure profile]),
     .return_ []]

/-- **The profiling block** for the file `profile`. -/
def preamble (profile : String) : Stmt :=
  .block
    [openProfile profile,
     openGuard profile,
     .expr (.call (memberOf "pprof" "StartCPUProfile") [.ident "f"]),
     .defer (memberOf "pprof" "StopCPUProfile") []]

/-- The import of a single package, given its path literal. -/
def importOf (path : String) : Decl :=
  .imports ⟨[⟨none, path⟩], none⟩

end EntryProbe.Profiling
