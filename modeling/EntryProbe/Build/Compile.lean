import EntryProbe.Build.Plan

/-!
# Starting the compiler

The compiler is a program that can be absent. It runs in a directory with a list of
arguments, and how it ends is all that a build learns of it.
-/

namespace EntryProbe.Build

/-- The compiler, as far as a build sees it: how it ends in a directory and with
arguments, or `none` if there is no such program. -/
abbrev Compiler := Option (Location → List String → ExitStatus)

/-- The arguments of the compiler. Files that were named one by one are passed on by
the places of their results; a package is found in the directory where the compiler
runs. -/
def compilerArguments (flags : List String) (output : Path) (listed : List Task) : List String :=
  "build" :: flags ++ ["-o", output.text] ++ listed.map fun task => task.destination.text

/-- Notes which results are passed on. -/
def noteListed : List Task → Action Unit
  | [] => return ()
  | task :: rest => do
    Action.note .debug .build ("to: " ++ task.destination.text)
    noteListed rest

/-- **Compiles what is in a directory.** -/
def compile (cwd : Location) (compiler : Compiler) (dir : Path) (arguments : List String) :
    Action Unit := do
  Action.note .info .build "successfully instrumented code, compiling with go build"
  let place ← Action.orFail .spawnBuild ((← Action.files).resolveDir cwd dir)
  match compiler with
  | none => Action.fail (.spawnBuild .notFound)
  | some run =>
    Action.emit (.compiled place arguments)
    let status := run place arguments
    if !status.success then
      Action.fail (.buildFailed status)

end EntryProbe.Build
