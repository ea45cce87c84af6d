import EntryProbe.Build.Action
import EntryProbe.FileSystem.Operations
import EntryProbe.Go.Outline
import EntryProbe.Go.Printer
import EntryProbe.Profiling.Instrument

/-!
# One file of a build

A source file with an entry function is parsed, instrumented and printed; every other
file stays as it is, byte for byte. The result goes to a new place
(`EntryProbe.Build.Task.process`), where a file that stays as it is becomes a link, or
it goes back to where the source was (`EntryProbe.Build.processInPlace`).

The file that takes the result is emptied or created before the syntax tree is
printed.
-/

namespace EntryProbe.Build

open Go Profiling

/-- A file to be processed. -/
structure Task where
  /-- Where the file comes from. -/
  source : Path
  /-- Where the result goes. -/
  destination : Path
  /-- The file that the instrumented program writes its profile to. -/
  profile : String
  deriving Repr, DecidableEq, Inhabited

/-- The ending of the names of source files. -/
def sourceEnding : String := ".go"

/-- The path is that of a source file. -/
def isSource (path : Path) : Bool :=
  path.hasEnding sourceEnding

/-- Reads and parses a file, and gives it back if it has an entry point. -/
def entryFile? (cwd : Location) (path : Path) : Action (Option SourceFile) := do
  let text ← Action.orFail (.read path) ((← Action.files).readText cwd path)
  let file ← Action.orFail (.parse path) (parse text)
  return if file.hasEntryPoint then some file else none

/-- Instruments a file, with a warning if it seems to be profiled already. -/
def instrumented (file : SourceFile) (profile : String) : Action SourceFile := do
  let (changed, report) := instrument file profile
  if report.profilerAlreadyImported then
    Action.note .warn .instrument alreadyImportedWarning
  return changed

/-- Writes a file to a location, which is emptied first. -/
def writeFile (place : Location) (file : SourceFile) : Action Unit := do
  Action.setFiles ((← Action.files).insert place (.file .empty))
  match file.print with
  | some text => Action.setFiles ((← Action.files).insert place (.ofText text))
  | none => throw .crash

/-- Gives a file that stays as it is its second place. -/
def duplicate (cwd : Location) (source target : Path) : Action Unit := do
  Action.note .debug .process
    ("duplicating unchanged file from=" ++ source.text ++ " to=" ++ target.text)
  let (result, files) := (← Action.files).duplicateFile cwd source target
  Action.setFiles files
  Action.orFail (.duplicate source) result

/-- Processes a file as a source file, whatever its name. Tells whether it was
instrumented. -/
def Task.processSource (cwd : Location) (task : Task) : Action Bool := do
  match ← entryFile? cwd task.source with
  | none =>
    duplicate cwd task.source task.destination
    return false
  | some file =>
    let changed ← instrumented file task.profile
    let place ← Action.orFail (.createOutput task.destination)
      ((← Action.files).newEntry cwd task.destination)
    writeFile place changed
    return true

/-- **Processes a file into a new one.** Tells whether it was instrumented. -/
def Task.process (cwd : Location) (task : Task) : Action Bool := do
  if isSource task.source then
    task.processSource cwd
  else
    duplicate cwd task.source task.destination
    return false

/-- **Processes a file where it is.** Only source files with an entry point are
touched. Tells whether it was instrumented. -/
def processInPlace (cwd : Location) (path : Path) (profile : String) : Action Bool := do
  if isSource path then
    match ← entryFile? cwd path with
    | none => return false
    | some file =>
      let changed ← instrumented file profile
      let place ← Action.orFail (.truncateOutput path) ((← Action.files).resolve cwd path)
      writeFile place changed
      return true
  else
    return false

end EntryProbe.Build
