import EntryProbe.Build.Task
import EntryProbe.Build.Sources

/-!
# The plan of a build

The result of each file goes into the work directory under the same name, or back to
where the file was. The tasks are ordered by the paths of their sources and run one
after the other, until one of them fails.
-/

namespace EntryProbe.Build

/-- Where the results of a build go. -/
inductive WorkDir where
  /-- Back to where the sources are. -/
  | inPlace (dir : Path)
  /-- Into a directory of their own. -/
  | separate (dir : Path)
  deriving Repr, DecidableEq, Inhabited

/-- The directory of the results. -/
def WorkDir.path : WorkDir → Path
  | .inPlace dir => dir
  | .separate dir => dir

/-- The results go back to where the sources are. -/
def WorkDir.isInPlace : WorkDir → Bool
  | .inPlace _ => true
  | .separate _ => false

/-- The task for a source. Into a directory of their own go only files that have a
name. -/
def WorkDir.task? (work : WorkDir) (cwd : Path) (profile : String) (source : Path) :
    Except Error (Option Task) :=
  match work with
  | .inPlace _ =>
    match Path.absolute? cwd source with
    | some destination => .ok (some { source, destination, profile })
    | none => .error (.io .emptyPath)
  | .separate dir =>
    .ok (source.fileName?.map fun name => { source, destination := dir.join ⟨name⟩, profile })

/-- **The tasks of a build**, in the order of their sources. -/
def planTasks (cwd : Path) (work : WorkDir) (profile : String) (sources : List Path) :
    Except Error (List Task) := do
  let tasks ← sources.mapM (work.task? cwd profile)
  return (tasks.filterMap id).mergeSort fun task other => task.source.le other.source

/-- Runs one task. -/
def Task.run (cwd : Location) (inPlace : Bool) (task : Task) : Action Bool := do
  let found ←
    if inPlace then processInPlace cwd task.source task.profile else task.process cwd
  if found then
    Action.note .info .build ("found and instrumented main() in " ++ task.source.text)
  return found

/-- Runs tasks up to the first one that fails. Gives the number of files that were
instrumented. -/
def runTasks (cwd : Location) (inPlace : Bool) : List Task → Action Nat
  | [] => return 0
  | task :: rest => do
    let found ← task.run cwd inPlace
    let others ← runTasks cwd inPlace rest
    return (if found then 1 else 0) + others

/-- **Instruments the files of a build.** There has to be one with an entry point. -/
def instrumentAll (cwd : Location) (inPlace : Bool) (tasks : List Task) : Action Nat := do
  let count ← runTasks cwd inPlace tasks
  if count = 0 then
    Action.fail .noEntryPoint
  return count

end EntryProbe.Build
