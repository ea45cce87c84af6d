import EntryProbe.Build.Run

/-!
# The command

The outer layer of the command: it takes a picture of the files that a run can ask
for, runs the command on the picture, prints what is to be seen, and writes back what
has changed. All decisions are made by `EntryProbe.Build.execute`.

The layer starts no other program, so the compiler counts as absent: the files that
are instrumented in place, or into a work directory that is kept, are left to be
compiled by hand. Where a run makes a link, the layer makes a copy.
-/

namespace EntryProbe.Main

open Build

/-- The location of an absolute path without steps to a parent directory. -/
def placeOf (text : String) : Location :=
  (Path.mk text).components.filterMap fun
    | .name name => some name
    | _ => none

/-- What stands at a location, links followed. -/
def look (place : Location) : IO (Option Node) := do
  let file := (← IO.currentDir) / place.path.text
  try
    let info ← file.metadata
    if info.type == .dir then
      return some .dir
    else
      return some (.file (← IO.FS.readBinFile file))
  catch _ =>
    return none

/-- Adds a location to the picture. -/
def addPlace (files : FileSystem) (place : Location) : IO FileSystem := do
  match ← look place with
  | some node => return files.insert place node
  | none => return files

/-- Adds what the steps of a path meet. -/
def addSteps (files : FileSystem) : Location → List Step → IO (FileSystem × Location)
  | place, [] => return (files, place)
  | place, step :: rest => do
    let next := match step with
      | .here => place
      | .up => place.dropLast
      | .name text => place ++ [text]
    addSteps (← addPlace files next) next rest

/-- Adds what a path leads to, with the entries of a directory. -/
def addPath (cwd : Location) (files : FileSystem) (path : Path) : IO FileSystem := do
  let (found, place) ← addSteps files (path.start cwd) path.steps
  if found.isDir place then
    let entries ← ((← IO.currentDir) / place.path.text).readDir
    entries.foldlM (fun files entry => addPlace files (place ++ [entry.fileName])) found
  else
    return found

/-- The paths that a run can ask for. -/
def pathsOf (machine : Machine) : Invocation → List Path
  | .build options =>
    let packages := match gopathOf machine.gopath with
      | some gopath => options.inputs.map (packageDir gopath)
      | none => []
    hereDir :: options.inputs ++ packages
  | _ => []

/-- The picture of the files for a run. -/
def picture (machine : Machine) (arguments : List String) : IO FileSystem := do
  let (files, _) ← addSteps .empty [] (machine.cwd.map Step.name)
  let files ← addPath [] files machine.temp.path
  (pathsOf machine (Invocation.read arguments)).foldlM (addPath machine.cwd) files

/-- Writes back an entry. -/
def store (place : Location) (node : Node) : IO Unit := do
  let file := (← IO.currentDir) / place.path.text
  match node with
  | .dir => IO.FS.createDirAll file
  | .file content => IO.FS.writeBinFile file content
  | .link target => IO.FS.writeBinFile file (← IO.FS.readBinFile target.text)

/-- Prints an event. -/
def printEvent : Event → IO Unit
  | .noted note => IO.eprintln note.line
  | .announced dir => IO.println (workDirLine dir)
  | .compiled _ _ => return ()

/-- Prints how a run has ended. -/
def printEnding : Ending → IO Unit
  | .explained text => IO.println text
  | ending =>
    match ending.message? with
    | some line => IO.eprintln line
    | none => return ()

/-- A run of the command on the files of this machine. -/
def run (arguments : List String) : IO UInt32 := do
  let temp := (← IO.getEnv "TMPDIR").getD "/tmp"
  let machine : Machine :=
    { cwd := placeOf (← IO.currentDir).toString
      temp := placeOf temp
      gopath := ← IO.getEnv "GOPATH"
      log := ← IO.getEnv "GOPROFILE_LOG"
      compiler := none }
  let before ← picture machine arguments
  let outcome := execute machine arguments before
  outcome.events.forM printEvent
  for (place, node) in outcome.files.entries do
    if before.get? place != some node then
      store place node
  printEnding outcome.ending
  return UInt32.ofNat outcome.ending.status

end EntryProbe.Main

/-- The command. -/
def main (arguments : List String) : IO UInt32 :=
  EntryProbe.Main.run arguments
