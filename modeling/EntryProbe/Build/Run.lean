import EntryProbe.Build.CommandLine
import EntryProbe.Build.Compile
import EntryProbe.Text.ShellWords

/-!
# A run of the command

A build reads the flags for the compiler, finds the files, makes a work directory,
instruments the files into it, and starts the compiler there. A work directory that
was made for the build is taken away at its end, however it ends, unless it is to be
kept.

* `EntryProbe.Build.buildProject` – a build, as a step on files;
* `EntryProbe.Build.execute` – a run of the command, from its arguments to its exit
  status.
-/

namespace EntryProbe.Build

/-- The surroundings of a run. -/
structure Machine where
  /-- The current directory. -/
  cwd : Location
  /-- The directory for temporary files. -/
  temp : Location
  /-- The value of the variable that names the directory of packages. -/
  gopath : Option String
  /-- The value of the variable that chooses the notes that are shown. -/
  log : Option String
  /-- The compiler. -/
  compiler : Compiler

/-- What the name of a work directory starts with. -/
def workStem : String := "goprofile"

/-- Makes a work directory. -/
def makeWorkDir (temp : Location) : Action Location := do
  let files ← Action.files
  if files.isDir temp then
    let place := temp ++ [files.freshName temp workStem]
    Action.setFiles (files.insert place .dir)
    return place
  else
    Action.fail (.io .notFound)

/-- Takes a step, and takes away a directory when the step is over. -/
def thenRemove {α : Type} (place : Location) (action : Action α) : Action α :=
  ExceptT.mk do
    let result ← ExceptT.run action
    modify fun world => { world with files := world.files.removeTree place }
    return result

/-- **Takes a step with a work directory.** In place that is the directory of the
sources; otherwise one is made, and taken away at the end unless it is to be kept. -/
def withWorkDir {α : Type} (temp : Location) (inPlace keep : Bool) (sources : Path)
    (action : WorkDir → Action α) : Action α :=
  if inPlace then
    action (.inPlace sources)
  else do
    let place ← makeWorkDir temp
    let step := action (.separate place.path)
    if keep then step else thenRemove place step

/-- The path of the program, from the root. -/
def Options.outputPath (options : Options) (cwd : Path) : Path :=
  cwd.join (options.output.getD ⟨outputName options.inputs cwd ++ ".profile"⟩)

/-- The file that the program writes its profile to. -/
def Options.profilePath (options : Options) (cwd : Path) : String :=
  options.profile.getD (outputName options.inputs cwd ++ ".pprof")

/-- Instruments the files of a build and compiles them, given a work directory. -/
def buildIn (machine : Machine) (options : Options) (flags : List String) (set : FileSet)
    (work : WorkDir) : Action Unit := do
  if options.keepWork then
    Action.emit (.announced work.path)
  let tasks ← Action.orFail id
    (planTasks machine.cwd.path work (options.profilePath machine.cwd.path) set.paths)
  let _ ← instrumentAll machine.cwd work.isInPlace tasks
  let listed := if set.listed then tasks else []
  noteListed listed
  compile machine.cwd machine.compiler work.path
    (compilerArguments flags (options.outputPath machine.cwd.path) listed)

/-- **A build.** Gives the path of the program. -/
def buildProject (machine : Machine) (options : Options) : Action Path := do
  let flags ← match shellWords? (options.buildFlags.getD "") with
    | some flags => pure flags
    | none => Action.fail .invalidBuildFlags
  let set ← Action.orFail id
    (resolveFileSet (← Action.files) machine.cwd (gopathOf machine.gopath) options.inputs)
  let output := options.outputPath machine.cwd.path
  Action.note .info .command ("will compile to " ++ output.text)
  Action.note .info .command
    ("instrumented executable will save cpu profile as " ++ options.profilePath machine.cwd.path)
  withWorkDir machine.temp options.inPlace options.keepWork set.dir
    (buildIn machine options flags set)
  return output

/-! ### Runs -/

/-- How a run ends. -/
inductive Ending where
  /-- An explanation was asked for. -/
  | explained (text : String)
  /-- The command line was not understood. -/
  | misused
  /-- The program was built. -/
  | built (output : Path)
  /-- The build failed. -/
  | failed (error : Error)
  /-- The build crashed. -/
  | crashed
  deriving Repr, DecidableEq, Inhabited

/-- The exit status of a run. -/
def Ending.status : Ending → Nat
  | .explained _ => 0
  | .misused => 2
  | .built _ => 0
  | .failed _ => 1
  | .crashed => 101

/-- What a run says at its end about the build. -/
def Ending.message? : Ending → Option String
  | .built output => some ("built: " ++ output.text)
  | .failed error => some ("error: " ++ error.message)
  | _ => none

/-- What is left of a run. -/
structure Outcome where
  /-- How the run ended. -/
  ending : Ending
  /-- What happened, hidden notes left out. -/
  events : List Event
  /-- The files at the end. -/
  files : FileSystem

/-- An event is shown. -/
def Event.shown (filter : Filter) : Event → Bool
  | .noted note => filter.shows note
  | _ => true

/-- How the result of a build ends the run. -/
def Ending.ofResult : Except Failure Path → Ending
  | .ok output => .built output
  | .error (.error error) => .failed error
  | .error .crash => .crashed

/-- **A run of the command.** -/
def execute (machine : Machine) (arguments : List String) (files : FileSystem) : Outcome :=
  match Invocation.read arguments with
  | .help => ⟨.explained helpText, [], files⟩
  | .version => ⟨.explained versionText, [], files⟩
  | .misuse => ⟨.misused, [], files⟩
  | .build options =>
    let (result, world) := (buildProject machine options).perform ⟨files, []⟩
    let filter := Filter.choose machine.log options.verbose
    ⟨.ofResult result, world.events.filter (Event.shown filter), world.files⟩

/-- The line in which a work directory is named. -/
def workDirLine (dir : Path) : String :=
  "GOPROFILEWORK='" ++ dir.text ++ "'"

end EntryProbe.Build
