import EntryProbe.Build.Error
import EntryProbe.Build.Log

/-!
# Steps of a build

A step of a build can fail, changes files, and leaves a trace of events. What it has
changed stays changed when it fails. There are two kinds of failure: an error, which
is reported, and a crash, which happens when a syntax tree refers to source text that
is not there and so cannot be printed.
-/

namespace EntryProbe.Build

/-- What a build does that can be seen from outside, files apart. -/
inductive Event where
  /-- A note about the progress. -/
  | noted (note : Note)
  /-- The work directory is named. -/
  | announced (dir : Path)
  /-- The compiler is started in a directory. -/
  | compiled (dir : Location) (arguments : List String)
  deriving Repr, DecidableEq, Inhabited

/-- The files, and the trace of a build so far. -/
structure World where
  /-- The files. -/
  files : FileSystem
  /-- What has happened, in order. -/
  events : List Event

/-- How a step fails. -/
inductive Failure where
  /-- With an error. -/
  | error (error : Error)
  /-- By a syntax tree that cannot be printed. -/
  | crash
  deriving Repr, DecidableEq, Inhabited

/-- **A step of a build.** -/
abbrev Action := ExceptT Failure (StateM World)

namespace Action

/-- The files as they are now. -/
def files : Action FileSystem := do
  return (← get).files

/-- Changes the files. -/
def setFiles (files : FileSystem) : Action Unit :=
  modify fun world => { world with files }

/-- Something happens. -/
def emit (event : Event) : Action Unit :=
  modify fun world => { world with events := world.events ++ [event] }

/-- Leaves a note. -/
def note (level : Level) (origin : Origin) (text : String) : Action Unit :=
  emit (.noted ⟨level, origin, text⟩)

/-- Fails with an error. -/
def fail {α : Type} (error : Error) : Action α :=
  throw (.error error)

/-- The value of a computation, or the error that its failure stands for. -/
def orFail {ε α : Type} (error : ε → Error) : Except ε α → Action α
  | .ok value => pure value
  | .error cause => fail (error cause)

/-- Runs a step. -/
def perform {α : Type} (action : Action α) (world : World) : Except Failure α × World :=
  (ExceptT.run action).run world

end Action

end EntryProbe.Build
