import EntryProbe.FileSystem.Basic
import EntryProbe.Go.SyntaxError

/-!
# What can go wrong in a build

The causes for which a build ends without a program, and their wording.
-/

namespace EntryProbe.Build

/-- How a program ended. -/
inductive ExitStatus where
  /-- It ended by itself, with this status. -/
  | code (status : Nat)
  /-- A signal ended it. -/
  | signal (number : Nat)
  deriving Repr, DecidableEq, Inhabited

/-- The program ended well. -/
def ExitStatus.success (status : ExitStatus) : Bool :=
  status == .code 0

/-- The names of the signals, from the first one. -/
def signalNames : List String :=
  ["SIGHUP", "SIGINT", "SIGQUIT", "SIGILL", "SIGTRAP", "SIGABRT", "SIGBUS", "SIGFPE", "SIGKILL",
   "SIGUSR1", "SIGSEGV", "SIGUSR2", "SIGPIPE", "SIGALRM", "SIGTERM", "SIGSTKFLT", "SIGCHLD",
   "SIGCONT", "SIGSTOP", "SIGTSTP", "SIGTTIN", "SIGTTOU", "SIGURG", "SIGXCPU", "SIGXFSZ",
   "SIGVTALRM", "SIGPROF", "SIGWINCH", "SIGIO", "SIGPWR", "SIGSYS"]

/-- The wording of an end. -/
def ExitStatus.message : ExitStatus → String
  | .code status => "exit status: " ++ toString status
  | .signal number =>
    let name := match number with
      | 0 => none
      | index + 1 => signalNames[index]?
    "signal: " ++ toString number ++ (name.map fun text => " (" ++ text ++ ")").getD ""

/-- The causes for which a build fails. -/
inductive Error where
  /-- A source file is not a file of the language. -/
  | parse (path : Path) (cause : Go.SyntaxError)
  /-- A source file cannot be read. -/
  | read (path : Path) (cause : IoError)
  /-- The changed file cannot be created. -/
  | createOutput (path : Path) (cause : IoError)
  /-- The file that is changed in place cannot be emptied. -/
  | truncateOutput (path : Path) (cause : IoError)
  /-- A file that stays as it is cannot be given its second place. -/
  | duplicate (path : Path) (cause : IoError)
  /-- A named file is not there. -/
  | missingInput (path : Path) (cause : IoError)
  /-- The directory of a package cannot be listed. -/
  | listDir (path : Path) (cause : IoError)
  /-- No file has an entry function. -/
  | noEntryPoint
  /-- A package is named by its import path, but there is nowhere to look for it. -/
  | emptyGopath
  /-- The named files are not all in one directory. -/
  | mixedDirectories (first second : Path)
  /-- The flags for the compiler have a quote that is not closed. -/
  | invalidBuildFlags
  /-- The compiler cannot be started. -/
  | spawnBuild (cause : IoError)
  /-- The compiler was started and failed. -/
  | buildFailed (status : ExitStatus)
  /-- An operation on files failed outside of all these. -/
  | io (cause : IoError)
  deriving Repr, DecidableEq, Inhabited

/-- What went wrong with a path, in the words that most causes share. -/
def pathMessage (what : String) (path : Path) (cause : String) : String :=
  what ++ " " ++ path.text ++ ": " ++ cause

/-- The wording of a cause. -/
def Error.message : Error → String
  | .parse path cause => pathMessage "failed to parse" path cause.message
  | .read path cause => pathMessage "failed to read" path cause.message
  | .createOutput path cause => pathMessage "failed to create" path cause.message
  | .truncateOutput path cause => pathMessage "failed to truncate" path cause.message
  | .duplicate path cause => pathMessage "failed to duplicate" path cause.message
  | .missingInput path cause => pathMessage "cannot access" path cause.message
  | .listDir path cause =>
    pathMessage "failed to list" path
      (path.text ++ ": " ++ pathMessage "IO error for operation on" path cause.message)
  | .noEntryPoint => "couldn't find a main() function to instrument"
  | .emptyGopath => "empty GOPATH environment variable"
  | .mixedDirectories first second =>
    "named files must all be in one directory; have '" ++ first.text ++ "' and '" ++
      second.text ++ "'"
  | .invalidBuildFlags => "failed to parse --buildflags: missing closing quote"
  | .spawnBuild cause => "failed to run go build: " ++ cause.message
  | .buildFailed status => "build failed: go build exited with " ++ status.message
  | .io cause => cause.message

end EntryProbe.Build
